import WriteGate.FileSystem.Basic

/-!
# Following a path

How a path leads to a location. Every step starts from a directory, so a step
behind a file is a fault, and so is a name that is too long to be in a directory.
A path that is too long as a whole is not followed at all. Links are followed
wherever they are met, the last step included: the path of the link takes the
place of the step. A budget of links bounds this, since links may lead in a
circle.

One walk serves both purposes of a path. They differ only where the last step
names an entry that is not there: this is a place for a new file, but nothing to
be found.
-/

namespace WriteGate.FileSystem

open WriteGate.Path

/-- Where a way ends. -/
inductive Destination
  /-- At something that exists. -/
  | present (l : Location)
  /-- At a name that is free in a directory that exists. -/
  | vacant (l : Location)
deriving DecidableEq, Repr

/-- How far a way can be followed without following a link. -/
inductive Progress
  /-- To its end. -/
  | arrived (d : Destination)
  /-- To a link in a directory, with the steps that come after it. -/
  | atLink (directory : Location) (target : String) (rest : List Step)
  /-- Not to its end. -/
  | stuck (fault : Fault)
deriving DecidableEq, Repr

/-- Follows steps from a location up to the first link. -/
def advance (fs : FileSystem) (l : Location) : List Step → Progress
  | [] => .arrived (.present l)
  | step :: rest =>
    match fs.entryAt? l with
    | some .directory =>
      match step with
      | .here => advance fs l rest
      | .up => advance fs l.dropLast rest
      | .entry name =>
        if maxNameSize < name.utf8ByteSize then .stuck .nameTooLong
        else
          match fs.entryAt? (l ++ [name]) with
          | some (.link target) => .atLink l target rest
          | some _ => advance fs (l ++ [name]) rest
          | none =>
            if rest.isEmpty then .arrived (.vacant (l ++ [name])) else .stuck .notFound
    | _ => .stuck .notDirectory

/-- The way on from a link: that of its path, read for the purpose of the whole way if the
link is the last step, and else to find a directory; then the steps after it. -/
def wayThrough (purpose : Purpose) (target : String) (rest : List Step) : List Step :=
  if rest.isEmpty then way purpose target else way .find target ++ rest

/-- Where the way of a link starts. -/
def startOf (directory : Location) (target : String) : Location :=
  if isAbsolute target then [] else directory

/-- Follows steps from a location through at most `links` links. -/
def follow (fs : FileSystem) (purpose : Purpose) (links : Nat) (l : Location)
    (steps : List Step) : Except Fault Destination :=
  match fs.advance l steps with
  | .arrived d => .ok d
  | .stuck fault => .error fault
  | .atLink directory target rest =>
    match links with
    | 0 => .error .tooManyLinks
    | links + 1 =>
      if target.isEmpty then .error .notFound
      else fs.follow purpose links (startOf directory target) (wayThrough purpose target rest)

/-- How many links one path may lead through. -/
def linkBudget : Nat := 40

/-- Refuses a path for its spelling alone. -/
def checkSpelling (path : String) : Except Fault Unit :=
  if path.toList.contains '\x00' then .error .nulInPath
  else if path.isEmpty then .error .notFound
  else if maxSize < path.utf8ByteSize then .error .nameTooLong
  else .ok ()

/-- **Where a path leads**, from the working directory or the root. -/
def walk (fs : FileSystem) (purpose : Purpose) (path : String) : Except Fault Destination := do
  checkSpelling path
  fs.follow purpose linkBudget (startOf fs.workingDirectory path) (way purpose path)

/-! ## Finding -/

/-- **The location of what a path leads to**, if it leads to something. -/
def locate (fs : FileSystem) (path : String) : Except Fault Location :=
  match fs.walk .find path with
  | .ok (.present l) => .ok l
  | .ok (.vacant _) => .error .notFound
  | .error fault => .error fault

/-- Whether a path leads to something. -/
def pathExists (fs : FileSystem) (path : String) : Bool := (fs.locate path).isOk

/-- **The bytes of the file that a path leads to.** -/
def contents (fs : FileSystem) (path : String) : Except Fault ByteArray := do
  match fs.entryAt? (← fs.locate path) with
  | some (.file bytes) => .ok bytes
  | some .directory => .error .isDirectory
  | _ => .error .notFound

end WriteGate.FileSystem
