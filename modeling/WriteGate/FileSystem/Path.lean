/-!
# Paths

A path is a string, and what it says is a way through directories: the pieces
between its slashes, where empty pieces say nothing, one dot stays in place and
two dots go up. A slash at the end asks for a directory, just as one dot behind
it would.

Whether a path names a source file is decided by its last real piece alone. Dots
and slashes behind that piece do not count, and a name that *begins* with its
only dot has no extension.
-/

namespace WriteGate.Path

/-- The pieces between the slashes of a text, empty ones included. There is always one
piece more than there are slashes. -/
def splitSlashes : List Char → List (List Char)
  | [] => [[]]
  | c :: rest =>
    match splitSlashes rest with
    | [] => [[c]]
    | piece :: pieces => if c == '/' then [] :: piece :: pieces else (c :: piece) :: pieces

/-- The pieces of a path that say something. -/
def pieces (path : String) : List String :=
  ((splitSlashes path.toList).filter (!·.isEmpty)).map String.ofList

/-- Whether a path starts from the root. -/
def isAbsolute (path : String) : Bool := path.toList.head? == some '/'

/-- Whether a path ends with a slash. -/
def endsInSlash (path : String) : Bool := path.toList.getLast? == some '/'

/-- The greatest size of a path, in bytes. Every character that it is spelled with counts,
those that say nothing too. -/
def maxSize : Nat := 4095

/-- The greatest size of a single name, in bytes. -/
def maxNameSize : Nat := 255

/-! ## Ways through directories -/

/-- One step on a way. -/
inductive Step
  /-- Stays in the directory. -/
  | here
  /-- Goes to the parent directory; the root is its own parent. -/
  | up
  /-- Goes to an entry of the directory. -/
  | entry (name : String)
deriving DecidableEq, Repr

/-- The step that a piece says. -/
def Step.ofPiece (piece : String) : Step :=
  if piece == "." then here else if piece == ".." then up else entry piece

/-- What a way is followed for. -/
inductive Purpose
  /-- To find what is there. -/
  | find
  /-- To have a file there, new if need be. -/
  | create
deriving DecidableEq, Repr

/-- **The way that a path says.** A slash at the end is one more step in place, so that
what stands before it must be a directory. A file cannot be created under such a
path, whatever is there: it takes the place of the last piece, and the way leads
to the directory around it. -/
def way (purpose : Purpose) (path : String) : List Step :=
  let steps := (pieces path).map Step.ofPiece
  if endsInSlash path then
    match purpose with
    | .find => steps ++ [.here]
    | .create => steps.dropLast ++ [.here]
  else steps

/-! ## Names and extensions -/

/-- The name that a path ends with: its last piece, single dots aside. A path that ends by
going up has none. -/
def fileName? (path : String) : Option String :=
  match ((pieces path).filter (· != ".")).getLast? with
  | some name => if name == ".." then none else some name
  | none => none

/-- The extension of a name: what follows its last dot, if something precedes it. -/
def extension? (name : String) : Option String :=
  let reversed := name.toList.reverse
  let ending := reversed.takeWhile (· != '.')
  match reversed.dropWhile (· != '.') with
  | '.' :: stem => if stem.isEmpty then none else some (String.ofList ending.reverse)
  | _ => none

/-- The extension of the source files that are evaluated; case matters. -/
def sourceExtension : String := "py"

/-- **Whether a path names a source file.** -/
def namesSource (path : String) : Bool :=
  (fileName? path).bind extension? == some sourceExtension

end WriteGate.Path
