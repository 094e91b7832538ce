import WriteGate.FileSystem.Walk

/-!
# Changing a file system

Writing a file, and the three other changes by which a tree is set up. An access
that fails changes nothing: it yields a fault and no file system.
-/

namespace WriteGate.FileSystem

open WriteGate.Path

/-- **Writes a file**: the file that the path leads to gets new content, and is made if its
name is still free. Links are followed, so the file may be elsewhere. -/
def putFile (fs : FileSystem) (path : String) (bytes : ByteArray) :
    Except Fault FileSystem := do
  match ← fs.walk .create path with
  | .vacant l => .ok (fs.put l (.file bytes))
  | .present l =>
    match fs.entryAt? l with
    | some .directory => .error .isDirectory
    | _ => .ok (fs.put l (.file bytes))

/-- The spellings of a path's beginnings, from its first piece to all of them. -/
def ancestry (path : String) : List String :=
  let start := if isAbsolute path then "/" else ""
  let names := pieces path
  (List.range names.length).map fun n => start ++ "/".intercalate (names.take (n + 1))

/-- The location that a path names, which need not exist. A link in the last step is not
followed, so the name may be that of a link. -/
def nameOf (fs : FileSystem) (path : String) : Except Fault Location := do
  checkSpelling path
  match (pieces path).getLast? with
  | none => .error .isDirectory
  | some name =>
    if maxNameSize < name.utf8ByteSize then throw .nameTooLong
    let above := (ancestry path).dropLast.getLast?.getD (if isAbsolute path then "" else ".")
    .ok ((← fs.locate (above ++ "/")) ++ [name])

/-- Makes one directory under a name that is free; a directory that is there stays. -/
def makeDirectory (fs : FileSystem) (path : String) : Except Fault FileSystem := do
  match fs.locate path with
  | .ok l =>
    match fs.entryAt? l with
    | some .directory => .ok fs
    | _ => .error .alreadyExists
  | .error _ =>
    let l ← fs.nameOf path
    match fs.entryAt? l with
    | none => .ok (fs.put l .directory)
    | some _ => .error .alreadyExists

/-- Makes the directory of a path, and those on the way to it. -/
def makeDirectories (fs : FileSystem) (path : String) : Except Fault FileSystem :=
  if maxSize < path.utf8ByteSize then .error .nameTooLong
  else (ancestry path).foldlM makeDirectory fs

/-- Makes the directories on the way to a path, but not the path itself. -/
def makeParents (fs : FileSystem) (path : String) : Except Fault FileSystem :=
  (ancestry path).dropLast.foldlM makeDirectory fs

/-- Makes a symbolic link under a name that is free. -/
def makeLink (fs : FileSystem) (path target : String) : Except Fault FileSystem := do
  checkSpelling target
  let l ← fs.nameOf path
  match fs.entryAt? l with
  | none => .ok (fs.put l (.link target))
  | some _ => .error .alreadyExists

/-- Removes what a path names: a file, a link, or a directory with everything below. -/
def remove (fs : FileSystem) (path : String) : Except Fault FileSystem := do
  let l ← fs.nameOf path
  match fs.entryAt? l with
  | none => .error .notFound
  | some _ => .ok (fs.prune l)

end WriteGate.FileSystem
