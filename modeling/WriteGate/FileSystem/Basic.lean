import WriteGate.FileSystem.Path

/-!
# File systems

A tree of directories, files and symbolic links, kept as the list of what stands
at which location, and the working directory from which relative paths start. A
location is the list of names that leads to it from the root, through
directories only; the root itself is always a directory.
-/

namespace WriteGate

/-- A place in the tree: the names that lead to it from the root. -/
abbrev Location := List String

/-- What stands at a location. -/
inductive Entry
  /-- A regular file with its bytes. -/
  | file (bytes : ByteArray)
  /-- A directory. -/
  | directory
  /-- A symbolic link with the path that it stands for. -/
  | link (target : String)
deriving Inhabited

/-- A tree of entries and a working directory. -/
structure FileSystem where
  /-- What stands where. -/
  entries : List (Location × Entry)
  /-- Where relative paths start. -/
  workingDirectory : Location
deriving Inhabited

/-- Why an access to the file system fails. -/
inductive Fault
  /-- Nothing is there. -/
  | notFound
  /-- A directory was expected. -/
  | notDirectory
  /-- A directory was not expected. -/
  | isDirectory
  /-- Nothing was expected. -/
  | alreadyExists
  /-- Links lead to links without end. -/
  | tooManyLinks
  /-- The path, or a name that is looked up on the way, is longer than it may be. -/
  | nameTooLong
  /-- The path holds the character that ends names. -/
  | nulInPath
  /-- A cause outside of this model, in the words of the system. -/
  | system (description : String)
deriving DecidableEq, Repr, Inhabited

/-- What a fault is called. -/
def Fault.message : Fault → String
  | notFound => "No such file or directory (os error 2)"
  | notDirectory => "Not a directory (os error 20)"
  | isDirectory => "Is a directory (os error 21)"
  | alreadyExists => "File exists (os error 17)"
  | tooManyLinks => "Too many levels of symbolic links (os error 40)"
  | nameTooLong => "File name too long (os error 36)"
  | nulInPath => "file name contained an unexpected NUL byte"
  | system description => description

namespace FileSystem

/-- The entry at a location, if there is one. -/
def entryAt? (fs : FileSystem) (l : Location) : Option Entry :=
  if l.isEmpty then some .directory else fs.entries.lookup l

/-- The file system with an entry put at a location, in place of what was there. -/
def put (fs : FileSystem) (l : Location) (e : Entry) : FileSystem :=
  { fs with entries := (l, e) :: fs.entries.filter (·.1 != l) }

/-- The file system without a location and everything below it. -/
def prune (fs : FileSystem) (l : Location) : FileSystem :=
  { fs with entries := fs.entries.filter fun e => !l.isPrefixOf e.1 }

theorem entryAt?_root (fs : FileSystem) : fs.entryAt? [] = some .directory := rfl

/-- Away from the location, nothing changes. -/
theorem entryAt?_put_of_ne (fs : FileSystem) {l l' : Location} (e : Entry) (h : l' ≠ l) :
    (fs.put l e).entryAt? l' = fs.entryAt? l' := by
  have key : ∀ es : List (Location × Entry),
      (es.filter (·.1 != l)).lookup l' = es.lookup l' := by
    intro es
    induction es with
    | nil => rfl
    | cons a es ih =>
      obtain ⟨k, v⟩ := a
      by_cases hk : k = l
      · have hl : (l' == l) = false := by simpa using h
        simp [List.lookup_cons, hk, hl, ih]
      · simp [List.lookup_cons, hk, ih]
  have hb : (l' == l) = false := by simpa using h
  simp [put, entryAt?, List.lookup_cons, hb, key]

/-- At the location, the entry is the one put there. -/
theorem entryAt?_put_self (fs : FileSystem) {l : Location} (e : Entry) (h : l ≠ []) :
    (fs.put l e).entryAt? l = some e := by
  simp [put, entryAt?, h]

end FileSystem

end WriteGate
