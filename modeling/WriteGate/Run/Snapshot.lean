import WriteGate.FileSystem.Walk
import WriteGate.Outcome

/-!
# What a run sees

A run asks two things of the file system: whether a path leads to something, and
what bytes it leads to. A snapshot answers both. It does not change during a
run, and the gate knows nothing else of the world.
-/

namespace WriteGate

/-- The state of the world as far as a run sees it. -/
structure Snapshot where
  /-- Whether a path leads to something. -/
  pathExists : String → Bool
  /-- The bytes of the file that a path leads to. -/
  contents : String → Except Fault ByteArray

/-- What a run sees of a file system. -/
def FileSystem.snapshot (fs : FileSystem) : Snapshot where
  pathExists := fs.pathExists
  contents := fs.contents

/-- A source file that could not be read. -/
structure ReadFailure where
  /-- The path as it was given. -/
  path : String
  /-- Why. -/
  fault : Fault
deriving DecidableEq, Repr, Inhabited

/-- What is said of a file that could not be read. -/
def ReadFailure.message (f : ReadFailure) : String := "failed to read source file: " ++ f.path

namespace Snapshot

/-- **Whether a path is to be evaluated**: it names a source file, and it leads to
something. All other paths are skipped. -/
def isTarget (world : Snapshot) (path : String) : Bool :=
  world.pathExists path && Path.namesSource path

/-- Reads a source file. Bytes that are no text are no failure here. -/
def readSource (world : Snapshot) (path : String) : Except ReadFailure SourceFile :=
  match world.contents path with
  | .ok bytes => .ok (SourceFile.ofBytes path bytes)
  | .error fault => .error { path := path, fault := fault }

/-- The outcome of a path. -/
def inspect (world : Snapshot) (path : String) : Except ReadFailure FileOutcome :=
  (world.readSource path).map SourceFile.evaluate

end Snapshot

end WriteGate
