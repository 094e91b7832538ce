import WriteGate.CommandLine.Invocation

/-!
# The program

Carries a call out on the real file system. The paths of the call are looked at
once, before anything else, and the response is computed from what was seen.
-/

namespace WriteGate

/-- The fault that the system numbers. -/
def Fault.ofCode? (code : UInt32) : Option Fault :=
  [(2, notFound), (17, alreadyExists), (20, notDirectory), (21, isDirectory),
    (36, nameTooLong), (40, tooManyLinks)].lookup code

/-- The fault behind an error of the system. -/
def Fault.ofError (e : IO.Error) : Fault :=
  let code? : Option UInt32 :=
    match e with
    | .noFileOrDirectory _ code _ => some code
    | .alreadyExists _ code _ => some code
    | .inappropriateType _ code _ => some code
    | .invalidArgument _ code _ => some code
    | .otherError code _ => some code
    | _ => none
  (code?.bind ofCode?).getD (.system (toString e))

/-- What was seen of a path. -/
structure Sight where
  /-- Whether it leads to something. -/
  present : Bool
  /-- The bytes there, or why they cannot be read. -/
  bytes : Except Fault ByteArray

/-- Looks at a path. Only a target is read. -/
def Sight.take (path : String) : IO Sight := do
  match ← (IO.FS.realPath path).toBaseIO with
  | .error e => pure { present := false, bytes := .error (Fault.ofError e) }
  | .ok _ =>
    if Path.namesSource path then
      let bytes ← (IO.FS.readBinFile path).toBaseIO
      pure { present := true, bytes := bytes.mapError Fault.ofError }
    else pure { present := true, bytes := .error .notFound }

/-- What was seen of some paths, as a snapshot. -/
def Snapshot.ofSights (sights : List (String × Sight)) : Snapshot where
  pathExists path := (sights.lookup path).any Sight.present
  contents path := (sights.lookup path).elim (.error .notFound) Sight.bytes

namespace CommandLine

/-- Puts an answer out, and yields its status. -/
def Answer.deliver (a : Answer) : IO UInt32 := do
  IO.eprint a.stderr
  IO.print a.stdout
  pure a.exit.toUInt32

/-- Looks at the paths of a call, and carries the response out. -/
def serve (arguments : List String) : IO UInt32 := do
  let paths := match settings arguments with
    | .ok s => s.paths
    | .error _ => []
  let sights ← paths.mapM fun path => do pure (path, ← Sight.take path)
  let filter := Log.Filter.ofSetting (← IO.getEnv "RUST_LOG")
  let response := respond arguments (Snapshot.ofSights sights) filter []
  match response.file with
  | none => response.answer.deliver
  | some (path, text) =>
    match ← (IO.FS.writeFile path text).toBaseIO with
    | .ok _ => response.answer.deliver
    | .error e => (response.refused (Fault.ofError e)).deliver

end CommandLine

end WriteGate

/-- The program. -/
def main (arguments : List String) : IO UInt32 := WriteGate.CommandLine.serve arguments
