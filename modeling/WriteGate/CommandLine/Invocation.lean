import WriteGate.CommandLine.Settings
import WriteGate.FileSystem.Change
import WriteGate.Log.Run
import WriteGate.Report.Json

/-!
# Calling the program

What a call of the program answers. Everything that the answer depends on is an
argument: the arguments of the call, the log filter, what the run sees of the
world, and the schedule of the workers. The answer may ask for one file to be
written, which is the last thing that happens; so a call that fails before has
changed nothing.
-/

namespace WriteGate.CommandLine

/-- The program as reports name it. -/
def tool : Tool where
  name := "riskgate-cli"
  version := programVersion

/-- The component that events of the program itself come from. -/
def programComponent : String := "riskgate"

namespace Format

/-- The name of a format in the log. -/
def label : Format → String
  | json => "Json"
  | text => "Text"

/-- A report in a format. -/
def render : Format → Report → String
  | json, report => report.toJsonText
  | text, report => report.toText

end Format

/-- Tells of the settings with which the program starts. -/
def Settings.event (s : Settings) : Log.Event where
  level := .debug
  component := programComponent
  message := "starting"
  values :=
    [("paths", toString s.paths.length), ("format", s.format.label),
      ("jobs", toString s.jobs.toNat)]

/-! ## Failures -/

/-- What is said of mistaken arguments. It quotes no control sequences. -/
def UsageError.report (e : UsageError) : String :=
  "error: " ++ e.visible.message ++ "\n\nFor more information, try '--help'.\n"

/-- One of the numbered causes of a failure. Lines after the first are indented to stand
below it. -/
def causeLine (number : Nat) (cause : String) : String :=
  "    " ++ toString number ++ ": " ++
    String.ofList (cause.toList.flatMap fun c =>
      if c == '\n' then '\n' :: List.replicate 7 ' ' else [c]) ++ "\n"

/-- What is said of a run that a target ended. -/
def abortReport (failure : ReadFailure) : String :=
  "Error: gate run aborted\n\nCaused by:\n" ++ causeLine 0 failure.message ++
    causeLine 1 failure.fault.message

/-- What is said of a report that could not be written. -/
def sinkReport (fault : Fault) : String := "Error: " ++ fault.message ++ "\n"

/-! ## Answers -/

/-- The status of a call with mistaken arguments. -/
def mistakeExit : Int32 := 2

/-- The status of a call that could not be carried out. -/
def failureExit : Int32 := 1

/-- What a call comes to. -/
structure Answer where
  /-- The status with which the program ends. -/
  exit : Int32
  /-- What goes to the standard output. -/
  stdout : String
  /-- What goes to the standard error output. -/
  stderr : String
deriving DecidableEq, Repr, Inhabited

/-- An answer, and a file to be written before it holds: its path and its text. -/
structure Response where
  /-- The answer, if the file can be written. -/
  answer : Answer
  /-- The file. -/
  file : Option (String × String)
deriving DecidableEq, Repr, Inhabited

/-- The answer when the file of a response cannot be written. -/
def Response.refused (r : Response) (fault : Fault) : Answer where
  exit := failureExit
  stdout := ""
  stderr := r.answer.stderr ++ sinkReport fault

/-- The answer to a flag. -/
def inform : Flag → Answer
  | .help => { exit := 0, stdout := helpText, stderr := "" }
  | .version => { exit := 0, stdout := versionText, stderr := "" }

/-- The response to settings. -/
def Settings.respond (s : Settings) (world : Snapshot) (filter : Log.Filter)
    (schedule : Schedule) : Response :=
  let run := Run.perform world s.paths s.jobs.toNat schedule
  let log := filter.log (s.event :: run.events)
  match run.report tool with
  | .error failure =>
    { answer := { exit := failureExit, stdout := "", stderr := log ++ abortReport failure }
      file := none }
  | .ok report =>
    let output := s.format.render report
    match s.out with
    | none =>
      { answer := { exit := report.exitCode, stdout := output, stderr := log }, file := none }
    | some path =>
      { answer := { exit := report.exitCode, stdout := "", stderr := log }
        file := some (path, output) }

/-- **The response to a call.** -/
def respond (arguments : List String) (world : Snapshot) (filter : Log.Filter)
    (schedule : Schedule) : Response :=
  match settings arguments with
  | .error (.information flag) => { answer := inform flag, file := none }
  | .error (.mistake e) =>
    { answer := { exit := mistakeExit, stdout := "", stderr := e.report }, file := none }
  | .ok s => s.respond world filter schedule

/-- **A call on a file system**: what it answers, and the file system that it leaves. -/
def invoke (fs : FileSystem) (arguments : List String) (filter : Log.Filter)
    (schedule : Schedule) : Answer × FileSystem :=
  let response := respond arguments fs.snapshot filter schedule
  match response.file with
  | none => (response.answer, fs)
  | some (path, text) =>
    match fs.putFile path text.toUTF8 with
    | .ok after => (response.answer, after)
    | .error fault => (response.refused fault, fs)

end WriteGate.CommandLine
