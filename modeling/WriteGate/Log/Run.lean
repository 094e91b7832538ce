import WriteGate.Log.Basic
import WriteGate.Run.Basic

/-!
# The log of a run

A run tells which paths it skips, what it sets out to do, the outcome of each
file as it is reached, and the verdict. A run that is ended by a failure has no
verdict to tell.
-/

namespace WriteGate

open Log

/-- The component that runs come from. -/
def runComponent : String := "riskgate_core"

/-- The component that outcomes come from. -/
def outcomeComponent : String := "riskgate_core::rules::eval"

/-- The name of a finding in the log. -/
def Finding.label : Finding → String
  | .decodeFailure => "DecodeFailure"
  | .diskWriteDetected => "DiskWriteDetected"
  | .encryptionSignalDetected => "EncryptionSignalDetected"
  | .noSignal => "NoSignal"

/-- Tells of the outcome of a file. -/
def FileOutcome.event (o : FileOutcome) : Event where
  level := .debug
  component := outcomeComponent
  message := if o.finding = .decodeFailure then "decode failure" else "evaluated"
  values :=
    if o.finding = .decodeFailure then [("path", o.path)]
    else [("path", o.path), ("verdict", o.verdict.name), ("finding", o.finding.label)]

namespace Run

/-- Tells of a path that is skipped. -/
def skipEvent (path : String) : Event where
  level := .debug
  component := runComponent
  message := "skipping non-target path"
  values := [("path", path)]

/-- Tells what a run sets out to do. -/
def startEvent (run : Run) : Event where
  level := .debug
  component := runComponent
  message := "starting gate run"
  values :=
    [("targets", toString run.targets.length), ("supplied", toString run.supplied),
      ("jobs", toString run.jobs)]

/-- Tells the verdict on some outcomes. -/
def verdictEvent (outcomes : List FileOutcome) : Event :=
  let verdict := RunVerdict.ofOutcomes outcomes
  { level := .info
    component := runComponent
    message := "gate run finished"
    values :=
      [("overall", verdict.overall.name), ("evaluated", toString outcomes.length),
        ("failures", toString verdict.failures.length)] }

/-- **The events of a run**, in the order in which they happen. -/
def events (run : Run) : List Event :=
  run.skipped.map skipEvent ++ run.startEvent :: run.evaluated.map FileOutcome.event ++
    match run.files with
    | .ok outcomes => [verdictEvent outcomes]
    | .error _ => []

end Run

end WriteGate
