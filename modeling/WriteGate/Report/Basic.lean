import WriteGate.Outcome

/-!
# Reports

What a run says: every file it evaluated, in the order in which the paths were
given, and the verdict on the whole. One failing file fails the run.

For a reader there is a short form: a banner with the verdict, and for a run that
fails one line for each failing file. Paths are written as they are, so a path with a
line feed in it spreads over several lines.
-/

namespace WriteGate

/-- The version of the form in which reports are written. -/
def schemaVersion : String := "0.1.0"

/-- The program that made a report. -/
structure Tool where
  /-- The name of the program. -/
  name : String
  /-- The version of the program. -/
  version : String
deriving DecidableEq, Repr, Inhabited

/-- The catalog that a report was made with. -/
structure CatalogInfo where
  /-- The version of the catalog. -/
  version : String
  /-- The policy that the catalog describes. -/
  ruleset : String
deriving DecidableEq, Repr, Inhabited

/-- The catalog of this library. -/
def CatalogInfo.current : CatalogInfo where
  version := Signal.catalogVersion
  ruleset := Signal.ruleset

/-- The status with which a run ends: zero for a run that passes, one for a run that
does not. -/
def Verdict.exitCode : Verdict → Int32
  | pass => 0
  | fail => 1

/-- The verdict on a whole run. -/
structure RunVerdict where
  /-- Whether the run is accepted. -/
  overall : Verdict
  /-- The outcomes that fail, in the order of the files. -/
  failures : List FileOutcome
  /-- The status with which the run ends. -/
  exitCode : Int32
deriving DecidableEq, Repr, Inhabited

/-- **The verdict on some outcomes**: it fails exactly when one of them does. -/
def RunVerdict.ofOutcomes (outcomes : List FileOutcome) : RunVerdict :=
  let failures := outcomes.filter (·.verdict == .fail)
  let overall : Verdict := if failures.isEmpty then .pass else .fail
  { overall := overall, failures := failures, exitCode := overall.exitCode }

/-- What a run says. -/
structure Report where
  /-- The version of the form. -/
  schema : String
  /-- The program that made the report. -/
  tool : Tool
  /-- The catalog that it was made with. -/
  catalog : CatalogInfo
  /-- Every file evaluated, in the order of the paths. Skipped paths are absent. -/
  files : List FileOutcome
  /-- The verdict on the run. -/
  verdict : RunVerdict
deriving DecidableEq, Repr, Inhabited

namespace Report

/-- The report of a program on some outcomes, with the verdict on them. -/
def ofVerdict (tool : Tool) (files : List FileOutcome) (verdict : RunVerdict) : Report where
  schema := schemaVersion
  tool := tool
  catalog := CatalogInfo.current
  files := files
  verdict := verdict

/-- **The report on some outcomes.** -/
def ofOutcomes (tool : Tool) (files : List FileOutcome) : Report :=
  ofVerdict tool files (RunVerdict.ofOutcomes files)

/-- The status with which the reported run ends. -/
def exitCode (r : Report) : Int32 := r.verdict.exitCode

end Report

/-! ## The short form -/

/-- Opens the banner. -/
def banner : String := "RISK GATE"

/-- The line on a file that fails. -/
def FileOutcome.failureLine (o : FileOutcome) : String :=
  " - " ++ o.path ++ ": " ++ o.reason.getD "" ++ "\n"

/-- **The report in short**: the banner, and the failures if the run fails. -/
def Report.toText (r : Report) : String :=
  let heading := banner ++ ": " ++ r.verdict.overall.name ++ "\n"
  match r.verdict.overall with
  | .pass => heading
  | .fail => heading ++ String.join (r.verdict.failures.map FileOutcome.failureLine)

end WriteGate
