import WriteGate.Report.Basic
import WriteGate.Run.Order
import WriteGate.Run.Pool
import WriteGate.Run.Snapshot

/-!
# Runs

A run goes over a list of paths, skips those that are no targets, and evaluates
the others, one after the other or with a pool of workers. A target that cannot
be read ends a run in order at once, while workers carry on with their shares;
in both cases the failure that counts is the first in input order.

Besides its result a run keeps what it did, for the log.
-/

namespace WriteGate

/-- A run over some paths. -/
structure Run where
  /-- How many paths were given. -/
  supplied : Nat
  /-- The paths that are no targets, in input order. -/
  skipped : List String
  /-- The targets, with their positions among the paths. -/
  targets : List (Indexed String)
  /-- How many workers were asked for. -/
  jobs : Nat
  /-- The outcomes in the order in which they were reached. -/
  evaluated : List FileOutcome
  /-- The outcomes in input order, or the failure that ended the run. -/
  files : Except ReadFailure (List FileOutcome)

/-- All values of a list of results, or the first failure in it. -/
def allOrFirstFailure {ε α : Type} (results : List (Except ε α)) : Except ε (List α) :=
  results.mapM id

/-- The values before the first failure. -/
def beforeFirstFailure {ε α : Type} (results : List (Except ε α)) : List α :=
  (results.takeWhile Except.isOk).filterMap Except.toOption

namespace Run

/-- The targets among some paths. -/
def targetsOf (world : Snapshot) (paths : List String) : List (Indexed String) :=
  (paths.zipIdx.map fun p => { index := p.2, value := p.1 }).filter fun t =>
    world.isTarget t.value

/-- The results of a pool of workers that share the targets, at the end of a schedule. -/
def poolOf (world : Snapshot) (targets : List (Indexed String)) (jobs : Nat)
    (schedule : Schedule) :
    Pool (Indexed String) (Indexed (Except ReadFailure FileOutcome)) :=
  (Pool.start (shares targets jobs)).finish (Indexed.map world.inspect) schedule

/-- **The run over some paths.** Workers are used if more than one is asked for and there
is more than one target. -/
def perform (world : Snapshot) (paths : List String) (jobs : Nat) (schedule : Schedule) : Run :=
  let targets := targetsOf world paths
  let skipped := paths.filter (!world.isTarget ·)
  if jobs > 1 ∧ targets.length > 1 then
    let pool := poolOf world targets jobs schedule
    { supplied := paths.length, skipped := skipped, targets := targets, jobs := jobs
      evaluated := pool.completed.filterMap (·.value.toOption)
      files := allOrFirstFailure (Indexed.restore pool.results) }
  else
    let results := targets.map fun t => world.inspect t.value
    { supplied := paths.length, skipped := skipped, targets := targets, jobs := jobs
      evaluated := beforeFirstFailure results
      files := allOrFirstFailure results }

/-- The report of a run, unless it was ended by a failure. -/
def report (run : Run) (tool : Tool) : Except ReadFailure Report :=
  run.files.map (Report.ofOutcomes tool)

end Run

/-- **The gate over some paths**: the report on them, or the first target in input order
that cannot be read. -/
def gate (world : Snapshot) (paths : List String) (tool : Tool) (jobs : Nat)
    (schedule : Schedule) : Except ReadFailure Report :=
  (Run.perform world paths jobs schedule).report tool

end WriteGate
