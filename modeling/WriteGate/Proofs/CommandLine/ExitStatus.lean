import Mathlib.Tactic.ByContra
import WriteGate.CommandLine.Invocation
import WriteGate.Proofs.FileSystem.PutFile
import WriteGate.Proofs.Run.Blame

/-!
# The status of a call

The status is what a caller goes by, so it must not be zero unless everything is
well. A call ends in one of three places: in the reading of its arguments, in a
failure on the way to the report, or behind the report with the status that the
report carries. Each place has its statuses, and together they leave no gap: the
status is two for mistaken arguments, zero for information and for a run that
passes and whose report is where it was to go, and one for all the rest.

Nothing is assumed of the world but that it stands still. Reading a path may
fail for any reason, and so may writing the report, which is why the two are
arguments here and not read off a tree of files; a call on such a tree is one
case.
-/

namespace WriteGate.CommandLine

/-- **What a response comes to** when its file is handed over. Of a path and a text it is
known why the text is refused there, if it is. -/
def Response.concluded (r : Response) (refusal : String → String → Option Fault) : Answer :=
  match r.file with
  | none => r.answer
  | some (path, text) => (refusal path text).elim r.answer r.refused

theorem invoke_fst (fs : FileSystem) (arguments : List String) (filter : Log.Filter)
    (schedule : Schedule) :
    (invoke fs arguments filter schedule).1
      = (respond arguments fs.snapshot filter schedule).concluded fs.refusal := by
  unfold invoke Response.concluded FileSystem.refusal
  dsimp only
  cases (respond arguments fs.snapshot filter schedule).file with
  | none => rfl
  | some file =>
    dsimp only
    cases fs.putFile file.1 file.2.toUTF8 <;> rfl

/-- **A run that is well**, as far as the status is concerned. -/
structure Settings.Succeeds (s : Settings) (world : Snapshot)
    (refusal : String → String → Option Fault) : Prop where
  /-- Every target can be read, and passes. -/
  targets : ∀ p ∈ s.paths, world.isTarget p = true →
    ∃ outcome, world.inspect p = .ok outcome ∧ outcome.verdict = .pass
  /-- The report is not refused where it is to go. -/
  sink : ∀ path report, s.out = some path → gate world s.paths tool 1 [] = .ok report →
    refusal path (s.format.render report) = none

/-- **What can be wrong with a run.** -/
inductive Settings.Fails (s : Settings) (world : Snapshot)
    (refusal : String → String → Option Fault) : Prop
  /-- A target cannot be read. -/
  | unreadable {p : String} (hp : p ∈ s.paths) (htarget : world.isTarget p = true)
      {failure : ReadFailure} (hread : world.readSource p = .error failure) :
      Fails s world refusal
  /-- A target fails. -/
  | failing {p : String} (hp : p ∈ s.paths) (htarget : world.isTarget p = true)
      {outcome : FileOutcome} (houtcome : world.inspect p = .ok outcome)
      (hfail : outcome.verdict = .fail) : Fails s world refusal
  /-- The report is refused where it is to go. -/
  | refused {path : String} {report : Report} {fault : Fault} (hout : s.out = some path)
      (hgate : gate world s.paths tool 1 [] = .ok report)
      (hsink : refusal path (s.format.render report) = some fault) : Fails s world refusal

theorem Settings.fails_iff_not_succeeds (s : Settings) (world : Snapshot)
    (refusal : String → String → Option Fault) :
    s.Fails world refusal ↔ ¬ s.Succeeds world refusal := by
  constructor
  · rintro (⟨hp, htarget, hread⟩ | ⟨hp, htarget, houtcome, hfail⟩ | ⟨hout, hgate, hsink⟩) hwell
    · obtain ⟨outcome, houtcome, -⟩ := hwell.targets _ hp htarget
      rw [Snapshot.inspect_eq_error_iff.2 hread] at houtcome
      cases houtcome
    · obtain ⟨other, hother, hpass⟩ := hwell.targets _ hp htarget
      rw [houtcome, Except.ok.injEq] at hother
      rw [← hother, hfail] at hpass
      cases hpass
    · rw [hwell.sink _ _ hout hgate] at hsink
      cases hsink
  · intro hnot
    by_contra hfails
    refine hnot ⟨fun p hp htarget => ?_, fun path report hout hgate => ?_⟩
    · cases houtcome : world.inspect p with
      | error failure =>
        exact absurd (.unreadable hp htarget (Snapshot.inspect_eq_error_iff.1 houtcome)) hfails
      | ok outcome =>
        exact ⟨outcome, rfl, Verdict.ne_fail_iff.1 (fun hfail =>
          hfails (.failing hp htarget houtcome hfail))⟩
    · cases hsink : refusal path (s.format.render report) with
      | none => rfl
      | some fault => exact absurd (.refused hout hgate hsink) hfails

/-! ## The three places where a call ends -/

section Ends

variable {arguments : List String} {world : Snapshot} {filter : Log.Filter}
  {schedule : Schedule} {refusal : String → String → Option Fault} {s : Settings}

/-- **The response to a run that a target ended.** -/
theorem Settings.respond_of_gate_error {failure : ReadFailure}
    (hgate : gate world s.paths tool s.jobs.toNat schedule = .error failure) :
    s.respond world filter schedule =
      { answer :=
          { exit := failureExit
            stdout := ""
            stderr := filter.log
                (s.event :: (Run.perform world s.paths s.jobs.toNat schedule).events)
              ++ abortReport failure }
        file := none } := by
  unfold gate at hgate
  simp only [Settings.respond, hgate]

/-- **The response to a run with a report.** The text of the report goes to one place. -/
theorem Settings.respond_of_gate_ok {report : Report}
    (hgate : gate world s.paths tool s.jobs.toNat schedule = .ok report) :
    s.respond world filter schedule =
      { answer :=
          { exit := report.exitCode
            stdout := if s.out.isSome then "" else s.format.render report
            stderr := filter.log
              (s.event :: (Run.perform world s.paths s.jobs.toNat schedule).events) }
        file := s.out.map fun path => (path, s.format.render report) } := by
  unfold gate at hgate
  cases hout : s.out with
  | none => simp [Settings.respond, hgate, hout]
  | some path => simp [Settings.respond, hgate, hout]

theorem respond_of_settings (h : settings arguments = .ok s) :
    respond arguments world filter schedule = s.respond world filter schedule := by
  unfold respond
  rw [h]

theorem concluded_of_information {flag : Flag}
    (h : settings arguments = .error (.information flag)) :
    (respond arguments world filter schedule).concluded refusal = inform flag := by
  unfold respond
  rw [h]
  rfl

theorem exit_inform (flag : Flag) : (inform flag).exit = 0 := by
  cases flag <;> rfl

theorem exit_concluded_of_mistake {e : UsageError}
    (h : settings arguments = .error (.mistake e)) :
    ((respond arguments world filter schedule).concluded refusal).exit = mistakeExit := by
  unfold respond
  rw [h]
  rfl

theorem exit_concluded_of_gate_error {failure : ReadFailure}
    (h : settings arguments = .ok s)
    (hgate : gate world s.paths tool s.jobs.toNat schedule = .error failure) :
    ((respond arguments world filter schedule).concluded refusal).exit = failureExit := by
  rw [respond_of_settings h, Settings.respond_of_gate_error hgate]
  rfl

/-- A run with a report has the status of the report, if that is not refused where it is
to go. -/
theorem exit_concluded_of_accepted {report : Report} (h : settings arguments = .ok s)
    (hgate : gate world s.paths tool s.jobs.toNat schedule = .ok report)
    (hsink : ∀ path, s.out = some path → refusal path (s.format.render report) = none) :
    ((respond arguments world filter schedule).concluded refusal).exit = report.exitCode := by
  rw [respond_of_settings h, Settings.respond_of_gate_ok hgate]
  cases hout : s.out with
  | none => rfl
  | some path =>
    show Answer.exit ((refusal path (s.format.render report)).elim _ _) = report.exitCode
    rw [hsink path hout]
    rfl

/-- A report that is refused where it is to go has the status of a failure. -/
theorem exit_concluded_of_refused {report : Report} {path : String} {fault : Fault}
    (h : settings arguments = .ok s)
    (hgate : gate world s.paths tool s.jobs.toNat schedule = .ok report)
    (hout : s.out = some path) (hsink : refusal path (s.format.render report) = some fault) :
    ((respond arguments world filter schedule).concluded refusal).exit = failureExit := by
  rw [respond_of_settings h, Settings.respond_of_gate_ok hgate, hout]
  show Answer.exit ((refusal path (s.format.render report)).elim _ _) = failureExit
  rw [hsink]
  rfl

/-- **A run that is well has the status zero.** -/
theorem exit_concluded_of_succeeds (h : settings arguments = .ok s)
    (hwell : s.Succeeds world refusal) :
    ((respond arguments world filter schedule).concluded refusal).exit = 0 := by
  cases hgate : gate world s.paths tool s.jobs.toNat schedule with
  | error failure =>
    obtain ⟨before, path, after, hpaths, -, htarget, hread, -⟩ :=
      gate_eq_error_iff.1 hgate
    have hpath : path ∈ s.paths := by simp [hpaths]
    have hfails : s.Fails world refusal := .unreadable hpath htarget hread
    exact absurd hwell ((s.fails_iff_not_succeeds world refusal).1 hfails)
  | ok report =>
    -- whether the report is refused is said of the report of one worker
    have hone : gate world s.paths tool 1 [] = .ok report := by
      rw [← hgate, gate_eq, gate_eq]
    rw [exit_concluded_of_accepted h hgate fun path hout => hwell.sink path report hout hone,
      exitCode_eq_zero_iff hgate]
    intro path hpath hblames
    obtain ⟨outcome, houtcome, hpass⟩ := hwell.targets path hpath hblames.isTarget
    rw [(Snapshot.blames_iff_verdict hblames.isTarget houtcome).1 hblames] at hpass
    cases hpass

/-- **A run with which anything is wrong has the status one.** -/
theorem exit_concluded_of_fails (h : settings arguments = .ok s)
    (hfails : s.Fails world refusal) :
    ((respond arguments world filter schedule).concluded refusal).exit = 1 := by
  cases hgate : gate world s.paths tool s.jobs.toNat schedule with
  | error failure => exact exit_concluded_of_gate_error h hgate
  | ok report =>
    by_cases hsink : ∀ path, s.out = some path → refusal path (s.format.render report) = none
    · rw [exit_concluded_of_accepted h hgate hsink, exitCode_eq_one_iff hgate]
      cases hfails with
      | @unreadable p hp htarget failure hread =>
        obtain ⟨outcome, houtcome⟩ := exists_outcome_of_gate_eq_ok hgate hp htarget
        rw [Snapshot.inspect_eq_error_iff.2 hread] at houtcome
        cases houtcome
      | @failing p hp htarget outcome houtcome hfail =>
        exact ⟨p, hp, (Snapshot.blames_iff_verdict htarget houtcome).2 hfail⟩
      | @refused path other fault hout hother hrefused =>
        -- the report that was refused is that of one worker, and so the one at hand
        rw [gate_eq, ← gate_eq world s.paths tool s.jobs.toNat schedule, hgate,
          Except.ok.injEq] at hother
        rw [← hother, hsink path hout] at hrefused
        cases hrefused
    · push Not at hsink
      obtain ⟨path, hout, hrefused⟩ := hsink
      obtain ⟨fault, hfault⟩ := Option.ne_none_iff_exists'.1 hrefused
      exact exit_concluded_of_refused h hgate hout hfault

end Ends

/-- **The status of a call is zero only if all is well.** It is zero exactly when a flag
asked for information and was answered, or when the arguments are in order, every target
among the paths can be read and passes, and the report is not refused where it is to go.
It is two exactly for mistaken arguments, and one exactly when the arguments are in order
but a target cannot be read, a target fails, or the report is refused. A call on a file
system is such a call, with the report refused exactly where no file can be put. -/
theorem exit_concluded (arguments : List String) (filter : Log.Filter)
    (schedule : Schedule) :
    (∀ (world : Snapshot) (refusal : String → String → Option Fault),
      let answer := (respond arguments world filter schedule).concluded refusal
      (answer.exit = 0 ↔
          (∃ flag, settings arguments = .error (.information flag) ∧ answer = inform flag)
          ∨ ∃ s, settings arguments = .ok s ∧ s.Succeeds world refusal)
        ∧ (answer.exit = 2 ↔ ∃ e, settings arguments = .error (.mistake e))
        ∧ (answer.exit = 1 ↔ ∃ s, settings arguments = .ok s ∧ s.Fails world refusal))
      ∧ ∀ fs : FileSystem,
        (invoke fs arguments filter schedule).1
            = (respond arguments fs.snapshot filter schedule).concluded fs.refusal
          ∧ ∀ path text, fs.refusal path text = none ↔ fs.AcceptsFile path := by
  refine ⟨?_, fun fs => ⟨invoke_fst fs arguments filter schedule, fs.refusal_eq_none_iff⟩⟩
  intro world refusal answer
  cases hsettings : settings arguments with
  | error stop =>
    cases stop with
    | information flag =>
      have hanswer : answer = inform flag := concluded_of_information hsettings
      simp [hanswer, exit_inform]
    | mistake e =>
      have hexit : answer.exit = mistakeExit := exit_concluded_of_mistake hsettings
      simp [hexit, mistakeExit]
  | ok s =>
    by_cases hwell : s.Succeeds world refusal
    · have hexit : answer.exit = 0 := exit_concluded_of_succeeds hsettings hwell
      simp [hexit, hwell, s.fails_iff_not_succeeds world refusal]
    · have hfails : s.Fails world refusal := (s.fails_iff_not_succeeds world refusal).2 hwell
      have hexit : answer.exit = 1 := exit_concluded_of_fails hsettings hfails
      simp [hexit, hwell, hfails]

end WriteGate.CommandLine
