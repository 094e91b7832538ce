import Mathlib.Data.List.Perm.Basic
import WriteGate.Proofs.Run.Blame

/-!
# Runs put together

What the gate says of two lists of paths, one behind the other, follows from what
it says of each (`gate_append`). With workers this is no matter of course: more
paths shift the positions of those behind them and the cuts between the shares,
may call workers in where one was enough, and set failures in front of others.
But a run under any schedule says what a run in order says, and a run in order
over two lists is one over the first that goes on over the second.

Three things follow. A path that is skipped leaves no mark, wherever it stands. A
path given twice is reported twice. And the order of the paths decides on the
order of the files, and on nothing else.
-/

namespace WriteGate

/-! ## Results and verdicts put together -/

/-- The values of two lists of results are those of the first and then those of the second,
which do not matter once the first has failed. -/
theorem allOrFirstFailure_append {ε α : Type} (xs ys : List (Except ε α)) :
    allOrFirstFailure (xs ++ ys)
      = (allOrFirstFailure xs).bind fun vs => (allOrFirstFailure ys).map (vs ++ ·) := by
  induction xs with
  | nil =>
    show allOrFirstFailure ys = (allOrFirstFailure ys).map id
    cases allOrFirstFailure ys <;> rfl
  | cons r xs ih =>
    cases r with
    | error e =>
      rw [List.cons_append, allOrFirstFailure_error, allOrFirstFailure_error]
      rfl
    | ok a =>
      rw [List.cons_append, allOrFirstFailure_ok, allOrFirstFailure_ok, ih]
      cases allOrFirstFailure xs with
      | error e => rfl
      | ok vs => cases allOrFirstFailure ys <;> rfl

/-- One failing part gives the whole its status, which is the greater one. -/
theorem Verdict.exitCode_eq_max {whole first second : Verdict}
    (h : whole = .fail ↔ first = .fail ∨ second = .fail) :
    whole.exitCode = max first.exitCode second.exitCode := by
  cases whole with
  | pass =>
    obtain ⟨hfirst, hsecond⟩ := not_or.1 (mt h.2 Verdict.noConfusion)
    rw [Verdict.ne_fail_iff.1 hfirst, Verdict.ne_fail_iff.1 hsecond]
    rfl
  | fail =>
    rcases h.1 rfl with rfl | rfl
    · cases second <;> rfl
    · cases first <;> rfl

namespace RunVerdict

theorem failures_append (xs ys : List FileOutcome) :
    (ofOutcomes (xs ++ ys)).failures = (ofOutcomes xs).failures ++ (ofOutcomes ys).failures :=
  List.filter_append ..

/-- **One failing part fails the whole.** -/
theorem overall_append (xs ys : List FileOutcome) :
    (ofOutcomes (xs ++ ys)).overall = .fail ↔
      (ofOutcomes xs).overall = .fail ∨ (ofOutcomes ys).overall = .fail := by
  rw [overall_eq_fail_iff, overall_eq_fail_iff, overall_eq_fail_iff, failures_append, ne_eq,
    List.append_eq_nil_iff, not_and_or]

theorem exitCode_append (xs ys : List FileOutcome) :
    (ofOutcomes (xs ++ ys)).exitCode
      = max (ofOutcomes xs).exitCode (ofOutcomes ys).exitCode :=
  Verdict.exitCode_eq_max (overall_append xs ys)

/-- The verdict on outcomes in another order differs in the order of the failures only. -/
theorem ofOutcomes_of_perm {xs ys : List FileOutcome} (h : xs.Perm ys) :
    (ofOutcomes xs).failures.Perm (ofOutcomes ys).failures
      ∧ (ofOutcomes xs).overall = (ofOutcomes ys).overall
      ∧ (ofOutcomes xs).exitCode = (ofOutcomes ys).exitCode := by
  have hfailures : (ofOutcomes xs).failures.Perm (ofOutcomes ys).failures := h.filter _
  have hoverall : (ofOutcomes xs).overall = (ofOutcomes ys).overall := by
    have hiff : (ofOutcomes xs).overall = .fail ↔ (ofOutcomes ys).overall = .fail := by
      rw [overall_eq_fail_iff, overall_eq_fail_iff, ne_eq, ne_eq,
        ← List.isEmpty_iff, ← List.isEmpty_iff, hfailures.isEmpty_eq]
    cases hxs : (ofOutcomes xs).overall with
    | fail => exact (hiff.1 hxs).symm
    | pass =>
      refine (Verdict.ne_fail_iff.1 fun hys => ?_).symm
      rw [hiff.2 hys] at hxs
      cases hxs
  exact ⟨hfailures, hoverall, congrArg Verdict.exitCode hoverall⟩

end RunVerdict

/-! ## The gate over two lists -/

section Gate

variable {world : Snapshot} {tool : Tool} {xs ys : List String} {jobs jobs' : Nat}
  {schedule schedule' : Schedule} {report : Report}

/-- Only the targets among the paths matter. -/
theorem gate_eq_of_targets_eq (h : xs.filter world.isTarget = ys.filter world.isTarget) :
    gate world xs tool jobs schedule = gate world ys tool jobs' schedule' := by
  rw [gate_eq, gate_eq, h]

/-- **The gate over two lists is the gate over the first, and then over the second.** -/
theorem gate_append (world : Snapshot) (tool : Tool) (xs ys : List String)
    (jobs jobs₁ jobs₂ : Nat) (schedule schedule₁ schedule₂ : Schedule) :
    gate world (xs ++ ys) tool jobs schedule
      = (gate world xs tool jobs₁ schedule₁).bind fun first =>
          (gate world ys tool jobs₂ schedule₂).map fun second =>
            Report.ofOutcomes tool (first.files ++ second.files) := by
  rw [gate_eq, gate_eq, gate_eq, List.filter_append, List.map_append, allOrFirstFailure_append]
  cases allOrFirstFailure ((xs.filter world.isTarget).map world.inspect) with
  | error failure => rfl
  | ok first =>
    cases allOrFirstFailure ((ys.filter world.isTarget).map world.inspect) <;> rfl

/-- **A report has one outcome for each target**, in the order of the paths, and each is
that of the bytes of its target. -/
theorem forall₂_files (h : gate world xs tool jobs schedule = .ok report) :
    List.Forall₂ (fun path outcome => ∃ bytes, world.contents path = .ok bytes
        ∧ outcome = (SourceFile.ofBytes path bytes).evaluate)
      (xs.filter world.isTarget) report.files := by
  obtain ⟨outcomes, houtcomes, rfl⟩ := gate_eq_ok_iff.1 h
  show List.Forall₂ _ _ outcomes
  have hresults : List.Forall₂ (fun path outcome => world.inspect path = .ok outcome)
      (xs.filter world.isTarget) outcomes := by
    refine List.forall₂_map_left_iff.1 (List.forall₂_map_right_iff.1 ?_)
    rw [houtcomes, List.forall₂_eq_eq_eq]
  exact hresults.imp fun path outcome houtcome => Snapshot.inspect_eq_ok_iff.1 houtcome

/-- The files of a report are the targets among the paths, repetitions kept, in order. -/
theorem map_path_files (h : gate world xs tool jobs schedule = .ok report) :
    report.files.map FileOutcome.path = xs.filter world.isTarget := by
  have hpaths : List.Forall₂ (fun path outcome => outcome.path = path)
      (xs.filter world.isTarget) report.files := by
    refine (forall₂_files h).imp fun path outcome => ?_
    rintro ⟨bytes, -, rfl⟩
    exact path_evaluate _
  rw [← List.forall₂_eq_eq_eq, List.forall₂_map_left_iff]
  exact hpaths.flip

end Gate

/-! ## What a report owes to the parts and the order of the paths -/

namespace Report

/-- **A report on two lists of paths, one behind the other**, beside the report on each. -/
structure Joins (whole first second : Report) : Prop where
  /-- Form, program and catalog are the same. -/
  heading : whole.schema = first.schema ∧ whole.tool = first.tool
    ∧ whole.catalog = first.catalog
  /-- The files of the first list, then those of the second. -/
  files : whole.files = first.files ++ second.files
  /-- The failures of the first list, then those of the second. -/
  failures : whole.verdict.failures = first.verdict.failures ++ second.verdict.failures
  /-- The whole fails if a part does, and only then. -/
  overall : whole.verdict.overall = .fail ↔
    first.verdict.overall = .fail ∨ second.verdict.overall = .fail
  /-- The greater status is that of the whole. -/
  exitCode : whole.exitCode = max first.exitCode second.exitCode

/-- **A report on the same paths in another order.** -/
structure Rearranges (r r' : Report) : Prop where
  /-- Form, program and catalog are the same. -/
  heading : r.schema = r'.schema ∧ r.tool = r'.tool ∧ r.catalog = r'.catalog
  /-- The files are the same up to their order. -/
  files : r.files.Perm r'.files
  /-- The failures are the same up to their order. -/
  failures : r.verdict.failures.Perm r'.verdict.failures
  /-- The verdict is the same. -/
  overall : r.verdict.overall = r'.verdict.overall
  /-- The status is the same. -/
  exitCode : r.exitCode = r'.exitCode

theorem joins_ofOutcomes (tool : Tool) (xs ys : List FileOutcome) :
    (ofOutcomes tool (xs ++ ys)).Joins (ofOutcomes tool xs) (ofOutcomes tool ys) where
  heading := ⟨rfl, rfl, rfl⟩
  files := rfl
  failures := RunVerdict.failures_append xs ys
  overall := RunVerdict.overall_append xs ys
  exitCode := RunVerdict.exitCode_append xs ys

theorem rearranges_ofOutcomes (tool : Tool) {xs ys : List FileOutcome} (h : xs.Perm ys) :
    (ofOutcomes tool xs).Rearranges (ofOutcomes tool ys) :=
  let ⟨hfailures, hoverall, hexit⟩ := RunVerdict.ofOutcomes_of_perm h
  { heading := ⟨rfl, rfl, rfl⟩
    files := h
    failures := hfailures
    overall := hoverall
    exitCode := hexit }

end Report

/-- Paths in another order yield a report again, on the same files in another order. -/
theorem exists_gate_of_perm {world : Snapshot} {tool : Tool} {xs ys : List String}
    {jobs : Nat} {schedule : Schedule} {report : Report} (hperm : ys.Perm xs)
    (h : gate world xs tool jobs schedule = .ok report) (jobs' : Nat) (schedule' : Schedule) :
    ∃ report', gate world ys tool jobs' schedule' = .ok report' ∧ report'.Rearranges report := by
  obtain ⟨outcomes, houtcomes, rfl⟩ := gate_eq_ok_iff.1 h
  have hresults : ((ys.filter world.isTarget).map world.inspect).Perm (outcomes.map .ok) := by
    rw [← houtcomes]
    exact (hperm.filter _).map _
  obtain ⟨outcomes', houtcomes', hsame⟩ :=
    (congrFun₂ (List.eq_map_comp_perm Except.ok) _ _).mpr hresults
  exact ⟨Report.ofOutcomes tool outcomes', gate_eq_ok_iff.2 ⟨outcomes', houtcomes', rfl⟩,
    Report.rearranges_ofOutcomes tool hsame⟩

/-- **Runs compose path by path**, with any number of workers under any schedule in each of
them. A run over two lists fails exactly if a run over one of them does, with the failure of
the first list if there is one and else with that of the second; its report is the reports
on both put together. Skipped paths may be added or left out anywhere, a path is reported as
often as it is given, and paths in another order get the same verdict on the same files in
another order. -/
theorem runs_compose (world : Snapshot) (tool : Tool) :
    (∀ (xs ys : List String) (jobs jobs₁ jobs₂ : Nat)
        (schedule schedule₁ schedule₂ : Schedule),
      let whole := gate world (xs ++ ys) tool jobs schedule
      let first := gate world xs tool jobs₁ schedule₁
      let second := gate world ys tool jobs₂ schedule₂
      (∀ failure, whole = .error failure ↔
          first = .error failure ∨ (∃ r, first = .ok r) ∧ second = .error failure)
        ∧ ∀ r₁ r₂, first = .ok r₁ → second = .ok r₂ → ∃ r, whole = .ok r ∧ r.Joins r₁ r₂)
      ∧ (∀ (before skipped after : List String) (jobs jobs' : Nat)
          (schedule schedule' : Schedule), (∀ p ∈ skipped, world.isTarget p = false) →
        gate world (before ++ skipped ++ after) tool jobs schedule
          = gate world (before ++ after) tool jobs' schedule')
      ∧ (∀ (paths : List String) (jobs : Nat) (schedule : Schedule) (r : Report),
        gate world paths tool jobs schedule = .ok r → ∀ path,
          (r.files.map FileOutcome.path).count path
            = if world.isTarget path then paths.count path else 0)
      ∧ ∀ (xs ys : List String) (jobs jobs' : Nat) (schedule schedule' : Schedule) (r : Report),
        ys.Perm xs → gate world xs tool jobs schedule = .ok r →
          ∃ r', gate world ys tool jobs' schedule' = .ok r' ∧ r'.Rearranges r := by
  refine ⟨?_, ?_, ?_, ?_⟩
  · intro xs ys jobs jobs₁ jobs₂ schedule schedule₁ schedule₂ whole first second
    have hwhole : whole = first.bind fun r₁ => second.map fun r₂ =>
        Report.ofOutcomes tool (r₁.files ++ r₂.files) := gate_append ..
    constructor
    · intro failure
      rw [hwhole]
      cases first with
      | error failure₁ => simp [Except.bind]
      | ok r₁ => cases second <;> simp [Except.bind, Except.map]
    · intro r₁ r₂ hfirst hsecond
      obtain ⟨xs', -, rfl⟩ := gate_eq_ok_iff.1 hfirst
      obtain ⟨ys', -, rfl⟩ := gate_eq_ok_iff.1 hsecond
      refine ⟨Report.ofOutcomes tool (xs' ++ ys'), ?_, Report.joins_ofOutcomes tool xs' ys'⟩
      rw [hwhole, hfirst, hsecond]
      rfl
  · intro before skipped after jobs jobs' schedule schedule' hskipped
    refine gate_eq_of_targets_eq ?_
    have hnone : skipped.filter world.isTarget = [] := by
      simpa [List.filter_eq_nil_iff] using hskipped
    rw [List.filter_append, List.filter_append, hnone, List.append_nil, List.filter_append]
  · intro paths jobs schedule r hr path
    rw [map_path_files hr]
    by_cases hpath : world.isTarget path = true
    · rw [List.count_filter hpath, if_pos hpath]
    · rw [if_neg hpath, List.count_eq_zero]
      exact fun hmem => hpath (List.mem_filter.1 hmem).2
  · intro xs ys jobs jobs' schedule schedule' r hperm hr
    exact exists_gate_of_perm hperm hr jobs' schedule'

/-- One file, and then another behind a path that leads nowhere, with a worker more for
both. -/
theorem runs_compose_of_two :
    let world : Snapshot :=
      { pathExists := (· != "gone.py"), contents := fun _ => .ok ⟨#[0xFF]⟩ }
    ∃ first second whole, gate world ["a.py"] ⟨"t", "1"⟩ 1 [] = .ok first
      ∧ gate world ["gone.py", "b.py"] ⟨"t", "1"⟩ 1 [] = .ok second
      ∧ gate world ["a.py", "gone.py", "b.py"] ⟨"t", "1"⟩ 2 [1, 0] = .ok whole
      ∧ whole.Joins first second := by
  intro world
  have ha : world.isTarget "a.py" = true := by decide +kernel
  have hb : world.isTarget "b.py" = true := by decide +kernel
  have hgone : world.isTarget "gone.py" = false := by decide +kernel
  have hread : ∀ path,
      world.inspect path = .ok (SourceFile.ofBytes path ⟨#[0xFF]⟩).evaluate := fun _ => rfl
  have hfirst : gate world ["a.py"] ⟨"t", "1"⟩ 1 []
      = .ok (Report.ofOutcomes ⟨"t", "1"⟩ [(SourceFile.ofBytes "a.py" ⟨#[0xFF]⟩).evaluate]) :=
    gate_eq_ok_iff.2 ⟨_, by simp [List.filter, ha, hread], rfl⟩
  have hsecond : gate world ["gone.py", "b.py"] ⟨"t", "1"⟩ 1 []
      = .ok (Report.ofOutcomes ⟨"t", "1"⟩ [(SourceFile.ofBytes "b.py" ⟨#[0xFF]⟩).evaluate]) :=
    gate_eq_ok_iff.2 ⟨_, by simp [List.filter, hgone, hb, hread], rfl⟩
  obtain ⟨whole, hwhole, hjoins⟩ := ((runs_compose world ⟨"t", "1"⟩).1 ["a.py"]
    ["gone.py", "b.py"] 2 1 1 [1, 0] [] []).2 _ _ hfirst hsecond
  exact ⟨_, _, whole, hfirst, hsecond, hwhole, hjoins⟩

end WriteGate
