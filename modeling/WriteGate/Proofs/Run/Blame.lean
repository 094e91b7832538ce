import WriteGate.Proofs.Policy
import WriteGate.Proofs.Run.Schedule

/-!
# Whom the gate blames

A path is blamed for what it leads to, and this can be said without the gate: it
names a source file that is there, and the bytes of the file are no text, or
they are a text that writes without accepted encryption. Signals are meant here
as occurrences of patterns in the text brought to line feeds, not as answers of
a search.

The failures of a report are the blamed paths among the paths of the run, each
as often as it was given and in the same order. This takes every stage between
the paths and the report: none of them may drop a file, report one twice or
judge it by another's content.
-/

namespace WriteGate

/-! ## What is blamed -/

/-- **Bytes to be blamed**: no well-formed UTF-8, or that of a text which breaks the
policy once its line ends are line feeds. -/
def Blameworthy (bytes : ByteArray) : Prop :=
  ¬ bytes.IsValidUTF8
    ∨ ∃ text : List Char, bytes = text.utf8Encode ∧ BreaksPolicy (Text.normalize text)

/-- **A path to be blamed**: it leads to something and names a source file, and the bytes
there are to be blamed. -/
def Snapshot.Blames (world : Snapshot) (path : String) : Prop :=
  world.pathExists path = true ∧ Path.namesSource path = true
    ∧ ∃ bytes, world.contents path = .ok bytes ∧ Blameworthy bytes

/-! ## The verdict on bytes -/

theorem utf8Encode_injective {s t : List Char} (h : s.utf8Encode = t.utf8Encode) : s = t := by
  refine String.ofList_injective (String.toByteArray_inj.1 ?_)
  rw [String.toByteArray_ofList, String.toByteArray_ofList, h]

/-- Encoded text is decoded to that text with line feeds. -/
theorem Content.ofBytes_utf8Encode (text : List Char) :
    Content.ofBytes text.utf8Encode = .text (String.ofList (Text.normalize text)) := by
  have hvalid : text.utf8Encode.IsValidUTF8 := ⟨text, rfl⟩
  have hdecode : String.fromUTF8? text.utf8Encode = some (String.ofList text) := by
    rw [String.fromUTF8?, dif_pos hvalid, Option.some.injEq, ← String.toByteArray_inj,
      String.toByteArray_ofList]
    rfl
  rw [Content.ofBytes, hdecode]
  show Content.text (String.ofList (Text.normalize (String.ofList text).toList)) = _
  rw [String.toList_ofList]

theorem Content.ofBytes_of_not_isValidUTF8 {bytes : ByteArray} (h : ¬ bytes.IsValidUTF8) :
    Content.ofBytes bytes = .undecodable := by
  rw [Content.ofBytes, String.fromUTF8?, dif_neg h]

/-- **A file fails exactly when its bytes are to be blamed.** -/
theorem verdict_evaluate_eq_fail_iff (path : String) (bytes : ByteArray) :
    (SourceFile.ofBytes path bytes).evaluate.verdict = .fail ↔ Blameworthy bytes := by
  unfold Blameworthy
  by_cases hvalid : bytes.IsValidUTF8
  · obtain ⟨text, rfl⟩ := hvalid
    have hcontent : (SourceFile.ofBytes path text.utf8Encode).content
        = .text (String.ofList (Text.normalize text)) := Content.ofBytes_utf8Encode text
    rw [verdict_evaluate_text_eq_fail_iff hcontent, String.toList_ofList]
    constructor
    · exact fun h => .inr ⟨text, rfl, h⟩
    · rintro (h | ⟨other, heq, h⟩)
      · exact absurd ⟨text, rfl⟩ h
      · rwa [utf8Encode_injective heq]
  · have hcontent : (SourceFile.ofBytes path bytes).content = .undecodable :=
      Content.ofBytes_of_not_isValidUTF8 hvalid
    rw [SourceFile.evaluate, hcontent]
    exact ⟨fun _ => .inl hvalid, fun _ => rfl⟩

/-! ## The blamed among the paths -/

/-- An outcome is that of the bytes which the path leads to. -/
theorem Snapshot.inspect_eq_ok_iff {world : Snapshot} {path : String} {outcome : FileOutcome} :
    world.inspect path = .ok outcome ↔
      ∃ bytes, world.contents path = .ok bytes
        ∧ outcome = (SourceFile.ofBytes path bytes).evaluate := by
  unfold inspect readSource
  cases world.contents path with
  | error fault => simp [Except.map]
  | ok bytes => simp [Except.map, eq_comm]

theorem path_evaluate (file : SourceFile) : file.evaluate.path = file.path := by
  unfold SourceFile.evaluate
  split <;> rfl

/-- **A target is blamed exactly when its outcome fails.** -/
theorem Snapshot.blames_iff_verdict {world : Snapshot} {path : String} {outcome : FileOutcome}
    (htarget : world.isTarget path = true) (houtcome : world.inspect path = .ok outcome) :
    world.Blames path ↔ outcome.verdict = .fail := by
  obtain ⟨bytes, hbytes, rfl⟩ := inspect_eq_ok_iff.1 houtcome
  obtain ⟨hexists, hnames⟩ := (Bool.and_eq_true _ _).mp htarget
  rw [verdict_evaluate_eq_fail_iff]
  constructor
  · rintro ⟨-, -, other, hother, hblame⟩
    rw [hbytes, Except.ok.injEq] at hother
    exact hother ▸ hblame
  · exact fun h => ⟨hexists, hnames, bytes, hbytes, h⟩

theorem Snapshot.Blames.isTarget {world : Snapshot} {path : String} (h : world.Blames path) :
    world.isTarget path = true :=
  (Bool.and_eq_true _ _).mpr ⟨h.1, h.2.1⟩

/-- Whether a path is blamed can be told from its outcome. -/
theorem Snapshot.blames_iff_any (world : Snapshot) (path : String) :
    (world.isTarget path && (world.inspect path).toOption.any (·.verdict == .fail)) = true ↔
      world.Blames path := by
  rw [Bool.and_eq_true]
  constructor
  · rintro ⟨htarget, hany⟩
    cases houtcome : world.inspect path with
    | error failure =>
      rw [houtcome] at hany
      exact absurd hany (by simp [Except.toOption])
    | ok outcome =>
      rw [houtcome] at hany
      exact (blames_iff_verdict htarget houtcome).2 (by simpa [Except.toOption] using hany)
  · intro h
    obtain ⟨bytes, hbytes, -⟩ := h.2.2
    have houtcome := inspect_eq_ok_iff.2 ⟨bytes, hbytes, rfl⟩
    have hfail := (blames_iff_verdict h.isTarget houtcome).1 h
    refine ⟨h.isTarget, ?_⟩
    rw [houtcome]
    simpa [Except.toOption] using hfail

instance (world : Snapshot) (path : String) : Decidable (world.Blames path) :=
  decidable_of_iff _ (world.blames_iff_any path)

/-- Among targets that can all be read, the failing outcomes are those of the blamed, in
order. -/
theorem map_path_filter_fail {world : Snapshot} {targets : List String}
    {outcomes : List FileOutcome} (htargets : ∀ p ∈ targets, world.isTarget p = true)
    (houtcomes : targets.map world.inspect = outcomes.map .ok) :
    (outcomes.filter (·.verdict == .fail)).map FileOutcome.path
      = targets.filter (fun p => world.Blames p) := by
  -- both lists are as long as each other, so an outcome goes with each target
  induction targets generalizing outcomes with
  | nil =>
    obtain rfl : outcomes = [] := by simpa using houtcomes.symm
    rfl
  | cons p rest ih =>
    obtain ⟨o, later, rfl⟩ : ∃ o later, outcomes = o :: later := by
      cases outcomes with
      | nil => simp at houtcomes
      | cons o later => exact ⟨o, later, rfl⟩
    rw [List.map_cons, List.map_cons, List.cons.injEq] at houtcomes
    obtain ⟨htarget, hrest⟩ := List.forall_mem_cons.1 htargets
    have hblames := Snapshot.blames_iff_verdict htarget houtcomes.1
    have hpath : o.path = p := by
      obtain ⟨bytes, -, rfl⟩ := Snapshot.inspect_eq_ok_iff.1 houtcomes.1
      exact path_evaluate _
    have := ih hrest houtcomes.2
    by_cases hfail : o.verdict = .fail
    · rw [List.filter_cons_of_pos (by simpa using hfail),
        List.filter_cons_of_pos (by simpa using hblames.2 hfail), List.map_cons, this, hpath]
    · rw [List.filter_cons_of_neg (by simpa using hfail),
        List.filter_cons_of_neg (by simpa using fun h => hfail (hblames.1 h)), this]

/-- **The failures of a report are the blamed paths**, repetitions kept, in the order of
the paths. -/
theorem map_path_failures {world : Snapshot} {paths : List String} {tool : Tool} {jobs : Nat}
    {schedule : Schedule} {report : Report}
    (h : gate world paths tool jobs schedule = .ok report) :
    report.verdict.failures.map FileOutcome.path
      = paths.filter (fun p => world.Blames p) := by
  obtain ⟨outcomes, houtcomes, rfl⟩ := gate_eq_ok_iff.1 h
  have hfailures : (Report.ofOutcomes tool outcomes).verdict.failures
      = outcomes.filter (·.verdict == .fail) := rfl
  rw [hfailures, map_path_filter_fail (fun p hp => (List.mem_filter.1 hp).2) houtcomes,
    List.filter_filter]
  -- a path that is to be blamed is a target, so the first filter does nothing
  refine List.filter_congr (fun p _ => ?_)
  by_cases hp : world.Blames p
  · simp [hp, hp.isTarget]
  · simp [hp]

theorem RunVerdict.overall_eq_fail_iff (outcomes : List FileOutcome) :
    (ofOutcomes outcomes).overall = .fail ↔ (ofOutcomes outcomes).failures ≠ [] := by
  unfold ofOutcomes
  dsimp only
  split
  · next hempty => simpa using hempty
  · next hempty => simpa using hempty

/-- The status of a report is one if there are failures and zero if there are none. -/
theorem Report.exitCode_ofOutcomes (tool : Tool) (outcomes : List FileOutcome) :
    ((ofOutcomes tool outcomes).exitCode = 1
        ↔ (ofOutcomes tool outcomes).verdict.failures ≠ [])
      ∧ ((ofOutcomes tool outcomes).exitCode = 0
        ↔ (ofOutcomes tool outcomes).verdict.failures = []) := by
  have hverdict : (ofOutcomes tool outcomes).verdict = RunVerdict.ofOutcomes outcomes := rfl
  have hexit : (ofOutcomes tool outcomes).exitCode
      = (RunVerdict.ofOutcomes outcomes).overall.exitCode := rfl
  have hiff := RunVerdict.overall_eq_fail_iff outcomes
  rw [hexit, hverdict]
  cases hoverall : (RunVerdict.ofOutcomes outcomes).overall with
  | pass => simpa [Verdict.exitCode, hoverall] using hiff
  | fail => simpa [Verdict.exitCode, hoverall] using hiff

/-- **The status of a report is zero exactly when no path is to be blamed.** -/
theorem exitCode_eq_zero_iff {world : Snapshot} {paths : List String} {tool : Tool}
    {jobs : Nat} {schedule : Schedule} {report : Report}
    (h : gate world paths tool jobs schedule = .ok report) :
    report.exitCode = 0 ↔ ∀ path ∈ paths, ¬ world.Blames path := by
  have hfilter := map_path_failures h
  obtain ⟨outcomes, -, rfl⟩ := gate_eq_ok_iff.1 h
  rw [(Report.exitCode_ofOutcomes tool outcomes).2, ← List.map_eq_nil_iff, hfilter,
    List.filter_eq_nil_iff]
  simp

theorem exitCode_eq_one_iff {world : Snapshot} {paths : List String} {tool : Tool}
    {jobs : Nat} {schedule : Schedule} {report : Report}
    (h : gate world paths tool jobs schedule = .ok report) :
    report.exitCode = 1 ↔ ∃ path ∈ paths, world.Blames path := by
  have hzero := exitCode_eq_zero_iff h
  obtain ⟨outcomes, -, rfl⟩ := gate_eq_ok_iff.1 h
  obtain ⟨hone, hnil⟩ := Report.exitCode_ofOutcomes tool outcomes
  rw [hone, ne_eq, ← hnil, hzero]
  simp

/-- **The gate lets nothing through and blames nothing else.** In the report of a run, a
path that is to be blamed fails as often as it was given and every other path not at
all; failures come in the order of the paths; and the run fails, with status one
instead of zero, exactly when there are any. So a text without a trace of writing never
fails, and a target whose bytes are no text always does. -/
theorem count_failures {world : Snapshot} {paths : List String} {tool : Tool} {jobs : Nat}
    {schedule : Schedule} {report : Report}
    (h : gate world paths tool jobs schedule = .ok report) :
    (∀ path, (report.verdict.failures.map FileOutcome.path).count path
        = if world.Blames path then paths.count path else 0)
      ∧ report.verdict.failures.map FileOutcome.path
        = paths.filter (fun path => world.Blames path)
      ∧ (report.verdict.overall = .fail ↔ report.verdict.failures ≠ [])
      ∧ (report.exitCode = 1 ↔ report.verdict.failures ≠ [])
      ∧ (report.exitCode = 0 ↔ report.verdict.failures = [])
      ∧ (∀ path text, world.contents path = .ok (List.utf8Encode text) →
          ¬ Signal.diskWriteOpen.pattern.Occurs (Text.normalize text) →
          ¬ Signal.diskWriteCall.pattern.Occurs (Text.normalize text) →
          path ∉ report.verdict.failures.map FileOutcome.path)
      ∧ (∀ path ∈ paths, world.isTarget path = true →
          ∀ bytes, world.contents path = .ok bytes → ¬ bytes.IsValidUTF8 →
          path ∈ report.verdict.failures.map FileOutcome.path) := by
  have hfilter := map_path_failures h
  obtain ⟨outcomes, -, rfl⟩ := gate_eq_ok_iff.1 h
  obtain ⟨hone, hzero⟩ := Report.exitCode_ofOutcomes tool outcomes
  rw [hfilter]
  refine ⟨?_, rfl, RunVerdict.overall_eq_fail_iff outcomes, hone, hzero, ?_, ?_⟩
  · intro path
    by_cases hblames : world.Blames path
    · rw [List.count_filter (by simpa using hblames), if_pos hblames]
    · rw [if_neg hblames, List.count_eq_zero]
      exact fun hmem => hblames (by simpa using (List.mem_filter.1 hmem).2)
  · intro path text htext hopen hcall hmem
    obtain ⟨-, -, bytes, hbytes, hblame⟩ : world.Blames path := by
      simpa using (List.mem_filter.1 hmem).2
    rw [htext, Except.ok.injEq] at hbytes
    subst hbytes
    rcases hblame with hinvalid | ⟨other, heq, hbreaks⟩
    · exact hinvalid ⟨text, rfl⟩
    · rw [← utf8Encode_injective heq] at hbreaks
      exact hbreaks.1.elim hopen hcall
  · intro path hpath htarget bytes hbytes hinvalid
    obtain ⟨hexists, hnames⟩ := (Bool.and_eq_true _ _).mp htarget
    have hblames : world.Blames path := ⟨hexists, hnames, bytes, hbytes, .inl hinvalid⟩
    exact List.mem_filter.2 ⟨hpath, by simpa using hblames⟩

/-- Two workers, a path given twice whose bytes are no text, and one that is skipped. -/
theorem count_failures_repeated :
    let world : Snapshot :=
      { pathExists := fun _ => true, contents := fun _ => .ok ⟨#[0xFF]⟩ }
    ∃ report, gate world ["a.py", "b.txt", "a.py"] ⟨"t", "1"⟩ 2 [1, 0] = .ok report
      ∧ (report.verdict.failures.map FileOutcome.path).count "a.py" = 2
      ∧ (report.verdict.failures.map FileOutcome.path).count "b.txt" = 0
      ∧ report.exitCode = 1 := by
  intro world
  have hreport : gate world ["a.py", "b.txt", "a.py"] ⟨"t", "1"⟩ 2 [1, 0]
      = .ok (Report.ofOutcomes ⟨"t", "1"⟩
          [(SourceFile.ofBytes "a.py" ⟨#[0xFF]⟩).evaluate,
            (SourceFile.ofBytes "a.py" ⟨#[0xFF]⟩).evaluate]) := by
    refine gate_eq_ok_iff.2 ⟨_, ?_, rfl⟩
    have ha : world.isTarget "a.py" = true := by decide +kernel
    have hb : world.isTarget "b.txt" = false := by decide +kernel
    simp [List.filter, ha, hb, world, Snapshot.inspect, Snapshot.readSource, Except.map]
  have hinvalid : ¬ (⟨#[0xFF]⟩ : ByteArray).IsValidUTF8 := by decide +kernel
  have ha : world.Blames "a.py" :=
    ⟨rfl, by decide +kernel, _, rfl, .inl hinvalid⟩
  have hb : ¬ world.Blames "b.txt" := fun h => absurd h.2.1 (by decide +kernel)
  have hcount := (count_failures hreport).1
  refine ⟨_, hreport, ?_, ?_, ?_⟩
  · rw [hcount, if_pos ha]
    decide
  · rw [hcount, if_neg hb]
  · refine (count_failures hreport).2.2.2.1.2 (fun hnil => ?_)
    have := hcount "a.py"
    rw [hnil, if_pos ha] at this
    exact absurd this (by decide)

end WriteGate
