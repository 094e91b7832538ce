import WriteGate.Proofs.Justification

/-!
# What can be told from the short form

The short form of a report says which files fail and why, and says it in lines of
plain text: a path may hold anything, a colon, a hyphen or all the words of another
line, and nothing of it is escaped. It can be read back all the same, for two reasons.
A line ends at the line feed, so the lines are known unless a path holds one. And within a
line it is not the colon that ends the path, but the reason: there are two of these,
and they end in different characters, so the last character of a line tells the
reason and with it how long the path is (`eq_of_account_eq`).

The banner needs no such care. It comes first, so no path can change it.
-/

namespace WriteGate

variable {o o' : FileOutcome} {outcomes outcomes' : List FileOutcome}

/-! ## One line -/

/-- What is said of a file that fails, without the end of the line. -/
def FileOutcome.account (o : FileOutcome) : List Char :=
  " - ".toList ++ (o.path.toList ++ (": ".toList ++ (o.reason.getD "").toList))

theorem FileOutcome.toList_failureLine (o : FileOutcome) :
    o.failureLine.toList = o.account ++ ['\n'] := by
  simp [failureLine, account]

/-- **A reason for which a file fails.** -/
def StandardReason (reason : Option String) : Prop :=
  reason = some Finding.undecodableReason ∨ reason = some Finding.unencryptedReason

/-! Both reasons stay on their line, and they end in different characters. -/

theorem undecodableReason_ends :
    '\n' ∉ Finding.undecodableReason.toList
      ∧ Finding.undecodableReason.toList.getLast? = some '.' := by
  decide +kernel

theorem unencryptedReason_ends :
    '\n' ∉ Finding.unencryptedReason.toList
      ∧ Finding.unencryptedReason.toList.getLast? = some 'r' := by
  decide +kernel

theorem StandardReason.feed_not_mem {reason : Option String} (h : StandardReason reason) :
    '\n' ∉ (reason.getD "").toList := by
  rcases h with rfl | rfl
  · exact undecodableReason_ends.1
  · exact unencryptedReason_ends.1

theorem append_undecodableReason_ne (s t : List Char) :
    s ++ Finding.undecodableReason.toList ≠ t ++ Finding.unencryptedReason.toList := by
  intro h
  have hlast := congrArg List.getLast? h
  rw [List.getLast?_append, List.getLast?_append, undecodableReason_ends.2,
    unencryptedReason_ends.2] at hlast
  exact absurd (Option.some.inj hlast) (by decide)

/-- **The end of a text tells with which reason it ends**, and so what stands before it. -/
theorem StandardReason.append_inj {reason reason' : Option String} (h : StandardReason reason)
    (h' : StandardReason reason') {s t : List Char}
    (heq : s ++ (reason.getD "").toList = t ++ (reason'.getD "").toList) :
    s = t ∧ reason = reason' := by
  rcases h with rfl | rfl <;> rcases h' with rfl | rfl
  · exact ⟨List.append_cancel_right heq, rfl⟩
  · exact absurd heq (append_undecodableReason_ne s t)
  · exact absurd heq.symm (append_undecodableReason_ne t s)
  · exact ⟨List.append_cancel_right heq, rfl⟩

/-- What is listed of a failure: its path and its reason. -/
def FileOutcome.complaint (o : FileOutcome) : String × Option String := (o.path, o.reason)

/-- **A line tells the path and the reason**, whatever the path holds. -/
theorem eq_of_account_eq (h : StandardReason o.reason) (h' : StandardReason o'.reason)
    (heq : o.account = o'.account) : o.complaint = o'.complaint := by
  simp only [FileOutcome.account, ← List.append_assoc] at heq
  obtain ⟨hpath, hreason⟩ := h.append_inj h' heq
  rw [List.append_cancel_right_eq, List.append_cancel_left_eq, String.toList_inj] at hpath
  exact Prod.ext hpath hreason

theorem feed_not_mem_account (h : StandardReason o.reason) (hpath : '\n' ∉ o.path.toList) :
    '\n' ∉ o.account := by
  simp only [FileOutcome.account, List.mem_append, not_or]
  exact ⟨by decide, hpath, by decide, h.feed_not_mem⟩

/-! ## All lines -/

/-- **Lines are told apart by the line feeds behind them.** -/
theorem splitOn_flatMap_lines {lines : List (List Char)} (h : ∀ line ∈ lines, '\n' ∉ line) :
    (lines.flatMap (· ++ ['\n'])).splitOn '\n' = lines ++ [[]] := by
  induction lines with
  | nil => rfl
  | cons line lines ih =>
    obtain ⟨hline, hlines⟩ := List.forall_mem_cons.1 h
    have hfirst : line.splitOn '\n' = [line] := List.splitOn_eq_singleton hline
    rw [List.flatMap_cons, List.append_assoc, List.singleton_append, List.splitOn,
      List.splitOnP_append_cons _ _ (by decide), ← List.splitOn, ← List.splitOn, hfirst, ih hlines]
    rfl

/-- The text of failures, cut at its line feeds, is their lines. -/
theorem splitOn_failureLines
    (h : ∀ o ∈ outcomes, StandardReason o.reason ∧ '\n' ∉ o.path.toList) :
    (outcomes.flatMap (·.failureLine.toList)).splitOn '\n'
      = outcomes.map FileOutcome.account ++ [[]] := by
  simp only [FileOutcome.toList_failureLine]
  rw [← List.flatMap_map FileOutcome.account (· ++ ['\n']), splitOn_flatMap_lines]
  intro line hline
  obtain ⟨o, ho, rfl⟩ := List.mem_map.1 hline
  exact feed_not_mem_account (h o ho).1 (h o ho).2

/-- Lists of failures are told by the lists of their lines. -/
theorem map_complaint_eq_of_map_account_eq (h : ∀ o ∈ outcomes, StandardReason o.reason)
    (h' : ∀ o ∈ outcomes', StandardReason o.reason)
    (heq : outcomes.map FileOutcome.account = outcomes'.map FileOutcome.account) :
    outcomes.map FileOutcome.complaint = outcomes'.map FileOutcome.complaint := by
  induction outcomes generalizing outcomes' with
  | nil =>
    obtain rfl : outcomes' = [] := by simpa using heq.symm
    rfl
  | cons o outcomes ih =>
    cases outcomes' with
    | nil => simp at heq
    | cons o' outcomes' =>
      obtain ⟨hfirst, hothers⟩ := List.cons.inj heq
      obtain ⟨ho, hrest⟩ := List.forall_mem_cons.1 h
      obtain ⟨ho', hrest'⟩ := List.forall_mem_cons.1 h'
      rw [List.map_cons, List.map_cons, eq_of_account_eq ho ho' hfirst, ih hrest hrest' hothers]

/-- **Failures whose lines make the same text are the same**, as far as they are listed. -/
theorem map_complaint_eq (h : ∀ o ∈ outcomes, StandardReason o.reason ∧ '\n' ∉ o.path.toList)
    (h' : ∀ o ∈ outcomes', StandardReason o.reason ∧ '\n' ∉ o.path.toList)
    (heq : outcomes.flatMap (·.failureLine.toList) = outcomes'.flatMap (·.failureLine.toList)) :
    outcomes.map FileOutcome.complaint = outcomes'.map FileOutcome.complaint := by
  have haccounts : outcomes.map FileOutcome.account = outcomes'.map FileOutcome.account := by
    rw [← List.append_cancel_right_eq _ [[]], ← splitOn_failureLines h, ← splitOn_failureLines h',
      heq]
  exact map_complaint_eq_of_map_account_eq (fun o ho => (h o ho).1) (fun o ho => (h' o ho).1)
    haccounts

/-! ## The short form of a run -/

/-- The banner of a report with its verdict. -/
def heading (verdict : Verdict) : String := banner ++ ": " ++ verdict.name ++ "\n"

/-- **The banner comes first, and behind it there is a line for each failure.** A run that
passes has no failures, so this is the same for both verdicts. -/
theorem toList_toText (tool : Tool) (files : List FileOutcome) :
    (Report.ofOutcomes tool files).toText.toList
      = (heading (RunVerdict.ofOutcomes files).overall).toList
        ++ (RunVerdict.ofOutcomes files).failures.flatMap (·.failureLine.toList) := by
  have hfailures := RunVerdict.overall_eq_fail_iff files
  show (Report.ofVerdict tool files (RunVerdict.ofOutcomes files)).toText.toList = _
  unfold Report.toText heading
  dsimp only [Report.ofVerdict]
  cases hoverall : (RunVerdict.ofOutcomes files).overall with
  | pass =>
    have hnone : (RunVerdict.ofOutcomes files).failures = [] := by
      by_contra hne
      rw [hfailures.2 hne] at hoverall
      cases hoverall
    simp [hnone]
  | fail => simp [String.toList_join, List.flatMap_map]

theorem length_heading (verdict : Verdict) : (heading verdict).toList.length = 16 := by
  cases verdict <;> decide +kernel

theorem heading_injective {verdict verdict' : Verdict} (h : heading verdict = heading verdict') :
    verdict = verdict' := by
  cases verdict with
  | pass => cases verdict' with
    | pass => rfl
    | fail => exact absurd h (by decide +kernel)
  | fail => cases verdict' with
    | pass => exact absurd h (by decide +kernel)
    | fail => rfl

/-- **The banner tells the verdict**, whatever stands behind it. -/
theorem heading_append_inj {verdict verdict' : Verdict} {rest rest' : List Char}
    (h : (heading verdict).toList ++ rest = (heading verdict').toList ++ rest') :
    verdict = verdict' ∧ rest = rest' := by
  obtain ⟨hheading, hrest⟩ :=
    List.append_inj h ((length_heading verdict).trans (length_heading verdict').symm)
  exact ⟨heading_injective (String.toList_inj.1 hheading), hrest⟩

theorem failures_eq_nil_iff (files : List FileOutcome) :
    (RunVerdict.ofOutcomes files).failures = [] ↔ ∀ o ∈ files, o.verdict ≠ .fail := by
  show files.filter (·.verdict == .fail) = [] ↔ _
  simp [List.filter_eq_nil_iff]

theorem overall_eq_pass_iff (files : List FileOutcome) :
    (RunVerdict.ofOutcomes files).overall = .pass ↔ ∀ o ∈ files, o.verdict ≠ .fail := by
  rw [← Verdict.ne_fail_iff, ne_eq, RunVerdict.overall_eq_fail_iff, not_not, failures_eq_nil_iff]

/-- **A report is one line of passing exactly if no file fails.** -/
theorem toText_eq_heading_pass_iff (tool : Tool) (files : List FileOutcome) :
    (Report.ofOutcomes tool files).toText = heading .pass ↔ ∀ o ∈ files, o.verdict ≠ .fail := by
  rw [← String.toList_inj, toList_toText, ← overall_eq_pass_iff]
  constructor
  · intro h
    exact (heading_append_inj (h.trans (List.append_nil _).symm)).1
  · intro hpass
    rw [hpass, (failures_eq_nil_iff files).2 ((overall_eq_pass_iff files).1 hpass)]
    exact List.append_nil _

/-- **If a file fails, the report begins with the line that says so.** -/
theorem exists_toText_eq_heading_fail (tool : Tool) {files : List FileOutcome}
    (h : ∃ o ∈ files, o.verdict = .fail) :
    ∃ rest, (Report.ofOutcomes tool files).toText = heading .fail ++ rest := by
  have hfail : (RunVerdict.ofOutcomes files).overall = .fail := by
    rw [← Verdict.ne_pass_iff, ne_eq, overall_eq_pass_iff]
    obtain ⟨o, ho, hverdict⟩ := h
    exact fun hnone => hnone o ho hverdict
  refine ⟨String.ofList ((RunVerdict.ofOutcomes files).failures.flatMap (·.failureLine.toList)), ?_⟩
  rw [← String.toList_inj, toList_toText, hfail, String.toList_append, String.toList_ofList]

/-! ## Runs -/

section Runs

variable {world world' : Snapshot} {paths paths' : List String} {tool tool' : Tool}
  {jobs jobs' : Nat} {schedule schedule' : Schedule} {report report' : Report}

theorem standardReason_of_mem_failures (h : gate world paths tool jobs schedule = .ok report)
    (ho : o ∈ report.verdict.failures) : StandardReason o.reason := by
  have hfail : o.verdict = .fail := by
    obtain ⟨outcomes, -, rfl⟩ := gate_eq_ok_iff.1 h
    simpa using (List.mem_filter.1 ho).2
  obtain ⟨path, -, -, bytes, -, rfl⟩ :=
    exists_target_of_mem_files h (mem_files_of_mem_failures h ho)
  have hjustified := justifiedBy_evaluate (SourceFile.ofBytes path bytes)
  have hsome := hjustified.isSome_reason_iff.2 hfail
  rw [hjustified.reason_eq] at hsome ⊢
  cases hfinding : (SourceFile.ofBytes path bytes).evaluate.finding with
  | decodeFailure => exact .inl rfl
  | diskWriteDetected => exact .inr rfl
  | encryptionSignalDetected =>
    rw [hfinding] at hsome
    cases hsome
  | noSignal =>
    rw [hfinding] at hsome
    cases hsome

/-- **The short form tells the failures.** If two runs, over whatever file systems and
paths and with whatever programs and workers, are reported in the same words, they have the
same verdict and end with the same status; and they list the same failures in the same order,
each with the same path and reason, unless a path that fails has a line feed in it. A report
is the one line of passing exactly if no file fails, and else it begins with the line of
failing, whatever the paths hold. -/
theorem short_form_tells_failures (h : gate world paths tool jobs schedule = .ok report)
    (h' : gate world' paths' tool' jobs' schedule' = .ok report') :
    (report.toText = report'.toText →
        report.verdict.overall = report'.verdict.overall
          ∧ report.exitCode = report'.exitCode
          ∧ (report.verdict.failures.map (fun o => (o.path, o.reason))
              = report'.verdict.failures.map (fun o => (o.path, o.reason))
            ∨ ∃ o, (o ∈ report.verdict.failures ∨ o ∈ report'.verdict.failures)
              ∧ '\n' ∈ o.path.toList))
      ∧ (report.toText = "RISK GATE: PASS\n" ↔ ∀ o ∈ report.files, o.verdict ≠ .fail)
      ∧ ((∃ o ∈ report.files, o.verdict = .fail) →
        ∃ rest, report.toText = "RISK GATE: FAIL\n" ++ rest) := by
  have hreason := fun o => standardReason_of_mem_failures (o := o) h
  have hreason' := fun o => standardReason_of_mem_failures (o := o) h'
  obtain ⟨files, -, rfl⟩ := gate_eq_ok_iff.1 h
  obtain ⟨files', -, rfl⟩ := gate_eq_ok_iff.1 h'
  have hpass : heading .pass = "RISK GATE: PASS\n" := by decide +kernel
  have hfail : heading .fail = "RISK GATE: FAIL\n" := by decide +kernel
  rw [← hpass, ← hfail]
  refine ⟨fun htext => ?_, toText_eq_heading_pass_iff tool files,
    exists_toText_eq_heading_fail tool⟩
  rw [← String.toList_inj, toList_toText, toList_toText] at htext
  obtain ⟨hoverall, hlines⟩ := heading_append_inj htext
  refine ⟨hoverall, congrArg Verdict.exitCode hoverall, ?_⟩
  refine or_iff_not_imp_right.2 fun hplain => ?_
  have hpaths : ∀ o, o ∈ (RunVerdict.ofOutcomes files).failures
      ∨ o ∈ (RunVerdict.ofOutcomes files').failures → '\n' ∉ o.path.toList :=
    fun o ho hfeed => hplain ⟨o, ho, hfeed⟩
  exact map_complaint_eq (fun o ho => ⟨hreason o ho, hpaths o (.inl ho)⟩)
    (fun o ho => ⟨hreason' o ho, hpaths o (.inr ho)⟩) hlines

end Runs

/-- Two programs and two file systems, a path that is skipped by the one and a file that
passes in the other: what is told is the failure that they share. -/
theorem short_form_tells_failures_of_two :
    let world : Snapshot :=
      { pathExists := fun _ => true, contents := fun _ => .ok ⟨#[0xFF]⟩ }
    let world' : Snapshot :=
      { pathExists := fun _ => true
        contents := fun path => .ok (if path = "a: b.py" then ⟨#[0xC0, 0x80]⟩ else ⟨#[]⟩) }
    ∃ report report', gate world ["b.txt", "a: b.py"] ⟨"t", "1"⟩ 2 [1, 0] = .ok report
      ∧ gate world' ["a: b.py", "c.py"] ⟨"u", "2"⟩ 1 [] = .ok report'
      ∧ report.toText = report'.toText ∧ report ≠ report'
      ∧ report.exitCode = report'.exitCode
      ∧ report.verdict.failures.map (fun o => (o.path, o.reason))
        = report'.verdict.failures.map (fun o => (o.path, o.reason))
      ∧ ∃ rest, report.toText = "RISK GATE: FAIL\n" ++ rest := by
  intro world world'
  let outcome := (SourceFile.ofBytes "a: b.py" ⟨#[0xFF]⟩).evaluate
  let outcomes' := [(SourceFile.ofBytes "a: b.py" ⟨#[0xC0, 0x80]⟩).evaluate,
    (SourceFile.ofBytes "c.py" ⟨#[]⟩).evaluate]
  have htargets : ["b.txt", "a: b.py"].filter world.isTarget = ["a: b.py"] := by decide +kernel
  have htargets' : ["a: b.py", "c.py"].filter world'.isTarget = ["a: b.py", "c.py"] := by
    decide +kernel
  have hreport : gate world ["b.txt", "a: b.py"] ⟨"t", "1"⟩ 2 [1, 0]
      = .ok (Report.ofOutcomes ⟨"t", "1"⟩ [outcome]) :=
    gate_eq_ok_iff.2 ⟨[outcome], by rw [htargets]; rfl, rfl⟩
  have hreport' : gate world' ["a: b.py", "c.py"] ⟨"u", "2"⟩ 1 []
      = .ok (Report.ofOutcomes ⟨"u", "2"⟩ outcomes') :=
    gate_eq_ok_iff.2 ⟨outcomes', by rw [htargets']; rfl, rfl⟩
  have htext : (Report.ofOutcomes ⟨"t", "1"⟩ [outcome]).toText
      = (Report.ofOutcomes ⟨"u", "2"⟩ outcomes').toText := by decide +kernel
  have hplain : ¬ ∃ o, (o ∈ [outcome] ∨ o ∈ outcomes') ∧ '\n' ∈ o.path.toList := by
    rintro ⟨o, ho, hfeed⟩
    have hpath : o.path = "a: b.py" ∨ o.path = "c.py" := by
      simp only [outcomes', List.mem_cons, List.not_mem_nil, or_false] at ho
      rcases ho with rfl | rfl | rfl
      · exact .inl (path_evaluate _)
      · exact .inl (path_evaluate _)
      · exact .inr (path_evaluate _)
    rcases hpath with hpath | hpath <;> rw [hpath] at hfeed <;> exact absurd hfeed (by decide)
  obtain ⟨htold, -, hfail⟩ := short_form_tells_failures hreport hreport'
  obtain ⟨-, hexit, hfailures⟩ := htold htext
  refine ⟨_, _, hreport, hreport', htext, fun h => ?_, hexit, hfailures.resolve_right ?_,
    hfail ⟨outcome, List.mem_singleton_self _, by decide +kernel⟩⟩
  · exact absurd (congrArg (fun report : Report => report.tool.name) h) (by decide)
  · rintro ⟨o, ho, hfeed⟩
    refine hplain ⟨o, ho.imp (fun ho => ?_) (fun ho => ?_), hfeed⟩
    · exact (List.mem_filter.1 ho).1
    · exact (List.mem_filter.1 ho).1

end WriteGate
