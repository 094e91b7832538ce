import WriteGate.Proofs.Content

/-!
# Outcomes that justify themselves

A report does not only say that a file passed or failed, it says why: which
signals were found, what was concluded from them, and for a failure a sentence.
All of this goes together. The signals listed are those of the text, in the order
of the catalog and none of them twice; the finding and the verdict are what the
list makes of them, so a reader who mistrusts the gate can draw the conclusion from
the list again; and a sentence is given exactly for the failures.

The list is all that the conclusion depends on, and it is said here without the
table that drew it: what writes is told by the category of a signal, and what
encrypts by the names of four of them.
-/

namespace WriteGate

/-! ## What a list of signals shows -/

/-- **Signals that show writing**: one of them at least speaks for it. -/
def ShowWriting (signals : List Signal) : Prop :=
  ∃ s ∈ signals, s.category = .writeSignal

/-- **Signals that show accepted encryption**: an approved wrapper, or a call that encrypts
together with a reference to cryptography. -/
def ShowEncryption (signals : List Signal) : Prop :=
  .safeWrapper ∈ signals
    ∨ (.encryptCall ∈ signals ∧ (.cryptoImport ∈ signals ∨ .cipherIdentifier ∈ signals))

namespace Evidence

theorem showWriting_matched_iff (e : Evidence) :
    ShowWriting e.matched ↔ e.write.any = true := by
  rw [WriteEvidence.any, Bool.or_eq_true]
  constructor
  · rintro ⟨s, hs, hcategory⟩
    rw [mem_matched] at hs
    cases s with
    | diskWriteOpen => exact .inl hs
    | diskWriteCall => exact .inr hs
    | cryptoImport => cases hcategory
    | cipherIdentifier => cases hcategory
    | encryptCall => cases hcategory
    | safeWrapper => cases hcategory
  · rintro (h | h)
    · exact ⟨.diskWriteOpen, mem_matched.2 h, rfl⟩
    · exact ⟨.diskWriteCall, mem_matched.2 h, rfl⟩

/-- Accepted encryption can be told from the list. -/
theorem showEncryption_matched_iff (e : Evidence) :
    ShowEncryption e.matched ↔ e.encryption.accepted = true := by
  simp only [ShowEncryption, mem_matched, holds, EncryptionEvidence.accepted,
    EncryptionEvidence.cryptoUsage, EncryptionEvidence.approvedWrapper, Bool.or_eq_true,
    Bool.and_eq_true]
  rw [or_comm, and_comm]

/-- **Signals are listed in the order of the catalog**, each of them once. -/
theorem pairwise_matched (e : Evidence) : e.matched.Pairwise (·.rank < ·.rank) :=
  List.Pairwise.filter _ (by decide)

/-- **Listed are the signals whose patterns occur.** -/
theorem mem_matched_ofText_iff {text : String} {s : Signal} :
    s ∈ (ofText text).matched ↔ s.pattern.Occurs text.toList := by
  rw [mem_matched, ofText, holds_ofSignals, Signal.carriedBy_iff]

end Evidence

/-! ## What an outcome says of its file -/

namespace FileOutcome

/-- **An outcome that weighs the evidence of a text.** -/
structure Weighs (o : FileOutcome) (text : List Char) : Prop where
  /-- The signals are listed in the order of the catalog. -/
  pairwise : o.matched.Pairwise (·.rank < ·.rank)
  /-- They are those of the text. -/
  mem_iff : ∀ s : Signal, s ∈ o.matched ↔ s.pattern.Occurs text
  /-- No writing was found exactly if the list shows none. -/
  noSignal_iff : (o.finding = .noSignal ∧ o.verdict = .pass) ↔ ¬ ShowWriting o.matched
  /-- Writing was found with encryption exactly if the list shows both. -/
  encryption_iff : (o.finding = .encryptionSignalDetected ∧ o.verdict = .pass) ↔
    ShowWriting o.matched ∧ ShowEncryption o.matched
  /-- Writing was found without encryption exactly if the list shows only that. -/
  diskWrite_iff : (o.finding = .diskWriteDetected ∧ o.verdict = .fail) ↔
    ShowWriting o.matched ∧ ¬ ShowEncryption o.matched

/-- **An outcome that refuses to look**, for there is no text. -/
structure Refuses (o : FileOutcome) : Prop where
  /-- The file fails. -/
  verdict_eq : o.verdict = .fail
  /-- It fails because it could not be decoded. -/
  finding_eq : o.finding = .decodeFailure
  /-- Nothing was looked for in it. -/
  matched_eq : o.matched = []

/-- **An outcome that is justified by a file.** -/
structure JustifiedBy (o : FileOutcome) (file : SourceFile) : Prop where
  /-- It is the outcome of this file. -/
  path_eq : o.path = file.path
  /-- It is the outcome of these bytes. -/
  sha256_eq : o.sha256 = some file.sha256
  /-- Without a text there is nothing to weigh. -/
  refuses : file.content = .undecodable → o.Refuses
  /-- A text is weighed. -/
  weighs : ∀ text, file.content = .text text → o.Weighs text.toList
  /-- A reason is given exactly for a failure. -/
  isSome_reason_iff : o.reason.isSome ↔ o.verdict = .fail
  /-- The reason is that of the finding. -/
  reason_eq : o.reason = o.finding.reason

end FileOutcome

/-- What the decision table makes of evidence can be drawn from the list of its signals. -/
theorem weighs_ofFinding (file : SourceFile) {e : Evidence} {text : List Char}
    (hmem : ∀ s : Signal, s ∈ e.matched ↔ s.pattern.Occurs text) :
    (FileOutcome.ofFinding file (.ofEvidence e) e.matched).Weighs text := by
  -- the verdict says no more than the finding
  have hfinding (f : Finding) :
      (Finding.ofEvidence e = f ∧ (Finding.ofEvidence e).verdict = f.verdict) ↔
        Finding.ofEvidence e = f :=
    and_iff_left_of_imp (congrArg Finding.verdict)
  refine ⟨e.pairwise_matched, hmem, (hfinding .noSignal).trans ?_,
    (hfinding .encryptionSignalDetected).trans ?_, (hfinding .diskWriteDetected).trans ?_⟩
  · show _ ↔ ¬ ShowWriting e.matched
    rw [Finding.ofEvidence_eq_noSignal_iff, e.showWriting_matched_iff, Bool.not_eq_true]
  · show _ ↔ ShowWriting e.matched ∧ ShowEncryption e.matched
    rw [Finding.ofEvidence_eq_encryptionSignalDetected_iff, e.showWriting_matched_iff,
      e.showEncryption_matched_iff]
  · show _ ↔ ShowWriting e.matched ∧ ¬ ShowEncryption e.matched
    rw [Finding.ofEvidence_eq_diskWriteDetected_iff, e.showWriting_matched_iff,
      e.showEncryption_matched_iff, Bool.not_eq_true]

/-- **Every outcome is justified by its file.** -/
theorem justifiedBy_evaluate (file : SourceFile) : file.evaluate.JustifiedBy file := by
  have hevaluate := evaluate_eq_ofFinding file
  refine ⟨path_evaluate file, ?_, fun h => ?_, fun text h => ?_, ?_, ?_⟩
  · rw [hevaluate]
    rfl
  · rw [SourceFile.evaluate, h]
    exact ⟨rfl, rfl, rfl⟩
  · rw [SourceFile.evaluate, h]
    exact weighs_ofFinding file fun s => Evidence.mem_matched_ofText_iff
  · rw [hevaluate]
    exact Finding.isSome_reason_iff _
  · rw [hevaluate]
    rfl

/-! ## Reports -/

section Reports

variable {world : Snapshot} {paths : List String} {tool : Tool} {jobs : Nat}
  {schedule : Schedule} {report : Report} {outcome : FileOutcome}

/-- The outcomes of a report are those of its targets. -/
theorem exists_target_of_mem_files (h : gate world paths tool jobs schedule = .ok report)
    (houtcome : outcome ∈ report.files) :
    ∃ path ∈ paths, world.isTarget path = true
      ∧ ∃ bytes, world.contents path = .ok bytes
        ∧ outcome = (SourceFile.ofBytes path bytes).evaluate := by
  obtain ⟨outcomes, houtcomes, rfl⟩ := gate_eq_ok_iff.1 h
  have hmem : .ok outcome ∈ (paths.filter world.isTarget).map world.inspect := by
    rw [houtcomes]
    exact List.mem_map_of_mem houtcome
  obtain ⟨path, hpath, hinspect⟩ := List.mem_map.1 hmem
  obtain ⟨hgiven, htarget⟩ := List.mem_filter.1 hpath
  exact ⟨path, hgiven, htarget, Snapshot.inspect_eq_ok_iff.1 hinspect⟩

theorem mem_files_of_mem_failures (h : gate world paths tool jobs schedule = .ok report)
    (houtcome : outcome ∈ report.verdict.failures) : outcome ∈ report.files := by
  obtain ⟨outcomes, -, rfl⟩ := gate_eq_ok_iff.1 h
  exact (List.mem_filter.1 houtcome).1

end Reports

/-- **A report justifies itself.** The outcome of a file, whichever it is, is filed under its
path and fingerprint. A file without a text fails for that, with no signals listed. For a
text the list holds the signals that occur in it and no others, in the order of the catalog;
and finding and verdict are what the list shows: no writing, writing with accepted
encryption, or writing without. A reason is given exactly for a failure, and it is that of
the finding. In the report of a run, whatever the files and the schedule, every outcome
is justified like this by the bytes of one of its targets, and so is every failure. -/
theorem reports_justify_themselves :
    (∀ file : SourceFile, file.evaluate.JustifiedBy file)
      ∧ ∀ (world : Snapshot) (paths : List String) (tool : Tool) (jobs : Nat)
        (schedule : Schedule) (report : Report),
        gate world paths tool jobs schedule = .ok report →
        ∀ outcome, outcome ∈ report.files ∨ outcome ∈ report.verdict.failures →
          ∃ path ∈ paths, ∃ bytes, world.isTarget path = true
            ∧ world.contents path = .ok bytes
            ∧ outcome.JustifiedBy (SourceFile.ofBytes path bytes) := by
  refine ⟨justifiedBy_evaluate, ?_⟩
  intro world paths tool jobs schedule report h outcome houtcome
  have hfile : outcome ∈ report.files := houtcome.elim id (mem_files_of_mem_failures h)
  obtain ⟨path, hpath, htarget, bytes, hbytes, rfl⟩ := exists_target_of_mem_files h hfile
  exact ⟨path, hpath, bytes, htarget, hbytes, justifiedBy_evaluate _⟩

/-- Two workers, a path that is skipped, and one that leads to a text that writes. -/
theorem reports_justify_themselves_writing :
    let world : Snapshot :=
      { pathExists := fun _ => true, contents := fun _ => .ok "f.write(x)".toUTF8 }
    ∃ report, gate world ["b.txt", "a.py"] ⟨"t", "1"⟩ 2 [1, 0] = .ok report
      ∧ ∃ outcome ∈ report.files, outcome.matched = [.diskWriteCall]
        ∧ outcome.JustifiedBy (SourceFile.ofBytes "a.py" "f.write(x)".toUTF8) := by
  intro world
  let outcome := (SourceFile.ofBytes "a.py" "f.write(x)".toUTF8).evaluate
  have htargets : ["b.txt", "a.py"].filter world.isTarget = ["a.py"] := by decide +kernel
  have hreport : gate world ["b.txt", "a.py"] ⟨"t", "1"⟩ 2 [1, 0]
      = .ok (Report.ofOutcomes ⟨"t", "1"⟩ [outcome]) :=
    gate_eq_ok_iff.2 ⟨[outcome], by rw [htargets]; rfl, rfl⟩
  have hmem : outcome ∈ (Report.ofOutcomes ⟨"t", "1"⟩ [outcome]).files :=
    List.mem_singleton_self _
  obtain ⟨path, -, bytes, -, hbytes, hjustified⟩ :=
    reports_justify_themselves.2 world _ _ _ _ _ hreport outcome (.inl hmem)
  refine ⟨_, hreport, outcome, hmem, by decide +kernel, ?_⟩
  obtain rfl : path = "a.py" := hjustified.path_eq.symm
  obtain rfl := Except.ok.inj hbytes
  exact hjustified

end WriteGate
