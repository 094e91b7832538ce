import WriteGate.Outcome

/-!
# The policy

What it takes for a text to fail, said of occurrences of patterns and not of the
evidence that a search collects for them. The decision table asks its questions
in an order; here they are one condition, and the order is gone.
-/

namespace WriteGate

/-- **A text breaks the policy** when it carries a trace of writing and no accepted
encryption: neither an approved wrapper, nor a call that encrypts together with a
reference to cryptography. -/
def BreaksPolicy (text : List Char) : Prop :=
  (Signal.diskWriteOpen.pattern.Occurs text ∨ Signal.diskWriteCall.pattern.Occurs text)
    ∧ ¬ Signal.safeWrapper.pattern.Occurs text
    ∧ ¬ (Signal.encryptCall.pattern.Occurs text
      ∧ (Signal.cryptoImport.pattern.Occurs text
        ∨ Signal.cipherIdentifier.pattern.Occurs text))

theorem Verdict.ne_fail_iff {v : Verdict} : v ≠ .fail ↔ v = .pass := by
  cases v <;> decide

theorem Verdict.ne_pass_iff {v : Verdict} : v ≠ .pass ↔ v = .fail := by
  cases v <;> decide

/-- Failing evidence is what breaks the policy. -/
theorem verdict_ofEvidence_eq_fail_iff (text : String) :
    (Finding.ofEvidence (Evidence.ofText text)).verdict = .fail ↔
      BreaksPolicy text.toList := by
  -- two findings fail, and one of them is not about evidence
  have hfail : ∀ f : Finding, f ≠ .decodeFailure →
      (f.verdict = .fail ↔ f = .diskWriteDetected) := by
    intro f hf
    cases f <;> simp_all [Finding.verdict]
  have hne : Finding.ofEvidence (Evidence.ofText text) ≠ .decodeFailure := by
    unfold Finding.ofEvidence
    split
    · simp
    · split <;> simp
  rw [hfail _ hne, Finding.ofEvidence_eq_diskWriteDetected_iff]
  unfold BreaksPolicy
  -- occurrences are the answers of the search, and the rest is about six answers
  simp only [← Signal.carriedBy_iff]
  simp only [Evidence.ofText, Evidence.ofSignals, WriteEvidence.any,
    EncryptionEvidence.accepted, EncryptionEvidence.cryptoUsage,
    EncryptionEvidence.approvedWrapper, Bool.or_eq_true, Bool.or_eq_false_iff,
    Bool.and_eq_false_iff]
  grind

/-- **A file with a text fails exactly when the text breaks the policy.** -/
theorem verdict_evaluate_text_eq_fail_iff {file : SourceFile} {text : String}
    (h : file.content = .text text) :
    file.evaluate.verdict = .fail ↔ BreaksPolicy text.toList := by
  rw [SourceFile.evaluate, h]
  dsimp only [FileOutcome.ofFinding]
  rw [verdict_ofEvidence_eq_fail_iff]

end WriteGate
