import Mathlib.Data.List.Basic
import WriteGate.Outcome
import WriteGate.Proofs.Pattern.Surroundings

/-!
# Signals under added lines

Whatever is written around a text, the signals in it stay. A write in a comment
or in a branch that is never taken is found there as anywhere else, and no
preamble hides it. Three of the signals do not even need lines of their own:
they are kept when text is added directly in front of them and behind. The other
three ask for the beginning of a line or for the edge of a word, and added lines
leave both in place.

So evidence only grows, and accepted encryption is never lost. What may change
is the finding of a text without it: the added lines may write, or encrypt.
-/

namespace WriteGate

open Pattern

/-! ## Evidence that grows -/

namespace Evidence

/-- **Evidence is ordered by inclusion** of its signals. -/
instance : LE Evidence where
  le e e' := ∀ s : Signal, e.holds s = true → e'.holds s = true

variable {e e' : Evidence}

theorem any_of_le (h : e ≤ e') (hany : e.write.any = true) : e'.write.any = true := by
  simp only [WriteEvidence.any, Bool.or_eq_true] at hany ⊢
  exact hany.imp (h .diskWriteOpen) (h .diskWriteCall)

theorem accepted_of_le (h : e ≤ e') (haccepted : e.encryption.accepted = true) :
    e'.encryption.accepted = true := by
  simp only [EncryptionEvidence.accepted, EncryptionEvidence.cryptoUsage,
    EncryptionEvidence.approvedWrapper, Bool.or_eq_true, Bool.and_eq_true] at haccepted ⊢
  refine haccepted.imp (And.imp (Or.imp ?_ ?_) ?_) ?_
  · exact h .cryptoImport
  · exact h .cipherIdentifier
  · exact h .encryptCall
  · exact h .safeWrapper

/-- **More evidence reports no fewer signals**, and in the same order. -/
theorem matched_sublist_of_le (h : e ≤ e') : e.matched.Sublist e'.matched :=
  List.monotone_filter_right Signal.all h

/-- Writing with accepted encryption is found again in more evidence. -/
theorem ofEvidence_of_le (h : e ≤ e')
    (hfinding : Finding.ofEvidence e = .encryptionSignalDetected) :
    Finding.ofEvidence e' = .encryptionSignalDetected := by
  rw [Finding.ofEvidence_eq_encryptionSignalDetected_iff] at hfinding ⊢
  exact ⟨any_of_le h hfinding.1, accepted_of_le h hfinding.2⟩

end Evidence

/-! ## Signals that stay -/

namespace Signal

/-- Three signals ask nothing of what stands around them. -/
theorem freestanding_pattern {s : Signal} (h : s ∈ [diskWriteOpen, diskWriteCall, encryptCall]) :
    s.pattern.freestanding = true := by
  revert h
  cases s <;> decide +kernel

variable {s : Signal} {text : String}

theorem carriedBy_of_freestanding (hs : s.pattern.freestanding = true)
    (h : s.carriedBy text = true) (front back : String) :
    s.carriedBy (front ++ text ++ back) = true := by
  rw [carriedBy_iff] at h ⊢
  rw [String.toList_append, String.toList_append]
  exact occurs_of_freestanding hs h front.toList back.toList

/-- **A signal is kept when lines are added in front.** -/
theorem carriedBy_of_lines_before (h : s.carriedBy text = true) (front : String) :
    s.carriedBy (front ++ "\n" ++ text) = true := by
  rw [carriedBy_iff] at h ⊢
  rw [String.toList_append, String.toList_append, List.append_assoc]
  exact occurs_of_lines_before h front.toList

/-- **A signal is kept when lines are added behind.** -/
theorem carriedBy_of_lines_behind (h : s.carriedBy text = true) (back : String) :
    s.carriedBy (text ++ "\n" ++ back) = true := by
  rw [carriedBy_iff] at h ⊢
  rw [String.toList_append, String.toList_append, List.append_assoc]
  exact occurs_of_lines_behind h back.toList

/-- An import is kept by lines only: what stands on the line in front of it hides it. -/
example : cryptoImport.carriedBy "import cryptography" = true
    ∧ cryptoImport.carriedBy "x = 1\nimport cryptography" = true
    ∧ cryptoImport.carriedBy "x = 1; import cryptography" = false := by
  decide +kernel

end Signal

/-- **Adding lines never hides a signal.** Three signals are kept by any text with any text
around it. Every signal is kept when lines are added in front, behind or both; so the
evidence grows, the reported signals are still reported and in the same order, and
writing with accepted encryption is found again and passes again. -/
theorem added_lines_hide_no_signal (file : SourceFile) (front text back : String) :
    (∀ s ∈ [Signal.diskWriteOpen, .diskWriteCall, .encryptCall],
        s.carriedBy text = true → s.carriedBy (front ++ text ++ back) = true)
      ∧ ∀ longer ∈ [front ++ "\n" ++ text ++ "\n" ++ back, front ++ "\n" ++ text,
          text ++ "\n" ++ back],
        let outcome := ({ file with content := .text text } : SourceFile).evaluate
        let outcome' := ({ file with content := .text longer } : SourceFile).evaluate
        (∀ s : Signal, s.carriedBy text = true → s.carriedBy longer = true)
          ∧ Evidence.ofText text ≤ Evidence.ofText longer
          ∧ outcome.matched.Sublist outcome'.matched
          ∧ (outcome.finding = .encryptionSignalDetected →
            outcome'.finding = .encryptionSignalDetected ∧ outcome'.verdict = .pass) := by
  refine ⟨fun s hs h =>
    Signal.carriedBy_of_freestanding (Signal.freestanding_pattern hs) h front back, ?_⟩
  intro longer hlonger outcome outcome'
  have hcarried : ∀ s : Signal, s.carriedBy text = true → s.carriedBy longer = true := by
    intro s h
    simp only [List.mem_cons, List.not_mem_nil, or_false] at hlonger
    rcases hlonger with rfl | rfl | rfl
    · exact Signal.carriedBy_of_lines_behind (Signal.carriedBy_of_lines_before h front) back
    · exact Signal.carriedBy_of_lines_before h front
    · exact Signal.carriedBy_of_lines_behind h back
  have hle : Evidence.ofText text ≤ Evidence.ofText longer := by
    intro s h
    rw [Evidence.ofText, Evidence.holds_ofSignals] at h ⊢
    exact hcarried s h
  have houtcome : outcome = .ofFinding _ (.ofEvidence (Evidence.ofText text))
      (Evidence.ofText text).matched := rfl
  have houtcome' : outcome' = .ofFinding _ (.ofEvidence (Evidence.ofText longer))
      (Evidence.ofText longer).matched := rfl
  rw [houtcome, houtcome']
  dsimp only [FileOutcome.ofFinding]
  refine ⟨hcarried, hle, Evidence.matched_sublist_of_le hle, fun hfinding => ?_⟩
  rw [Evidence.ofEvidence_of_le hle hfinding]
  exact ⟨rfl, rfl⟩

end WriteGate
