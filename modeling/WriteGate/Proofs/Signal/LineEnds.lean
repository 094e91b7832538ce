import WriteGate.Proofs.Pattern.LineEnds
import WriteGate.Proofs.Policy

/-!
# Signals and line ends

Text is brought to line feeds before signals are looked for. This changes what
is found, but never to the disadvantage of a file. Four of the signals do not
notice it. A mode that is spread over a lone carriage return is no longer on one
line, so a trace of writing may be lost; an import behind a lone carriage return
begins a line, so a trace of encryption may be gained. Nothing is lost or gained
the other way round.
-/

namespace WriteGate

open Pattern

namespace Signal

/-- All signals but the import carry back from the normal form. -/
theorem carriesBack_pattern {s : Signal} (h : s ≠ .cryptoImport) :
    s.pattern.carriesBack = true := by
  cases s with
  | cryptoImport => exact absurd rfl h
  | _ => decide +kernel

/-- All signals but the opening for writing carry over to the normal form. -/
theorem carriesOver_pattern {s : Signal} (h : s ≠ .diskWriteOpen) :
    s.pattern.carriesOver = true := by
  cases s with
  | diskWriteOpen => exact absurd rfl h
  | _ => decide +kernel

/-- No match of a signal parts a pair from its surroundings. -/
theorem edgesPartNoPair_pattern (s : Signal) : s.pattern.edgesPartNoPair = true := by
  cases s <;> decide +kernel

variable {s : Signal} {text : List Char}

theorem occurs_of_normalize (hs : s ≠ .cryptoImport)
    (h : s.pattern.Occurs (Text.normalize text)) : s.pattern.Occurs text :=
  occurs_of_carriesBack (carriesBack_pattern hs) (Text.readsAs_normalize text) h

theorem occurs_normalize (hs : s ≠ .diskWriteOpen) (h : s.pattern.Occurs text) :
    s.pattern.Occurs (Text.normalize text) :=
  occurs_of_carriesOver (carriesOver_pattern hs) (edgesPartNoPair_pattern s)
    (Text.readsAs_normalize text) h

/-- A lone carriage return in a mode is taken for a character of the mode, but the line
feed that replaces it is not. -/
example : diskWriteOpen.carriedBy "open(f,'\rw')" = true
    ∧ diskWriteOpen.carriedBy "open(f,'\nw')" = false := by
  decide +kernel

end Signal

/-- **Normal form breaks the policy only where the text does.** -/
theorem breaksPolicy_of_normalize {text : List Char}
    (h : BreaksPolicy (Text.normalize text)) : BreaksPolicy text := by
  -- writing is carried back to the text, encryption over to the normal form
  obtain ⟨hwrite, hwrapper, husage⟩ := h
  refine ⟨?_, fun hsafe => hwrapper ?_, fun hcrypto => husage ⟨?_, ?_⟩⟩
  · exact hwrite.imp (Signal.occurs_of_normalize (by decide))
      (Signal.occurs_of_normalize (by decide))
  · exact Signal.occurs_normalize (by decide) hsafe
  · exact Signal.occurs_normalize (by decide) hcrypto.1
  · exact hcrypto.2.imp (Signal.occurs_normalize (by decide))
      (Signal.occurs_normalize (by decide))

/-- **Normalising line ends never makes the gate stricter.** Four signals are the same in
a text and in its normal form. An opening for writing is in the text if it is in the
normal form, and an import is in the normal form if it is in the text. So a file that
passes with the text passes with the normal form, and where the verdicts differ, the
text fails and the normal form passes. -/
theorem normalize_never_stricter (file : SourceFile) (text : String) :
    let normal := String.ofList (Text.normalize text.toList)
    (∀ s ∈ [Signal.diskWriteCall, .cipherIdentifier, .encryptCall, .safeWrapper],
        s.carriedBy text = s.carriedBy normal)
      ∧ (Signal.diskWriteOpen.carriedBy normal = true →
        Signal.diskWriteOpen.carriedBy text = true)
      ∧ (Signal.cryptoImport.carriedBy text = true →
        Signal.cryptoImport.carriedBy normal = true)
      ∧ (({ file with content := .text text } : SourceFile).evaluate.verdict = .pass →
        ({ file with content := .text normal } : SourceFile).evaluate.verdict = .pass)
      ∧ (({ file with content := .text text } : SourceFile).evaluate.verdict
          ≠ ({ file with content := .text normal } : SourceFile).evaluate.verdict →
        ({ file with content := .text text } : SourceFile).evaluate.verdict = .fail
          ∧ ({ file with content := .text normal } : SourceFile).evaluate.verdict = .pass) := by
  intro normal
  have hnormal : normal.toList = Text.normalize text.toList := String.toList_ofList
  have hback : ∀ s : Signal, s ≠ .cryptoImport →
      s.carriedBy normal = true → s.carriedBy text = true := by
    intro s hs h
    rw [Signal.carriedBy_iff, hnormal] at h
    exact (Signal.carriedBy_iff s text).2 (Signal.occurs_of_normalize hs h)
  have hover : ∀ s : Signal, s ≠ .diskWriteOpen →
      s.carriedBy text = true → s.carriedBy normal = true := by
    intro s hs h
    rw [Signal.carriedBy_iff, hnormal]
    exact Signal.occurs_normalize hs ((Signal.carriedBy_iff s text).1 h)
  have hfail : ({ file with content := .text normal } : SourceFile).evaluate.verdict = .fail →
      ({ file with content := .text text } : SourceFile).evaluate.verdict = .fail := by
    rw [verdict_evaluate_text_eq_fail_iff rfl, verdict_evaluate_text_eq_fail_iff rfl, hnormal]
    exact breaksPolicy_of_normalize
  refine ⟨?_, hback _ (by decide), hover _ (by decide), ?_, ?_⟩
  · intro s hs
    have hsides : s ≠ .cryptoImport ∧ s ≠ .diskWriteOpen := by
      revert hs
      cases s <;> decide
    exact Bool.eq_iff_iff.2 ⟨hover s hsides.2, hback s hsides.1⟩
  · intro hpass
    refine Verdict.ne_fail_iff.1 (fun hnormal => ?_)
    rw [hfail hnormal] at hpass
    cases hpass
  · intro hne
    have hpass : ({ file with content := .text normal } : SourceFile).evaluate.verdict = .pass :=
      Verdict.ne_fail_iff.1 (fun hnormal => hne ((hfail hnormal).trans hnormal.symm))
    rw [hpass] at hne
    exact ⟨Verdict.ne_pass_iff.1 hne, hpass⟩

end WriteGate
