import WriteGate.Proofs.Run.Blame
import WriteGate.Proofs.Text.Lines

/-!
# What decoding forgets

Decoding keeps the lines of a file and forgets how they were ended. So the
convention that a file follows, or a mixture of conventions, has no influence on
its outcome: two files with the same lines get the same verdict for the same
reason, on the same evidence. Path and fingerprint may differ, and nothing else.
-/

namespace WriteGate

open Text

/-- **A file with the given lines is decoded to these lines**, each ended by a line
feed. -/
theorem Content.ofBytes_text (l : Lined) :
    Content.ofBytes l.text.utf8Encode = .text (String.ofList l.reading) := by
  rw [Content.ofBytes_utf8Encode, normalize_eq_readFeeds, l.readFeeds_text]

/-- What is decided on a file is decided by its content. -/
theorem evaluate_eq_of_content_eq {file file' : SourceFile} (h : file.content = file'.content) :
    file.evaluate = .ofFinding file file'.evaluate.finding file'.evaluate.matched := by
  rw [SourceFile.evaluate, SourceFile.evaluate, h]
  cases file'.content <;> dsimp only [FileOutcome.ofFinding]

theorem evaluate_eq_ofFinding (file : SourceFile) :
    file.evaluate = .ofFinding file file.evaluate.finding file.evaluate.matched :=
  evaluate_eq_of_content_eq rfl

/-- **The outcome does not depend on the convention for line ends.** A file is decoded to
its lines with line feeds, whatever ends them; every text has lines; the normal form is
the universal reading of line ends, has no carriage return in it and is its own normal
form. So two files with the same lines get the same verdict, reason and finding, and the
same signals are found in them. -/
theorem outcome_independent_of_line_ends :
    (∀ l : Lined, Content.ofBytes l.text.utf8Encode = .text (String.ofList l.reading))
      ∧ (∀ text : List Char, ∃ l : Lined, l.text = text)
      ∧ (∀ text : List Char, normalize text = readFeeds text ∧ '\r' ∉ normalize text
        ∧ normalize (normalize text) = normalize text)
      ∧ ∀ l l' : Lined, l.SameLines l' → ∀ path path' : String,
        let outcome := (SourceFile.ofBytes path l.text.utf8Encode).evaluate
        let outcome' := (SourceFile.ofBytes path' l'.text.utf8Encode).evaluate
        outcome.verdict = outcome'.verdict ∧ outcome.reason = outcome'.reason
          ∧ outcome.finding = outcome'.finding ∧ outcome.matched = outcome'.matched := by
  refine ⟨Content.ofBytes_text, Lined.exists_text_eq, fun text => ?_, ?_⟩
  · refine ⟨normalize_eq_readFeeds text, ?_, normalize_normalize text⟩
    rw [normalize_eq_readFeeds]
    exact return_not_mem_readFeeds text
  · intro l l' hsame path path' outcome outcome'
    have hcontent : (SourceFile.ofBytes path l.text.utf8Encode).content
        = (SourceFile.ofBytes path' l'.text.utf8Encode).content := by
      show Content.ofBytes _ = Content.ofBytes _
      rw [Content.ofBytes_text, Content.ofBytes_text, Lined.reading_eq_of_sameLines hsame]
    have houtcome : outcome = .ofFinding _ outcome'.finding outcome'.matched :=
      evaluate_eq_of_content_eq hcontent
    have houtcome' : outcome' = .ofFinding _ outcome'.finding outcome'.matched :=
      evaluate_eq_ofFinding _
    rw [houtcome, houtcome']
    dsimp only [FileOutcome.ofFinding]
    exact ⟨rfl, rfl, rfl, rfl⟩

end WriteGate
