import WriteGate.Pattern.Basic

/-!
# Matches in other surroundings

A match stands between the text before it and the text behind it, and most
patterns do not look there. Those that do ask two things only: whether a line
begins, and whether a word is parted from what is no word. So a match is kept
under every change of its surroundings that keeps the answers, and adding lines
is such a change, whatever stands on them. A line feed begins a line, where the
beginning of the text did so before, and like the end of the text it is no part
of a word.
-/

namespace WriteGate.Pattern

/-! ## Patterns that do not look around -/

/-- Whether a pattern asks nothing of its surroundings. -/
def freestanding : Pattern → Bool
  | empty => true
  | one _ => true
  | run _ => true
  | andThen first second => first.freestanding && second.freestanding
  | either first second => first.freestanding && second.freestanding
  | lineStart => false
  | wordBoundary => false

/-- **A free-standing match is one between any texts.** -/
theorem matches_of_freestanding {p : Pattern} (hp : p.freestanding = true)
    {before piece after : List Char} (h : p.Matches before piece after)
    (before' after' : List Char) : p.Matches before' piece after' := by
  induction p generalizing before piece after before' after' with
  | empty => exact h
  | one accepts => exact h
  | run accepts => exact h
  | andThen first second ih₁ ih₂ =>
    obtain ⟨hp₁, hp₂⟩ := (Bool.and_eq_true _ _).mp hp
    obtain ⟨left, right, rfl, hfirst, hsecond⟩ := h
    exact ⟨left, right, rfl, ih₁ hp₁ hfirst before' (right ++ after'),
      ih₂ hp₂ hsecond (before' ++ left) after'⟩
  | either first second ih₁ ih₂ =>
    obtain ⟨hp₁, hp₂⟩ := (Bool.and_eq_true _ _).mp hp
    exact h.imp (ih₁ hp₁ · before' after') (ih₂ hp₂ · before' after')
  | lineStart => cases hp
  | wordBoundary => cases hp

/-- An occurrence of a free-standing pattern is kept whatever is added. -/
theorem occurs_of_freestanding {p : Pattern} (hp : p.freestanding = true) {text : List Char}
    (h : p.Occurs text) (front back : List Char) : p.Occurs (front ++ text ++ back) := by
  obtain ⟨before, piece, after, rfl, hmatches⟩ := h
  refine ⟨front ++ before, piece, after ++ back, ?_, matches_of_freestanding hp hmatches _ _⟩
  simp only [List.append_assoc]

/-! ## Surroundings that answer alike -/

/-- **What a change in front of a match must keep**: where a line begins one still begins,
and a word ends where one ended. -/
structure KeepsFront (before before' : List Char) : Prop where
  /-- What follows still begins a line if it did. -/
  line : before = [] ∨ before.getLast? = some '\n' → before' = [] ∨ before'.getLast? = some '\n'
  /-- The last neighbour is a word character as before. -/
  word : EndsInWord before' ↔ EndsInWord before

/-- What is kept in front of a piece is kept behind it. -/
theorem KeepsFront.append {before before' : List Char} (h : KeepsFront before before')
    (piece : List Char) : KeepsFront (before ++ piece) (before' ++ piece) := by
  rcases List.eq_nil_or_concat piece with rfl | ⟨init, c, rfl⟩
  · rwa [List.append_nil, List.append_nil]
  · -- the last neighbour is that of the piece
    have hlast : ∀ front : List Char, (front ++ init.concat c).getLast? = some c := by
      intro front
      rw [List.concat_eq_append, ← List.append_assoc, List.getLast?_concat]
    refine ⟨?_, ?_⟩
    · rw [hlast, hlast]
      exact fun hline => .inr (hline.resolve_left (by simp))
    · rw [EndsInWord, EndsInWord, hlast, hlast]

theorem beginsWithWord_append {after after' : List Char}
    (h : BeginsWithWord after' ↔ BeginsWithWord after) (piece : List Char) :
    BeginsWithWord (piece ++ after') ↔ BeginsWithWord (piece ++ after) := by
  cases piece with
  | nil => exact h
  | cons c piece => exact Iff.rfl

/-- **A match is kept where the surroundings answer as before.** -/
theorem matches_of_keepsFront {p : Pattern} {before before' piece after after' : List Char}
    (hfront : KeepsFront before before') (hbehind : BeginsWithWord after' ↔ BeginsWithWord after)
    (h : p.Matches before piece after) : p.Matches before' piece after' := by
  induction p generalizing before before' piece after after' with
  | empty => exact h
  | one accepts => exact h
  | run accepts => exact h
  | andThen first second ih₁ ih₂ =>
    obtain ⟨left, right, rfl, hfirst, hsecond⟩ := h
    exact ⟨left, right, rfl, ih₁ hfront (beginsWithWord_append hbehind right) hfirst,
      ih₂ (hfront.append left) hbehind hsecond⟩
  | either first second ih₁ ih₂ =>
    exact h.imp (ih₁ hfront hbehind) (ih₂ hfront hbehind)
  | lineStart => exact ⟨h.1, hfront.line h.2⟩
  | wordBoundary =>
    refine ⟨h.1, ?_⟩
    rw [hfront.word, hbehind]
    exact h.2

/-! ## Lines added -/

theorem isWord_feed_eq_false : Text.isWord '\n' = false := by decide

theorem keepsFront_lines (front before : List Char) :
    KeepsFront before (front ++ '\n' :: before) := by
  cases before with
  | nil =>
    have hlast : (front ++ ['\n']).getLast? = some '\n' := List.getLast?_concat
    refine ⟨fun _ => .inr hlast, ?_⟩
    rw [EndsInWord, EndsInWord, hlast]
    simp [isWord_feed_eq_false]
  | cons c before =>
    have hlast : (front ++ '\n' :: c :: before).getLast? = (c :: before).getLast? := by
      simp [List.getLast?_append, List.getLast?_cons]
    refine ⟨fun hline => .inr ?_, ?_⟩
    · rw [hlast]
      exact hline.resolve_left (List.cons_ne_nil c before)
    · rw [EndsInWord, EndsInWord, hlast]

theorem keepsFront_of_lines (front before : List Char) :
    KeepsFront (front ++ '\n' :: before) before := by
  have hlines := keepsFront_lines front before
  refine ⟨fun hline => ?_, hlines.word.symm⟩
  cases before with
  | nil => exact .inl rfl
  | cons c before =>
    have hlast : (front ++ '\n' :: c :: before).getLast? = (c :: before).getLast? := by
      simp [List.getLast?_append, List.getLast?_cons]
    rw [hlast] at hline
    exact .inr (hline.resolve_left (by simp))

/-- Lines behind a text keep what is asked of the text behind a match. -/
theorem beginsWithWord_lines (after back : List Char) :
    BeginsWithWord (after ++ '\n' :: back) ↔ BeginsWithWord after := by
  cases after with
  | nil => simp [BeginsWithWord, isWord_feed_eq_false]
  | cons c after => exact Iff.rfl

/-- **An occurrence is kept when lines are added in front.** -/
theorem occurs_of_lines_before {p : Pattern} {text : List Char} (h : p.Occurs text)
    (front : List Char) : p.Occurs (front ++ '\n' :: text) := by
  obtain ⟨before, piece, after, rfl, hmatches⟩ := h
  refine ⟨front ++ '\n' :: before, piece, after, ?_, ?_⟩
  · simp only [List.append_assoc, List.cons_append]
  · exact matches_of_keepsFront (keepsFront_lines front before) Iff.rfl hmatches

/-- **An occurrence is kept when lines are added behind.** -/
theorem occurs_of_lines_behind {p : Pattern} {text : List Char} (h : p.Occurs text)
    (back : List Char) : p.Occurs (text ++ '\n' :: back) := by
  obtain ⟨before, piece, after, rfl, hmatches⟩ := h
  refine ⟨before, piece, after ++ '\n' :: back, ?_, ?_⟩
  · simp only [List.append_assoc]
  · exact matches_of_keepsFront ⟨id, Iff.rfl⟩ (beginsWithWord_lines after back) hmatches

/-! ## Patterns that stay on a line -/

/-- Whether a pattern matches no line feed. -/
def staysOnLine : Pattern → Bool
  | empty => true
  | one accepts => !accepts '\n'
  | run accepts => !accepts '\n'
  | andThen first second => first.staysOnLine && second.staysOnLine
  | either first second => first.staysOnLine && second.staysOnLine
  | lineStart => true
  | wordBoundary => true

/-- **What such a pattern matches is on one line.** -/
theorem feed_not_mem_of_matches {p : Pattern} (hp : p.staysOnLine = true)
    {before piece after : List Char} (h : p.Matches before piece after) : '\n' ∉ piece := by
  induction p generalizing before piece after with
  | empty =>
    obtain rfl : piece = [] := h
    exact List.not_mem_nil
  | one accepts =>
    obtain ⟨c, rfl, hc⟩ := h
    rw [staysOnLine, Bool.not_eq_true'] at hp
    intro hmem
    rw [← List.mem_singleton.1 hmem, hp] at hc
    cases hc
  | run accepts =>
    intro hmem
    have hfeed := h '\n' hmem
    rw [staysOnLine, Bool.not_eq_true', hfeed] at hp
    cases hp
  | andThen first second ih₁ ih₂ =>
    obtain ⟨hp₁, hp₂⟩ := (Bool.and_eq_true _ _).mp hp
    obtain ⟨left, right, rfl, hfirst, hsecond⟩ := h
    rw [List.mem_append, not_or]
    exact ⟨ih₁ hp₁ hfirst, ih₂ hp₂ hsecond⟩
  | either first second ih₁ ih₂ =>
    obtain ⟨hp₁, hp₂⟩ := (Bool.and_eq_true _ _).mp hp
    exact h.elim (ih₁ hp₁) (ih₂ hp₂)
  | lineStart =>
    rw [h.1]
    exact List.not_mem_nil
  | wordBoundary =>
    rw [h.1]
    exact List.not_mem_nil

/-- A piece without a line feed stands behind a given line feed or in front of it. -/
theorem exists_of_feed_not_mem {front back before piece after : List Char} (hfeed : '\n' ∉ piece)
    (h : front ++ '\n' :: back = before ++ piece ++ after) :
    (∃ z, before = front ++ '\n' :: z ∧ back = z ++ piece ++ after)
      ∨ ∃ z, front = before ++ piece ++ z ∧ after = z ++ '\n' :: back := by
  rcases List.append_eq_append_iff.1 h with ⟨z, hpiece, hback⟩ | ⟨z, hfront, hafter⟩
  · cases z with
    | nil =>
      rw [List.append_nil] at hpiece
      exact .inr ⟨[], by rw [List.append_nil, hpiece], hback.symm⟩
    | cons c z =>
      obtain ⟨rfl, rfl⟩ := List.cons_eq_cons.1 hback
      -- the line feed is not in the piece, so it is in front of it
      rcases List.append_eq_append_iff.1 hpiece with ⟨y, -, rfl⟩ | ⟨y, rfl, hz⟩
      · exact absurd (List.mem_append_right y (List.mem_cons_self ..)) hfeed
      · rcases List.append_eq_cons_iff.1 hz.symm with ⟨-, rfl⟩ | ⟨y, rfl, rfl⟩
        · exact absurd (List.mem_cons_self ..) hfeed
        · exact .inl ⟨y, rfl, rfl⟩
  · exact .inr ⟨z, hfront, hafter⟩

/-- **A pattern that stays on a line occurs in lines put together** exactly when it occurs in
some of them. -/
theorem occurs_lines_iff {p : Pattern} (hp : p.staysOnLine = true) {front back : List Char} :
    p.Occurs (front ++ '\n' :: back) ↔ p.Occurs front ∨ p.Occurs back := by
  constructor
  · rintro ⟨before, piece, after, htext, hmatches⟩
    have hfeed := feed_not_mem_of_matches hp hmatches
    rcases exists_of_feed_not_mem hfeed htext with ⟨z, rfl, rfl⟩ | ⟨z, rfl, rfl⟩
    · exact .inr ⟨z, piece, after, rfl,
        matches_of_keepsFront (keepsFront_of_lines front z) Iff.rfl hmatches⟩
    · exact .inl ⟨before, piece, z, rfl,
        matches_of_keepsFront ⟨id, Iff.rfl⟩ (beginsWithWord_lines z back).symm hmatches⟩
  · rintro (hfront | hback)
    · exact occurs_of_lines_behind hfront back
    · exact occurs_of_lines_before hback front

end WriteGate.Pattern
