import WriteGate.Pattern.Basic

/-!
# The edges of a match

What can be told of the edges of a match from the pattern alone: whether it can
be empty, which characters can stand first and last in it, and whether it can
only begin a line. The answers are computed from the pattern, and each of them
errs on one side only. They may allow an edge that no match has, since the two
assertions about the surroundings are taken to be able to hold anywhere, but an
edge that they exclude does not occur.
-/

namespace WriteGate.Pattern

/-- Whether a pattern may match the empty piece. -/
def mayBeEmpty : Pattern → Bool
  | empty => true
  | one _ => false
  | run _ => true
  | andThen first second => first.mayBeEmpty && second.mayBeEmpty
  | either first second => first.mayBeEmpty || second.mayBeEmpty
  | lineStart => true
  | wordBoundary => true

/-- Whether a pattern may match a piece that begins with a character. -/
def mayBegin (c : Char) : Pattern → Bool
  | empty => false
  | one accepts => accepts c
  | run accepts => accepts c
  | andThen first second => first.mayBegin c || (first.mayBeEmpty && second.mayBegin c)
  | either first second => first.mayBegin c || second.mayBegin c
  | lineStart => false
  | wordBoundary => false

/-- Whether a pattern may match a piece that ends with a character. -/
def mayEnd (c : Char) : Pattern → Bool
  | empty => false
  | one accepts => accepts c
  | run accepts => accepts c
  | andThen first second => second.mayEnd c || (second.mayBeEmpty && first.mayEnd c)
  | either first second => first.mayEnd c || second.mayEnd c
  | lineStart => false
  | wordBoundary => false

/-- Whether a pattern matches nothing but at the beginning of a line. -/
def anchored : Pattern → Bool
  | empty => false
  | one _ => false
  | run _ => false
  | andThen first _ => first.anchored
  | either first second => first.anchored && second.anchored
  | lineStart => true
  | wordBoundary => false

variable {p : Pattern} {before piece after : List Char} {c : Char}

/-- **An empty match is foreseen.** -/
theorem mayBeEmpty_of_matches (h : p.Matches before [] after) : p.mayBeEmpty = true := by
  induction p generalizing before after with
  | empty => rfl
  | one accepts =>
    obtain ⟨d, hd, -⟩ := h
    cases hd
  | run accepts => rfl
  | andThen first second ih₁ ih₂ =>
    obtain ⟨left, right, hpiece, hfirst, hsecond⟩ := h
    obtain ⟨rfl, rfl⟩ := List.append_eq_nil_iff.1 hpiece.symm
    exact (Bool.and_eq_true _ _).mpr ⟨ih₁ hfirst, ih₂ hsecond⟩
  | either first second ih₁ ih₂ =>
    exact (Bool.or_eq_true _ _).mpr (h.imp ih₁ ih₂)
  | lineStart => rfl
  | wordBoundary => rfl

/-- **The first character of a match is foreseen.** -/
theorem mayBegin_of_matches (h : p.Matches before (c :: piece) after) :
    p.mayBegin c = true := by
  induction p generalizing before piece after with
  | empty => cases h
  | one accepts =>
    obtain ⟨d, hd, haccepts⟩ := h
    cases hd
    exact haccepts
  | run accepts => exact h c (List.mem_cons_self ..)
  | andThen first second ih₁ ih₂ =>
    obtain ⟨left, right, hpiece, hfirst, hsecond⟩ := h
    rw [mayBegin, Bool.or_eq_true, Bool.and_eq_true]
    rcases List.append_eq_cons_iff.1 hpiece.symm with ⟨rfl, rfl⟩ | ⟨rest, rfl, -⟩
    · exact .inr ⟨mayBeEmpty_of_matches hfirst, ih₂ hsecond⟩
    · exact .inl (ih₁ hfirst)
  | either first second ih₁ ih₂ =>
    exact (Bool.or_eq_true _ _).mpr (h.imp ih₁ ih₂)
  | lineStart => cases h.1
  | wordBoundary => cases h.1

/-- **The last character of a match is foreseen.** -/
theorem mayEnd_of_matches (h : p.Matches before (piece ++ [c]) after) : p.mayEnd c = true := by
  induction p generalizing before piece after with
  | empty => exact absurd h (List.append_ne_nil_of_right_ne_nil _ (List.cons_ne_nil _ _))
  | one accepts =>
    obtain ⟨d, hd, haccepts⟩ := h
    have hlast : piece ++ [c] = [] ++ [d] := hd
    obtain rfl : c = d := List.singleton_inj.1 (List.append_inj_right' hlast rfl)
    exact haccepts
  | run accepts => exact h c (List.mem_append_right _ (List.mem_singleton_self c))
  | andThen first second ih₁ ih₂ =>
    obtain ⟨left, right, hpiece, hfirst, hsecond⟩ := h
    rw [mayEnd, Bool.or_eq_true, Bool.and_eq_true]
    rcases List.eq_nil_or_concat right with rfl | ⟨init, d, rfl⟩
    · rw [List.append_nil] at hpiece
      subst hpiece
      exact .inr ⟨mayBeEmpty_of_matches hsecond, ih₁ hfirst⟩
    · rw [List.concat_eq_append, ← List.append_assoc] at hpiece
      obtain rfl : c = d := by simpa using (List.append_inj' hpiece rfl).2
      rw [List.concat_eq_append] at hsecond
      exact .inl (ih₂ hsecond)
  | either first second ih₁ ih₂ =>
    exact (Bool.or_eq_true _ _).mpr (h.imp ih₁ ih₂)
  | lineStart =>
    exact absurd h.1 (List.append_ne_nil_of_right_ne_nil _ (List.cons_ne_nil _ _))
  | wordBoundary =>
    exact absurd h.1 (List.append_ne_nil_of_right_ne_nil _ (List.cons_ne_nil _ _))

/-- **An anchored match begins a line.** -/
theorem lineStart_of_anchored (hp : p.anchored = true) (h : p.Matches before piece after) :
    before = [] ∨ before.getLast? = some '\n' := by
  induction p generalizing before piece after with
  | empty => cases hp
  | one accepts => cases hp
  | run accepts => cases hp
  | andThen first second ih₁ ih₂ =>
    obtain ⟨left, right, -, hfirst, -⟩ := h
    exact ih₁ hp hfirst
  | either first second ih₁ ih₂ =>
    obtain ⟨hp₁, hp₂⟩ := (Bool.and_eq_true _ _).mp hp
    exact h.elim (ih₁ hp₁) (ih₂ hp₂)
  | lineStart => exact h.2
  | wordBoundary => cases hp

end WriteGate.Pattern
