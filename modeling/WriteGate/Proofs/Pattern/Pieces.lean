import WriteGate.Pattern.Basic

/-!
# What derived patterns match

The derived patterns are there to write a catalog with, and what they match can
be said without the primitive ones: a word up to case is matched by its letters
folded, a gap by white space. A sequence of patterns is matched piece by piece,
which is all that is left of `andThen`.

A pattern can say more than it has to. Two patterns are *equivalent* when they
match the same pieces in the same surroundings, and a part of a sequence may be
put in place of an equivalent one, so that what adds nothing can be taken out
before it is asked what the pattern means.
-/

namespace WriteGate

namespace Text

/-- **Letters that only ASCII characters fold to.** Two characters beyond ASCII are folded
to the other two letters. -/
def foldsPlainly (letter : Char) : Bool := letter ∉ ['s', 'k', '\u017F', '\u212A']

/-- Plain letters are folded to where they are lowered to. -/
theorem foldCase_eq_iff {c letter : Char} (h : foldsPlainly letter = true) :
    foldCase c = letter ↔ c.toLower = letter := by
  simp only [foldsPlainly, decide_eq_true_eq, List.mem_cons, List.not_mem_nil, or_false,
    not_or] at h
  obtain ⟨hs, hk, hlong, hkelvin⟩ := h
  unfold foldCase
  split
  · next hc =>
    subst hc
    exact iff_of_false (fun h => hs h.symm) (fun h => hlong h.symm)
  · split
    · next hc =>
      subst hc
      exact iff_of_false (fun h => hk h.symm) (fun h => hkelvin h.symm)
    · exact Iff.rfl

theorem foldCase_mem_iff {c : Char} {letters : List Char}
    (h : letters.all foldsPlainly = true) : foldCase c ∈ letters ↔ c.toLower ∈ letters := by
  rw [List.all_eq_true] at h
  constructor
  · intro hmem
    rwa [(foldCase_eq_iff (h _ hmem)).1 rfl]
  · intro hmem
    rwa [(foldCase_eq_iff (h _ hmem)).2 rfl]

/-- A word of plain letters is spelled up to case when lowering leads to it. -/
theorem map_foldCase_eq_iff {piece letters : List Char}
    (h : letters.all foldsPlainly = true) :
    piece.map foldCase = letters ↔ piece.map Char.toLower = letters := by
  rw [List.all_eq_true] at h
  constructor
  · rintro rfl
    exact List.map_congr_left fun c hc =>
      (foldCase_eq_iff (h _ (List.mem_map_of_mem hc))).1 rfl
  · rintro rfl
    exact List.map_congr_left fun c hc =>
      (foldCase_eq_iff (h _ (List.mem_map_of_mem hc))).2 rfl

end Text

namespace Pattern

variable {before piece after : List Char}

/-! ## Single characters and runs -/

@[simp] theorem matches_exactly {c : Char} :
    (exactly c).Matches before piece after ↔ piece = [c] := by
  simp [exactly, Matches]

@[simp] theorem matches_quote :
    quote.Matches before piece after ↔ ∃ q, piece = [q] ∧ (q = '\'' ∨ q = '"') := by
  simp [quote, Matches]

@[simp] theorem matches_gap :
    gap.Matches before piece after ↔ ∀ c ∈ piece, Text.isBlank c = true := Iff.rfl

@[simp] theorem matches_space :
    space.Matches before piece after ↔ piece ≠ [] ∧ ∀ c ∈ piece, Text.isBlank c = true := by
  constructor
  · rintro ⟨_, gap, rfl, ⟨c, rfl, hc⟩, hgap⟩
    exact ⟨List.cons_ne_nil c gap, List.forall_mem_cons.2 ⟨hc, hgap⟩⟩
  · rintro ⟨hne, hpiece⟩
    obtain ⟨c, gap, rfl⟩ := List.exists_cons_of_ne_nil hne
    obtain ⟨hc, hgap⟩ := List.forall_mem_cons.1 hpiece
    exact ⟨[c], gap, rfl, ⟨c, rfl, hc⟩, hgap⟩

/-- A run of all characters but one is a piece without that one. -/
theorem matches_run_ne {d : Char} :
    (run (· != d)).Matches before piece after ↔ d ∉ piece := by
  simp only [Matches, bne_iff_ne, ne_eq]
  exact ⟨fun h hmem => h _ hmem rfl, fun h c hc heq => h (heq ▸ hc)⟩

@[simp] theorem matches_withinLine :
    withinLine.Matches before piece after ↔ '\n' ∉ piece := matches_run_ne

@[simp] theorem matches_letterAnyCase {letters : List Char} :
    (letterAnyCase letters).Matches before piece after ↔
      ∃ c, piece = [c] ∧ Text.foldCase c ∈ letters := by
  simp [letterAnyCase, Matches, Text.isLetterCase]

/-! ## Sequences -/

@[simp] theorem matches_inOrder_nil :
    (inOrder []).Matches before piece after ↔ piece = [] := Iff.rfl

/-- **A sequence is matched piece by piece.** -/
theorem matches_inOrder_cons {p : Pattern} {parts : List Pattern} :
    (inOrder (p :: parts)).Matches before piece after ↔
      ∃ left right, piece = left ++ right ∧ p.Matches before left (right ++ after)
        ∧ (inOrder parts).Matches (before ++ left) right after := Iff.rfl

@[simp] theorem matches_inOrder_singleton {p : Pattern} :
    (inOrder [p]).Matches before piece after ↔ p.Matches before piece after := by
  simp [matches_inOrder_cons]

theorem matches_inOrder_append {ps qs : List Pattern} :
    (inOrder (ps ++ qs)).Matches before piece after ↔
      ∃ left right, piece = left ++ right ∧ (inOrder ps).Matches before left (right ++ after)
        ∧ (inOrder qs).Matches (before ++ left) right after := by
  induction ps generalizing before piece with
  | nil =>
    constructor
    · exact fun h => ⟨[], piece, rfl, rfl, by rwa [List.append_nil]⟩
    · rintro ⟨_, right, rfl, rfl, h⟩
      rwa [List.append_nil] at h
  | cons p ps ih =>
    simp only [List.cons_append, matches_inOrder_cons, ih]
    constructor
    · rintro ⟨left, right, rfl, hp, middle, last, rfl, hps, hqs⟩
      refine ⟨left ++ middle, last, by simp, ⟨left, middle, rfl, ?_, hps⟩, ?_⟩
      · rwa [← List.append_assoc]
      · rwa [← List.append_assoc]
    · rintro ⟨first, last, rfl, ⟨left, middle, rfl, hp, hps⟩, hqs⟩
      refine ⟨left, middle ++ last, by simp, ?_, middle, last, rfl, hps, ?_⟩
      · rwa [List.append_assoc]
      · rwa [List.append_assoc]

/-- Single characters in a sequence, each given by what a character is folded to, are
matched by what folds to them. -/
theorem matches_inOrder_map_one {fold : Char → Char} {letters : List Char} :
    (inOrder (letters.map fun letter => one (fold · == letter))).Matches before piece after ↔
      piece.map fold = letters := by
  induction letters generalizing before piece with
  | nil => simp
  | cons letter letters ih =>
    simp only [List.map_cons, matches_inOrder_cons, ih, Matches, beq_iff_eq]
    constructor
    · rintro ⟨_, right, rfl, ⟨c, rfl, rfl⟩, rfl⟩
      rfl
    · intro h
      obtain ⟨c, right, rfl, hc, hright⟩ := List.map_eq_cons_iff.1 h
      exact ⟨[c], right, rfl, ⟨c, rfl, hc⟩, hright⟩

/-- **A word up to case is matched by its letters folded.** -/
@[simp] theorem matches_wordAnyCase {text : String} :
    (wordAnyCase text).Matches before piece after ↔ piece.map Text.foldCase = text.toList :=
  matches_inOrder_map_one

@[simp] theorem matches_word {text : String} :
    (word text).Matches before piece after ↔ piece = text.toList := by
  have h : (word text).Matches before piece after ↔ piece.map id = text.toList :=
    matches_inOrder_map_one
  rwa [List.map_id] at h

/-! ## Occurrences -/

/-- **A pattern that matches what is spelled in a certain way occurs in a text** exactly when
something spelled that way stands there. -/
theorem occurs_iff_of_matches {α : Type} {p : Pattern} {spelling : α → List Char}
    (h : ∀ before piece after : List Char,
      p.Matches before piece after ↔ ∃ a, piece = spelling a) {text : List Char} :
    p.Occurs text ↔ ∃ (a : α) (before after : List Char), text = before ++ spelling a ++ after := by
  unfold Occurs
  simp only [h]
  constructor
  · rintro ⟨before, _, after, htext, a, rfl⟩
    exact ⟨a, before, after, htext⟩
  · rintro ⟨a, before, after, htext⟩
    exact ⟨before, _, after, htext, a, rfl⟩

theorem occurs_either_iff {p q : Pattern} {text : List Char} :
    (either p q).Occurs text ↔ p.Occurs text ∨ q.Occurs text := by
  constructor
  · rintro ⟨before, piece, after, htext, hp | hq⟩
    · exact .inl ⟨before, piece, after, htext, hp⟩
    · exact .inr ⟨before, piece, after, htext, hq⟩
  · rintro (⟨before, piece, after, htext, hp⟩ | ⟨before, piece, after, htext, hq⟩)
    · exact ⟨before, piece, after, htext, .inl hp⟩
    · exact ⟨before, piece, after, htext, .inr hq⟩

/-! ## Equivalent patterns -/

/-- **Patterns that say the same**: they match the same pieces in the same
surroundings. -/
def Equivalent (p q : Pattern) : Prop :=
  ∀ before piece after : List Char, p.Matches before piece after ↔ q.Matches before piece after

theorem Equivalent.refl (p : Pattern) : p.Equivalent p := fun _ _ _ => Iff.rfl

theorem Equivalent.occurs_iff {p q : Pattern} (h : p.Equivalent q) {text : List Char} :
    p.Occurs text ↔ q.Occurs text := by
  unfold Occurs
  simp only [h _ _ _]

/-- **Parts of a sequence may be exchanged** for equivalent ones. -/
theorem Equivalent.inOrder_append {ps ps' qs qs' : List Pattern}
    (h : (inOrder ps).Equivalent (inOrder ps')) (h' : (inOrder qs).Equivalent (inOrder qs')) :
    (inOrder (ps ++ qs)).Equivalent (inOrder (ps' ++ qs')) := by
  intro before piece after
  simp only [matches_inOrder_append, h _ _ _, h' _ _ _]

/-- A run in front of a run of a larger class adds nothing. -/
theorem equivalent_run_run {small large : Char → Bool}
    (h : ∀ c, small c = true → large c = true) :
    (inOrder [run small, run large]).Equivalent (inOrder [run large]) := by
  intro before piece after
  rw [matches_inOrder_cons, matches_inOrder_singleton]
  constructor
  · rintro ⟨left, right, rfl, hleft, hright⟩
    rw [matches_inOrder_singleton] at hright
    exact List.forall_mem_append.2 ⟨fun c hc => h c (hleft c hc), hright⟩
  · intro hpiece
    refine ⟨[], piece, rfl, fun c hc => absurd hc List.not_mem_nil, ?_⟩
    rwa [matches_inOrder_singleton]

end Pattern

end WriteGate
