import WriteGate.Pattern.Basic

/-!
# Finding an occurrence

A text of `n` characters has `n + 1` places between its characters, ends
included. A list of as many marks singles out some of these places, and every
pattern turns marks into marks: given the places where a match may *end*, it
yields the places where such a match *begins*. Sequence is then composition and
choice is disjunction, and each step goes once over the text, so the time is the
length of the text times the size of the pattern, however many ways there are to
match it.

`occursIn_iff` is the law of this module: the search answers yes exactly when
the pattern occurs.
-/

namespace WriteGate.Pattern

/-- For each place, whether the character behind it is of the class; there is none
behind the last place. -/
def aheadMarks (accepts : Char → Bool) (text : List Char) : List Bool :=
  text.map accepts ++ [false]

/-- For each place, whether it begins the text or follows a line feed. -/
def lineStartMarks (text : List Char) : List Bool :=
  true :: text.map (· == '\n')

/-- For each place, whether exactly one of its neighbours is a word character. -/
def boundaryMarks (text : List Char) : List Bool :=
  let inWord := text.map Text.isWord
  List.zipWith (· != ·) (false :: inWord) (inWord ++ [false])

/-- The mark of a place in front of those behind it, for a run: the place is marked
itself, or the next character is of the class and the next place is marked. -/
def extendRun (place : Bool × Bool) (behind : List Bool) : List Bool :=
  (place.2 || (place.1 && behind.headD false)) :: behind

/-- A step from marks to marks, left out when no place is marked: nothing would come
of it. -/
def unlessBlank (marks : List Bool) (step : List Bool → List Bool) : List Bool :=
  if marks.any id then step marks else marks

/-- **The places where a match begins** that ends at a marked place. -/
def begins : Pattern → (text : List Char) → (ends : List Bool) → List Bool
  | empty, _, ends => ends
  | one accepts, text, ends =>
    List.zipWith (fun c mark => mark && accepts c) text ends.tail ++ [false]
  | run accepts, text, ends => ((aheadMarks accepts text).zip ends).foldr extendRun []
  | andThen first second, text, ends => unlessBlank (second.begins text ends) (first.begins text)
  | either first second, text, ends =>
    List.zipWith (· || ·) (first.begins text ends) (second.begins text ends)
  | lineStart, text, ends => List.zipWith (· && ·) (lineStartMarks text) ends
  | wordBoundary, text, ends => List.zipWith (· && ·) (boundaryMarks text) ends

/-- **Whether a pattern occurs in a text**: some place begins a match that ends
anywhere. -/
def occursIn (p : Pattern) (text : List Char) : Bool :=
  (p.begins text (List.replicate (text.length + 1) true)).any id

/-! ## The law of a step

A place of the text is given by the text before it, so marks are read at the
length of that part. -/

theorem length_begins (p : Pattern) (text : List Char) (ends : List Bool)
    (h : ends.length = text.length + 1) : (p.begins text ends).length = text.length + 1 := by
  induction p generalizing ends with
  | empty => exact h
  | one accepts => simp [begins, h]
  | run accepts =>
    have key : ∀ l : List (Bool × Bool), (l.foldr extendRun []).length = l.length := by
      intro l
      induction l with
      | nil => rfl
      | cons a l ih => simp [extendRun, ih]
    simp [begins, key, aheadMarks, h]
  | andThen first second ih₁ ih₂ =>
    rw [begins, unlessBlank]
    split
    · exact ih₁ _ (ih₂ _ h)
    · exact ih₂ _ h
  | either first second ih₁ ih₂ => simp [begins, ih₁ _ h, ih₂ _ h]
  | lineStart => simp [begins, lineStartMarks, h]
  | wordBoundary => simp [begins, boundaryMarks, h]

/-- A mark read in the zip of two lists of marks. -/
theorem getElem?_zipWith_and (xs ys : List Bool) (i : Nat) :
    (List.zipWith (· && ·) xs ys)[i]? = some true ↔ xs[i]? = some true ∧ ys[i]? = some true := by
  rw [List.getElem?_zipWith]
  cases xs[i]? <;> cases ys[i]? <;> simp

theorem getElem?_lineStartMarks (before after : List Char) :
    (lineStartMarks (before ++ after))[before.length]? = some true ↔
      before = [] ∨ before.getLast? = some '\n' := by
  rcases List.eq_nil_or_concat before with rfl | ⟨init, c, rfl⟩ <;> simp [lineStartMarks]

theorem getElem?_boundaryMarks (before after : List Char) :
    (boundaryMarks (before ++ after))[before.length]? = some true ↔
      ¬ (EndsInWord before ↔ BeginsWithWord after) := by
  have hleft : (false :: (before ++ after).map Text.isWord)[before.length]? =
      some (before.getLast?.any Text.isWord) := by
    rcases List.eq_nil_or_concat before with rfl | ⟨init, c, rfl⟩ <;> simp
  have hright : ((before ++ after).map Text.isWord ++ [false])[before.length]? =
      some (after.head?.any Text.isWord) := by
    cases after <;> simp
  have hb : before.getLast?.any Text.isWord = true ↔ EndsInWord before := by
    simp [EndsInWord, Option.any_eq_true]
  have ha : after.head?.any Text.isWord = true ↔ BeginsWithWord after := by
    simp [BeginsWithWord, Option.any_eq_true]
  rw [boundaryMarks, List.getElem?_zipWith, hleft, hright, ← hb, ← ha]
  cases before.getLast?.any Text.isWord <;> cases after.head?.any Text.isWord <;> simp

/-- A run begins at a place when characters of the class lead from it to a marked
place. -/
theorem getElem?_foldr_extendRun (accepts : Char → Bool) (after : List Char) (ends : List Bool)
    (h : ends.length = after.length + 1) :
    (((aheadMarks accepts after).zip ends).foldr extendRun [])[0]? = some true ↔
      ∃ piece rest, after = piece ++ rest ∧ ends[piece.length]? = some true ∧
        ∀ c ∈ piece, accepts c = true := by
  induction after generalizing ends with
  | nil =>
    obtain ⟨e, rfl⟩ : ∃ e, ends = [e] := List.length_eq_one_iff.1 (by simpa using h)
    cases e <;> simp [aheadMarks, extendRun]
  | cons c after ih =>
    obtain ⟨e, ends, rfl⟩ : ∃ e es, ends = e :: es := by
      cases ends with
      | nil => simp at h
      | cons e es => exact ⟨e, es, rfl⟩
    have hl : ends.length = after.length + 1 := by simpa using h
    have := ih ends hl
    have hz : ((aheadMarks accepts (c :: after)).zip (e :: ends)).foldr extendRun [] =
        extendRun (accepts c, e) (((aheadMarks accepts after).zip ends).foldr extendRun []) := by
      simp [aheadMarks]
    have hd : ∀ l : List Bool, l.headD false = true ↔ l[0]? = some true := by
      intro l; cases l <;> simp
    rw [hz, extendRun, List.getElem?_cons_zero, Option.some.injEq, Bool.or_eq_true,
      Bool.and_eq_true, hd, this]
    constructor
    · rintro (he | ⟨hc, piece, rest, rfl, hend, hall⟩)
      · exact ⟨[], c :: after, rfl, by simpa using he, by simp⟩
      · exact ⟨c :: piece, rest, rfl, by simpa using hend,
          List.forall_mem_cons.2 ⟨hc, hall⟩⟩
    · rintro ⟨_ | ⟨d, piece⟩, rest, heq, hend, hall⟩
      · exact .inl (by simpa using hend)
      · obtain ⟨rfl, rfl⟩ : c = d ∧ after = piece ++ rest := by simpa using heq
        exact .inr ⟨hall c (by simp), piece, rest, rfl, by simpa using hend,
          fun x hx => hall x (by simp [hx])⟩

/-- Dropping places from the front of a run's marks. -/
theorem drop_foldr_extendRun (places : List (Bool × Bool)) (n : Nat) :
    (places.foldr extendRun []).drop n = (places.drop n).foldr extendRun [] := by
  induction places generalizing n with
  | nil => simp
  | cons a places ih => cases n <;> simp [extendRun, ih]

/-! ## The law of the search -/

/-- **A pattern marks its beginnings**: a place is marked exactly when a piece of the text
behind it matches in place and ends at a place that is to be an end. -/
def MarksBeginnings (p : Pattern) : Prop :=
  ∀ (before after : List Char) (ends : List Bool),
    ends.length = (before ++ after).length + 1 →
    ((p.begins (before ++ after) ends)[before.length]? = some true ↔
      ∃ piece rest, after = piece ++ rest ∧ ends[(before ++ piece).length]? = some true ∧
        p.Matches before piece rest)

theorem marksBeginnings_empty : empty.MarksBeginnings := by
  intro before after ends _
  constructor
  · intro hm
    exact ⟨[], after, rfl, by simpa [begins] using hm, rfl⟩
  · rintro ⟨_, rest, rfl, hm, rfl⟩
    simpa [begins] using hm

/-- The end of the text has no character behind it. -/
theorem getElem?_begins_one_end (accepts : Char → Bool) (text : List Char) (ends : List Bool)
    (h : ends.length = text.length + 1) :
    ((one accepts).begins text ends)[text.length]? = some false := by
  have hl : text.length = ends.tail.length := by simp [h]
  simp [begins, ← hl]

theorem getElem?_begins_one_iff (accepts : Char → Bool) (before : List Char) (c : Char)
    (rest : List Char) (ends : List Bool) (h : ends.length = (before ++ c :: rest).length + 1) :
    ((one accepts).begins (before ++ c :: rest) ends)[before.length]? = some true ↔
      ends[before.length + 1]? = some true ∧ accepts c = true := by
  have hl : (before ++ c :: rest).length = ends.tail.length := by simp [h]
  have hlt : before.length < ends.tail.length := by simp [← hl]
  rw [begins, List.getElem?_append_left (by simp [← hl]), List.getElem?_zipWith,
    List.getElem?_tail]
  simp only [List.getElem?_append_right (Nat.le_refl _), Nat.sub_self, List.getElem?_cons_zero]
  cases ends[before.length + 1]? <;> simp

theorem marksBeginnings_one (accepts : Char → Bool) : (one accepts).MarksBeginnings := by
  intro before after ends h
  cases after with
  | nil =>
    rw [List.append_nil] at h ⊢
    rw [getElem?_begins_one_end accepts before ends h]
    simp [Matches]
  | cons c rest =>
    rw [getElem?_begins_one_iff accepts before c rest ends h]
    constructor
    · rintro ⟨hm, hc⟩
      exact ⟨[c], rest, rfl, by simpa using hm, c, rfl, hc⟩
    · rintro ⟨_, rest', heq, hm, d, rfl, hd⟩
      obtain ⟨rfl, rfl⟩ : c = d ∧ rest = rest' := by simpa using heq
      exact ⟨by simpa using hm, hd⟩

theorem marksBeginnings_run (accepts : Char → Bool) : (run accepts).MarksBeginnings := by
  intro before after ends h
  -- the marks from a place on are those of a run over what stands behind it
  have hdrop : ((run accepts).begins (before ++ after) ends).drop before.length =
      ((aheadMarks accepts after).zip (ends.drop before.length)).foldr extendRun [] := by
    rw [begins, drop_foldr_extendRun, List.zip, List.drop_zipWith]
    simp [aheadMarks]
  have hplace : ((run accepts).begins (before ++ after) ends)[before.length]? =
      (((aheadMarks accepts after).zip (ends.drop before.length)).foldr extendRun [])[0]? := by
    rw [← hdrop, List.getElem?_drop, Nat.add_zero]
  rw [hplace, getElem?_foldr_extendRun _ _ _ (by simp at h ⊢; omega)]
  simp only [List.getElem?_drop, List.length_append, Matches]

/-- Without a mark there is no step, and none is lost. -/
theorem getElem?_unlessBlank_iff {marks : List Bool} {step : List Bool → List Bool} {i : Nat}
    (h : (step marks)[i]? = some true → ∃ j : Nat, marks[j]? = some true) :
    (unlessBlank marks step)[i]? = some true ↔ (step marks)[i]? = some true := by
  have hany (k : Nat) (hk : marks[k]? = some true) : marks.any id = true :=
    List.any_eq_true.2 ⟨true, List.mem_of_getElem? hk, rfl⟩
  unfold unlessBlank
  split
  · rfl
  · next hnone =>
    refine ⟨fun hi => absurd (hany i hi) hnone, fun hi => ?_⟩
    obtain ⟨j, hj⟩ := h hi
    exact absurd (hany j hj) hnone

theorem MarksBeginnings.andThen {first second : Pattern} (h₁ : first.MarksBeginnings)
    (h₂ : second.MarksBeginnings) : (andThen first second).MarksBeginnings := by
  intro before after ends h
  have hl := length_begins second (before ++ after) ends h
  have hfirst := h₁ before after _ hl
  rw [begins, getElem?_unlessBlank_iff, hfirst]
  · constructor
    · rintro ⟨left, rest, rfl, hm, hleft⟩
      rw [← List.append_assoc] at hm h
      obtain ⟨right, rest, rfl, he, hright⟩ := (h₂ (before ++ left) rest ends h).1 hm
      exact ⟨left ++ right, rest, by simp, by simpa using he, left, right, rfl, hleft, hright⟩
    · rintro ⟨_, rest, rfl, he, left, right, rfl, hleft, hright⟩
      refine ⟨left, right ++ rest, by simp, ?_, hleft⟩
      have hm := (h₂ (before ++ left) (right ++ rest) ends (by simpa using h)).2
        ⟨right, rest, rfl, by simpa using he, hright⟩
      simpa using hm
  · intro hm
    obtain ⟨left, rest, -, he, -⟩ := hfirst.1 hm
    exact ⟨_, he⟩

theorem MarksBeginnings.either {first second : Pattern} (h₁ : first.MarksBeginnings)
    (h₂ : second.MarksBeginnings) : (either first second).MarksBeginnings := by
  intro before after ends h
  have hlt : before.length < (before ++ after).length + 1 := by
    rw [List.length_append]
    omega
  have hor : ((Pattern.either first second).begins (before ++ after) ends)[before.length]? =
      some true ↔ (first.begins (before ++ after) ends)[before.length]? = some true ∨
        (second.begins (before ++ after) ends)[before.length]? = some true := by
    rw [begins, List.getElem?_zipWith,
      List.getElem?_eq_getElem (length_begins first _ ends h ▸ hlt),
      List.getElem?_eq_getElem (length_begins second _ ends h ▸ hlt)]
    simp
  rw [hor, h₁ _ _ _ h, h₂ _ _ _ h]
  constructor
  · rintro (⟨piece, rest, ha, he, hm⟩ | ⟨piece, rest, ha, he, hm⟩)
    · exact ⟨piece, rest, ha, he, .inl hm⟩
    · exact ⟨piece, rest, ha, he, .inr hm⟩
  · rintro ⟨piece, rest, ha, he, hm | hm⟩
    · exact .inl ⟨piece, rest, ha, he, hm⟩
    · exact .inr ⟨piece, rest, ha, he, hm⟩

/-- **An assertion on the surroundings** is right if its own marks are. -/
theorem marksBeginnings_of_assertion {p : Pattern} {marks : List Char → List Bool}
    {Holds : (before after : List Char) → Prop}
    (hbegins : ∀ text ends, p.begins text ends = List.zipWith (· && ·) (marks text) ends)
    (hmarks : ∀ before after,
      (marks (before ++ after))[before.length]? = some true ↔ Holds before after)
    (hmatches : ∀ before piece after,
      p.Matches before piece after ↔ piece = [] ∧ Holds before after) :
    p.MarksBeginnings := by
  intro before after ends _
  rw [hbegins, getElem?_zipWith_and, hmarks]
  constructor
  · rintro ⟨hs, he⟩
    exact ⟨[], after, rfl, by simpa using he, (hmatches ..).2 ⟨rfl, hs⟩⟩
  · rintro ⟨piece, rest, rfl, he, hm⟩
    obtain ⟨rfl, hs⟩ := (hmatches ..).1 hm
    exact ⟨hs, by simpa using he⟩

/-- **Every pattern marks its beginnings.** -/
theorem marksBeginnings (p : Pattern) : p.MarksBeginnings := by
  induction p with
  | empty => exact marksBeginnings_empty
  | one accepts => exact marksBeginnings_one accepts
  | run accepts => exact marksBeginnings_run accepts
  | andThen first second ih₁ ih₂ => exact ih₁.andThen ih₂
  | either first second ih₁ ih₂ => exact ih₁.either ih₂
  | lineStart =>
    exact marksBeginnings_of_assertion (fun _ _ => rfl) getElem?_lineStartMarks
      fun _ _ _ => Iff.rfl
  | wordBoundary =>
    exact marksBeginnings_of_assertion (fun _ _ => rfl) getElem?_boundaryMarks
      fun _ _ _ => Iff.rfl

/-- **The search decides occurrence.** -/
theorem occursIn_iff (p : Pattern) (text : List Char) : p.occursIn text = true ↔ p.Occurs text := by
  have hl : (List.replicate (text.length + 1) true).length = text.length + 1 := by simp
  rw [occursIn, List.any_eq_true]
  constructor
  · rintro ⟨b, hb, hid⟩
    obtain rfl : b = true := hid
    obtain ⟨i, hi, hget⟩ := List.mem_iff_getElem.1 hb
    rw [length_begins p text _ hl] at hi
    have hsplit : text = text.take i ++ text.drop i := (List.take_append_drop i text).symm
    have hlen : (text.take i).length = i := by
      rw [List.length_take]
      omega
    obtain ⟨piece, rest, hrest, -, hm⟩ := (p.marksBeginnings (text.take i) (text.drop i)
      (List.replicate (text.length + 1) true) (by simp)).1
      (by rw [← hsplit, hlen, List.getElem?_eq_some_iff]; exact ⟨_, hget⟩)
    exact ⟨text.take i, piece, rest, by rw [List.append_assoc, ← hrest, ← hsplit], hm⟩
  · rintro ⟨before, piece, after, rfl, hm⟩
    refine ⟨true, ?_, rfl⟩
    have hmark : (List.replicate ((before ++ piece ++ after).length + 1)
        true)[(before ++ piece).length]? = some true := by
      rw [List.getElem?_replicate, if_pos]
      simp only [List.length_append]
      omega
    have hbegin := (p.marksBeginnings before (piece ++ after)
      (List.replicate ((before ++ piece ++ after).length + 1) true) (by simp)).2
      ⟨piece, after, rfl, hmark, hm⟩
    rw [← List.append_assoc] at hbegin
    exact List.mem_of_getElem? hbegin

instance (p : Pattern) (text : List Char) : Decidable (p.Occurs text) :=
  decidable_of_iff _ (occursIn_iff p text)

end WriteGate.Pattern
