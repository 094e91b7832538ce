import WriteGate.Text.Newline

/-!
# What a text reads as

The normal form of a text is reached by two replacements over the whole text.
Here it is shown to be the universal reading of line ends, one pass from left to
right, and that reading is described once more as a relation: a text *reads as*
another if it is built of the same characters with line feeds for line ends.

The relation says less than the function. A carriage return with a line feed
behind it may be read as two line ends, and only the function knows that it must
be one. What is gained is that the relation does not look ahead: readings of two
texts, one put behind the other, are a reading of the whole. A reading can be cut
anywhere and the cut carried back to the text; a cut of the text can be carried
to the reading unless it parts a pair.
-/

namespace WriteGate.Text

/-! ## Two passes and one -/

/-- A line feed for a carriage return. -/
def feed (c : Char) : Char := if c == '\r' then '\n' else c

@[simp] theorem feed_return : feed '\r' = '\n' := rfl

theorem feed_of_ne {c : Char} (h : c ≠ '\r') : feed c = c :=
  if_neg (by simpa using h)

theorem readFeeds_of_not_mem {text : List Char} (h : '\r' ∉ text) : readFeeds text = text := by
  fun_induction readFeeds text with
  | case1 => rfl
  | case2 rest ih => simp at h
  | case3 c rest hpair ih =>
    rw [List.mem_cons, not_or] at h
    have hc : (c == '\r') = false := by simpa using fun hc => h.1 hc.symm
    rw [ih h.2, hc]
    rfl

/-- Joining pairs and then feeding what is left is one reading. -/
theorem feedReturns_joinPairs (text : List Char) :
    feedReturns (joinPairs text) = readFeeds text := by
  fun_induction readFeeds text with
  | case1 => rfl
  | case2 rest ih =>
    rw [joinPairs_pair, ← ih]
    rfl
  | case3 c rest hpair ih =>
    by_cases hc : c = '\r'
    · subst hc
      have hhead : rest.head? ≠ some '\n' := fun hhead => by
        obtain ⟨tail, rfl⟩ := List.head?_eq_some_iff.1 hhead
        exact hpair tail rfl rfl
      rw [joinPairs_return rest hhead, ← ih]
      rfl
    · rw [joinPairs_cons rest hc, ← ih]
      rfl

/-- **The normal form is the universal reading of line ends**, with the shortcut for texts
without carriage returns and without it. -/
theorem normalize_eq_readFeeds (text : List Char) : normalize text = readFeeds text := by
  unfold normalize
  split
  · exact feedReturns_joinPairs text
  · next h => exact (readFeeds_of_not_mem (by simpa using h)).symm

/-! ## Reading as a relation -/

/-- **A text reads as another**: character by character, with a line feed for each line
end. A pair may count as one line end or as two. -/
inductive ReadsAs : List Char → List Char → Prop
  /-- The empty text. -/
  | nil : ReadsAs [] []
  /-- A character that is no carriage return stands for itself. -/
  | same {c : Char} {text reading : List Char} (hc : c ≠ '\r') (h : ReadsAs text reading) :
      ReadsAs (c :: text) (c :: reading)
  /-- A carriage return by itself. -/
  | single {text reading : List Char} (h : ReadsAs text reading) :
      ReadsAs ('\r' :: text) ('\n' :: reading)
  /-- A carriage return and the line feed behind it. -/
  | pair {text reading : List Char} (h : ReadsAs text reading) :
      ReadsAs ('\r' :: '\n' :: text) ('\n' :: reading)

/-- **Every text reads as its normal form.** -/
theorem readsAs_normalize (text : List Char) : ReadsAs text (normalize text) := by
  rw [normalize_eq_readFeeds]
  fun_induction readFeeds text with
  | case1 => exact .nil
  | case2 rest ih => exact .pair ih
  | case3 c rest hpair ih =>
    by_cases hc : c = '\r'
    · subst hc
      exact .single ih
    · have hsame : (c == '\r') = false := by simpa using hc
      rw [hsame]
      exact .same hc ih

namespace ReadsAs

variable {text reading : List Char}

/-- **Readings are joined** as their texts are. -/
theorem append {text' reading' : List Char} (h : ReadsAs text reading)
    (h' : ReadsAs text' reading') : ReadsAs (text ++ text') (reading ++ reading') := by
  induction h with
  | nil => exact h'
  | same hc h ih => exact .same hc ih
  | single h ih => exact .single ih
  | pair h ih => exact .pair ih

/-- **A cut of a reading is a cut of the text.** -/
theorem exists_of_append_right {left right : List Char} (h : ReadsAs text (left ++ right)) :
    ∃ left' right', text = left' ++ right' ∧ ReadsAs left' left ∧ ReadsAs right' right := by
  generalize hwhole : left ++ right = whole at h
  induction h generalizing left with
  | nil =>
    obtain ⟨rfl, rfl⟩ := List.append_eq_nil_iff.1 hwhole
    exact ⟨[], [], rfl, .nil, .nil⟩
  | @same c text reading hc h ih =>
    rcases List.append_eq_cons_iff.1 hwhole with ⟨rfl, rfl⟩ | ⟨rest, rfl, hrest⟩
    · exact ⟨[], c :: text, rfl, .nil, .same hc h⟩
    · obtain ⟨left', right', rfl, hleft, hright⟩ := ih hrest.symm
      exact ⟨c :: left', right', rfl, .same hc hleft, hright⟩
  | @single text reading h ih =>
    rcases List.append_eq_cons_iff.1 hwhole with ⟨rfl, rfl⟩ | ⟨rest, rfl, hrest⟩
    · exact ⟨[], '\r' :: text, rfl, .nil, .single h⟩
    · obtain ⟨left', right', rfl, hleft, hright⟩ := ih hrest.symm
      exact ⟨'\r' :: left', right', rfl, .single hleft, hright⟩
  | @pair text reading h ih =>
    rcases List.append_eq_cons_iff.1 hwhole with ⟨rfl, rfl⟩ | ⟨rest, rfl, hrest⟩
    · exact ⟨[], '\r' :: '\n' :: text, rfl, .nil, .pair h⟩
    · obtain ⟨left', right', rfl, hleft, hright⟩ := ih hrest.symm
      exact ⟨'\r' :: '\n' :: left', right', rfl, .pair hleft, hright⟩

/-- A cut that parts a pair which is read as one line end. -/
def PartsPair (left right reading : List Char) : Prop :=
  ∃ left' right' readLeft readRight, left = left' ++ ['\r'] ∧ right = '\n' :: right'
    ∧ reading = readLeft ++ '\n' :: readRight ∧ ReadsAs left' readLeft
    ∧ ReadsAs right' readRight

/-- **A cut of the text is a cut of the reading**, unless it parts a pair. -/
theorem exists_of_append_left {left right : List Char} (h : ReadsAs (left ++ right) reading) :
    (∃ readLeft readRight, reading = readLeft ++ readRight ∧ ReadsAs left readLeft
        ∧ ReadsAs right readRight)
      ∨ PartsPair left right reading := by
  generalize hwhole : left ++ right = whole at h
  induction h generalizing left with
  | nil =>
    obtain ⟨rfl, rfl⟩ := List.append_eq_nil_iff.1 hwhole
    exact .inl ⟨[], [], rfl, .nil, .nil⟩
  | @same c text reading hc h ih =>
    rcases List.append_eq_cons_iff.1 hwhole with ⟨rfl, rfl⟩ | ⟨rest, rfl, hrest⟩
    · exact .inl ⟨[], c :: reading, rfl, .nil, .same hc h⟩
    · rcases ih hrest.symm with ⟨x, y, rfl, hx, hy⟩ | ⟨l, r, x, y, rfl, rfl, rfl, hx, hy⟩
      · exact .inl ⟨c :: x, y, rfl, .same hc hx, hy⟩
      · exact .inr ⟨c :: l, r, c :: x, y, rfl, rfl, rfl, .same hc hx, hy⟩
  | @single text reading h ih =>
    rcases List.append_eq_cons_iff.1 hwhole with ⟨rfl, rfl⟩ | ⟨rest, rfl, hrest⟩
    · exact .inl ⟨[], '\n' :: reading, rfl, .nil, .single h⟩
    · rcases ih hrest.symm with ⟨x, y, rfl, hx, hy⟩ | ⟨l, r, x, y, rfl, rfl, rfl, hx, hy⟩
      · exact .inl ⟨'\n' :: x, y, rfl, .single hx, hy⟩
      · exact .inr ⟨'\r' :: l, r, '\n' :: x, y, rfl, rfl, rfl, .single hx, hy⟩
  | @pair text reading h ih =>
    rcases List.append_eq_cons_iff.1 hwhole with ⟨rfl, rfl⟩ | ⟨rest, rfl, hrest⟩
    · exact .inl ⟨[], '\n' :: reading, rfl, .nil, .pair h⟩
    · rcases List.append_eq_cons_iff.1 hrest.symm with ⟨rfl, rfl⟩ | ⟨tail, rfl, htail⟩
      -- the cut stands between the two characters of the pair
      · exact .inr ⟨[], text, [], reading, rfl, rfl, rfl, .nil, h⟩
      · rcases ih htail.symm with ⟨x, y, rfl, hx, hy⟩ | ⟨l, r, x, y, rfl, rfl, rfl, hx, hy⟩
        · exact .inl ⟨'\n' :: x, y, rfl, .pair hx, hy⟩
        · exact .inr ⟨'\r' :: '\n' :: l, r, '\n' :: x, y, rfl, rfl, rfl, .pair hx, hy⟩

/-! ## What a reading keeps -/

theorem head?_eq (h : ReadsAs text reading) : reading.head? = text.head?.map feed := by
  cases h with
  | nil => rfl
  | same hc h => simp [feed_of_ne hc]
  | single h => rfl
  | pair h => rfl

theorem getLast?_eq (h : ReadsAs text reading) :
    reading.getLast? = text.getLast?.map feed := by
  induction h with
  | nil => rfl
  | same hc h ih =>
    rw [List.getLast?_cons, List.getLast?_cons, ih, Option.map_some, ← Option.getD_map feed,
      feed_of_ne hc]
  | single h ih =>
    rw [List.getLast?_cons, List.getLast?_cons, ih, Option.map_some, ← Option.getD_map feed,
      feed_return]
  | pair h ih =>
    rw [List.getLast?_cons, List.getLast?_cons, List.getLast?_cons, ih, Option.map_some,
      Option.getD_some, ← Option.getD_map feed]
    rfl

/-- The characters of a reading are those of the text, and line feeds for carriage
returns. -/
theorem mem_text_of_mem {c : Char} (h : ReadsAs text reading) (hc : c ∈ reading) :
    c ∈ text ∨ (c = '\n' ∧ '\r' ∈ text) := by
  induction h with
  | nil => simp at hc
  | same _ _ ih | single _ ih | pair _ ih =>
    simp only [List.mem_cons] at hc ⊢
    grind

/-- The characters of a text are those of the reading, and carriage returns where the
reading has line feeds. -/
theorem mem_reading_of_mem {c : Char} (h : ReadsAs text reading) (hc : c ∈ text) :
    c ∈ reading ∨ (c = '\r' ∧ '\n' ∈ reading) := by
  induction h with
  | nil => simp at hc
  | same _ _ ih | single _ ih | pair _ ih =>
    simp only [List.mem_cons] at hc ⊢
    grind

end ReadsAs

end WriteGate.Text
