import Mathlib.Data.List.Chain
import WriteGate.Proofs.Text.Newline

/-!
# Texts by their lines

A text is given by its lines: what stands on each of them, how it is ended, and
what stands behind the last end. How the lines are ended is a matter of
convention, and the universal reading is to forget it. That is the content of
this module: `Lined.readFeeds_text` says that the reading of a text is its lines
with a line feed behind each, and `Lined.exists_text_eq` that every text is
given by lines, so that nothing is left out.

One adjacency has to be excluded. A line feed right behind a carriage return is
not a line end of its own, so an empty line that is ended by a line feed cannot
stand behind a line that is ended by a carriage return. Every other mixture is
read as it was written.
-/

namespace WriteGate.Text

/-! ## Given by lines -/

/-- **Text without line ends**, of whatever kind. -/
def Unbroken (text : List Char) : Prop := '\r' ∉ text ∧ '\n' ∉ text

/-- Whether two lines, one behind the other, have line ends of their own. A line feed that
follows a carriage return at once would be taken for a part of that line end. -/
def Line.Apart (line next : Line) : Prop :=
  line.close = .carriageReturn → next ≠ ⟨[], .feed⟩

/-- **A text by its lines.** -/
structure Lined where
  /-- The lines that are ended. -/
  lines : List Line
  /-- The last line, which is not ended; it is empty when the text ends with a line. -/
  rest : List Char
  /-- Line ends stand at the ends of lines only. -/
  unbroken : ∀ line ∈ lines, Unbroken line.content
  /-- The last line holds none either. -/
  unbroken_rest : Unbroken rest
  /-- No two line ends run together. -/
  apart : lines.IsChain Line.Apart

namespace Lined

/-- The text, each line ended in its own way. -/
def text (l : Lined) : List Char := spell l.lines l.rest

/-- The text with the same lines, each ended by a line feed. -/
def reading (l : Lined) : List Char := spellFeeds l.lines l.rest

/-- **Two texts with the same lines**, whatever ends them. -/
def SameLines (l l' : Lined) : Prop :=
  l.lines.map Line.content = l'.lines.map Line.content ∧ l.rest = l'.rest

/-- What ends the lines does not show in the reading. -/
theorem reading_eq_of_sameLines {l l' : Lined} (h : l.SameLines l') :
    l.reading = l'.reading := by
  have hmap : ∀ lines : List Line, lines.flatMap (fun line => line.content ++ ['\n'])
      = (lines.map Line.content).flatMap (· ++ ['\n']) := by
    intro lines
    rw [List.flatMap_map]
  rw [reading, reading, spellFeeds, spellFeeds, hmap, hmap, h.1, h.2]

end Lined

/-! ## The reading of a line -/

theorem readFeeds_cons {c : Char} (hc : c ≠ '\r') (text : List Char) :
    readFeeds (c :: text) = c :: readFeeds text := by
  rw [readFeeds]
  · rw [if_neg (by simpa using hc)]
  · exact fun _ h _ => hc h

theorem readFeeds_return {text : List Char} (h : text.head? ≠ some '\n') :
    readFeeds ('\r' :: text) = '\n' :: readFeeds text := by
  rw [readFeeds]
  · rfl
  · rintro tail - rfl
    exact h rfl

/-- Text without carriage returns is read as it is, whatever stands behind it. -/
theorem readFeeds_append {text : List Char} (h : '\r' ∉ text) (rest : List Char) :
    readFeeds (text ++ rest) = text ++ readFeeds rest := by
  induction text with
  | nil => rfl
  | cons c text ih =>
    rw [List.mem_cons, not_or] at h
    rw [List.cons_append, readFeeds_cons (fun hc => h.1 hc.symm), ih h.2, List.cons_append]

/-- **A line end is read as a line feed**, if it does not run together with what
follows. -/
theorem readFeeds_spelling {close : LineEnd} {rest : List Char}
    (h : close = .carriageReturn → rest.head? ≠ some '\n') :
    readFeeds (close.spelling ++ rest) = '\n' :: readFeeds rest := by
  cases close with
  | feed => exact readFeeds_cons (by decide) rest
  | carriageReturn => exact readFeeds_return (h rfl)
  | pair => rfl

/-! ## The reading of lines -/

theorem spell_cons (line : Line) (lines : List Line) (rest : List Char) :
    spell (line :: lines) rest = line.content ++ (line.close.spelling ++ spell lines rest) := by
  rw [spell, spell, List.flatMap_cons, List.append_assoc, List.append_assoc]

theorem spellFeeds_cons (line : Line) (lines : List Line) (rest : List Char) :
    spellFeeds (line :: lines) rest = line.content ++ '\n' :: spellFeeds lines rest := by
  rw [spellFeeds, spellFeeds, List.flatMap_cons, List.append_assoc, List.append_assoc]
  rfl

/-- Only an empty line that is ended by a line feed begins with one. -/
theorem head?_spell_ne {lines : List Line} {rest : List Char}
    (hlines : ∀ line ∈ lines, Unbroken line.content) (hrest : Unbroken rest)
    (hfirst : ∀ line ∈ lines.head?, line ≠ ⟨[], .feed⟩) :
    (spell lines rest).head? ≠ some '\n' := by
  intro hhead
  cases lines with
  | nil => exact hrest.2 (List.mem_of_mem_head? hhead)
  | cons line lines =>
    obtain ⟨content, close⟩ := line
    rw [spell_cons] at hhead
    cases content with
    | nil =>
      cases close with
      | feed => exact hfirst ⟨[], .feed⟩ rfl rfl
      | carriageReturn => cases hhead
      | pair => cases hhead
    | cons c content =>
      obtain rfl : c = '\n' := Option.some.inj hhead
      exact (hlines ⟨'\n' :: content, close⟩ List.mem_cons_self).2 List.mem_cons_self

/-- **Lines are read as they were written**, with a line feed for each line end. -/
theorem readFeeds_spell {lines : List Line} {rest : List Char}
    (hlines : ∀ line ∈ lines, Unbroken line.content) (hrest : Unbroken rest)
    (hapart : lines.IsChain Line.Apart) :
    readFeeds (spell lines rest) = spellFeeds lines rest := by
  induction lines with
  | nil => exact readFeeds_of_not_mem hrest.1
  | cons line lines ih =>
    rw [List.isChain_cons] at hapart
    have hbehind : ∀ next ∈ lines, Unbroken next.content :=
      fun next h => hlines next (List.mem_cons_of_mem line h)
    have hend : line.close = .carriageReturn → (spell lines rest).head? ≠ some '\n' :=
      fun hclose => head?_spell_ne hbehind hrest fun next hnext => hapart.1 next hnext hclose
    rw [spell_cons, readFeeds_append (hlines line List.mem_cons_self).1, readFeeds_spelling hend,
      ih hbehind hapart.2, spellFeeds_cons]

namespace Lined

/-- **The reading of a text is its lines with line feeds.** -/
theorem readFeeds_text (l : Lined) : readFeeds l.text = l.reading :=
  readFeeds_spell l.unbroken l.unbroken_rest l.apart

/-- In the adjacency that is excluded, two lines are written and one is read. -/
example : readFeeds (spell [⟨['a'], .carriageReturn⟩, ⟨[], .feed⟩] ['b']) = ['a', '\n', 'b'] := by
  decide

/-! ## Every text has lines -/

/-- The text with an empty line in front. -/
def consEnd (close : LineEnd) (l : Lined)
    (h : close = .carriageReturn → l.text.head? ≠ some '\n') : Lined where
  lines := ⟨[], close⟩ :: l.lines
  rest := l.rest
  unbroken := List.forall_mem_cons.2 ⟨⟨List.not_mem_nil, List.not_mem_nil⟩, l.unbroken⟩
  unbroken_rest := l.unbroken_rest
  apart := by
    refine List.isChain_cons.2 ⟨?_, l.apart⟩
    rintro next hnext hclose rfl
    obtain ⟨tail, htail⟩ := List.head?_eq_some_iff.1 hnext
    refine h hclose ?_
    rw [text, htail, spell_cons]
    rfl

theorem text_consEnd {close : LineEnd} {l : Lined}
    {h : close = .carriageReturn → l.text.head? ≠ some '\n'} :
    (l.consEnd close h).text = close.spelling ++ l.text :=
  spell_cons ⟨[], close⟩ l.lines l.rest

/-- A character in front of the first line. -/
theorem exists_text_eq_cons {c : Char} (hreturn : c ≠ '\r') (hfeed : c ≠ '\n') (l : Lined) :
    ∃ l' : Lined, l'.text = c :: l.text := by
  have hcons : ∀ {content : List Char}, Unbroken content → Unbroken (c :: content) := by
    intro content h
    exact ⟨List.not_mem_cons_of_ne_of_not_mem hreturn.symm h.1,
      List.not_mem_cons_of_ne_of_not_mem hfeed.symm h.2⟩
  obtain ⟨lines, rest, unbroken, unbroken_rest, apart⟩ := l
  cases lines with
  | nil => exact ⟨⟨[], c :: rest, unbroken, hcons unbroken_rest, apart⟩, rfl⟩
  | cons line lines =>
    obtain ⟨hline, hlines⟩ := List.forall_mem_cons.1 unbroken
    obtain ⟨hnext, htail⟩ := List.isChain_cons.1 apart
    -- the first line is ended as before, so the next one stands apart from it as before
    have hchain : (⟨c :: line.content, line.close⟩ :: lines).IsChain Line.Apart :=
      List.isChain_cons.2 ⟨fun next h hclose => hnext next h hclose, htail⟩
    refine ⟨⟨⟨c :: line.content, line.close⟩ :: lines, rest,
      List.forall_mem_cons.2 ⟨hcons hline, hlines⟩, unbroken_rest, hchain⟩, ?_⟩
    show spell _ rest = c :: spell _ rest
    rw [spell_cons, spell_cons, List.cons_append]

/-- **Every text is given by lines.** They are found as the text is read. -/
theorem exists_text_eq (text : List Char) : ∃ l : Lined, l.text = text := by
  fun_induction readFeeds text with
  | case1 =>
    have hnil : Unbroken [] := ⟨List.not_mem_nil, List.not_mem_nil⟩
    exact ⟨⟨[], [], List.forall_mem_nil _, hnil, .nil⟩, rfl⟩
  | case2 rest ih =>
    obtain ⟨l, rfl⟩ := ih
    exact ⟨l.consEnd .pair (absurd · (by decide)), text_consEnd⟩
  | case3 c rest hpair ih =>
    obtain ⟨l, rfl⟩ := ih
    by_cases hreturn : c = '\r'
    · subst hreturn
      refine ⟨l.consEnd .carriageReturn fun _ hhead => ?_, text_consEnd⟩
      obtain ⟨tail, htail⟩ := List.head?_eq_some_iff.1 hhead
      exact hpair tail rfl htail
    · by_cases hfeed : c = '\n'
      · subst hfeed
        exact ⟨l.consEnd .feed (absurd · (by decide)), text_consEnd⟩
      · exact exists_text_eq_cons hreturn hfeed l

end Lined

/-! ## The normal form -/

theorem return_not_mem_readFeeds (text : List Char) : '\r' ∉ readFeeds text := by
  fun_induction readFeeds text with
  | case1 => exact List.not_mem_nil
  | case2 rest ih => exact List.not_mem_cons_of_ne_of_not_mem (by decide) ih
  | case3 c rest hpair ih =>
    refine List.not_mem_cons_of_ne_of_not_mem ?_ ih
    show '\r' ≠ feed c
    by_cases hc : c = '\r'
    · subst hc
      decide
    · rw [feed_of_ne hc]
      exact fun h => hc h.symm

/-- **The normal form is its own normal form.** -/
theorem normalize_normalize (text : List Char) :
    normalize (normalize text) = normalize text := by
  rw [normalize_eq_readFeeds (normalize text), normalize_eq_readFeeds text]
  exact readFeeds_of_not_mem (return_not_mem_readFeeds text)

end WriteGate.Text
