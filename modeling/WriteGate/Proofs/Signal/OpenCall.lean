import WriteGate.Proofs.Pattern.Pieces
import WriteGate.Signal.Catalog

/-!
# Calls that open for writing

What the first signal of the catalog stands for, said of the text and not of a
pattern: a call of `open` in any letter case, an argument list without a closing
parenthesis up to a comma, and behind the comma a quote, a letter that writes on
the same line, and another quote with nothing but white space between it and the
closing parenthesis.

This is an exact description. Nothing else is matched, and the pattern holds two
parts that do not show in it: white space at the front of the arguments, which
is argument text like any other, and the modes with the letter for binary files,
in which the letter that writes is enough by itself. Everything else is as loose
as it looks. The two quotes need not be the same, there may be quotes, commas
and parentheses between them, and the comma need not be the first one.
-/

namespace WriteGate.Signal

open Pattern

/-! ## The shape of a call -/

/-- **A call of `open` up to the quote of a mode.** -/
structure CallHead where
  /-- The name of the function. -/
  name : List Char
  /-- What stands between the name and the parenthesis. -/
  nameGap : List Char
  /-- What stands between the parenthesis and the comma in front of the mode; it may hold
  further commas. -/
  arguments : List Char
  /-- What stands between the comma and the quote. -/
  modeGap : List Char
  /-- The quote. -/
  opening : Char
  /-- The name is that of `open`, in any letter case. -/
  name_eq : name.map Char.toLower = "open".toList
  /-- There may be white space behind the name. -/
  blank_nameGap : ∀ c ∈ nameGap, Text.isBlank c = true
  /-- The arguments do not close the call. -/
  unclosed : ')' ∉ arguments
  /-- There may be white space behind the comma. -/
  blank_modeGap : ∀ c ∈ modeGap, Text.isBlank c = true
  /-- The quote is a single or a double one. -/
  quote_opening : opening = '\'' ∨ opening = '"'

/-- **A call of `open` for writing.** -/
structure WritingCall extends CallHead where
  /-- What stands between the quote and the letter that writes. -/
  front : List Char
  /-- The letter that writes. -/
  letter : Char
  /-- What stands between that letter and the closing quote. -/
  back : List Char
  /-- The closing quote. -/
  closing : Char
  /-- What stands between the closing quote and the parenthesis. -/
  closeGap : List Char
  /-- The letter is on the line of the quote. -/
  feed_front : '\n' ∉ front
  /-- The letter writes, in either case. -/
  writes : letter.toLower ∈ ['w', 'a', 'x']
  /-- The closing quote is on the line of the letter. -/
  feed_back : '\n' ∉ back
  /-- The closing quote is a single or a double one, not necessarily the opening one. -/
  quote_closing : closing = '\'' ∨ closing = '"'
  /-- There may be white space behind the closing quote. -/
  blank_closeGap : ∀ c ∈ closeGap, Text.isBlank c = true

/-- The text of a call up to the quote of the mode. -/
def CallHead.spelling (head : CallHead) : List Char :=
  head.name ++ head.nameGap ++ ['('] ++ head.arguments ++ [','] ++ head.modeGap ++ [head.opening]

/-- The text of a call from the mode on. -/
def WritingCall.modeSpelling (call : WritingCall) : List Char :=
  call.front ++ [call.letter] ++ call.back ++ [call.closing] ++ call.closeGap ++ [')']

/-- **The text of a call.** -/
def WritingCall.spelling (call : WritingCall) : List Char :=
  call.toCallHead.spelling ++ call.modeSpelling

theorem CallHead.getLast?_spelling (head : CallHead) (before : List Char) :
    (before ++ head.spelling).getLast? = some head.opening := by
  rw [spelling, ← List.append_assoc, List.getLast?_concat]

/-! ## The pattern without what adds nothing -/

/-- The parts of a call up to the quote of the mode. -/
def headParts : List Pattern :=
  [wordAnyCase "open", gap, exactly '(', run (· != ')'), exactly ',', gap, quote]

/-- The parts of a call from that quote on. -/
def modeParts : List Pattern :=
  [withinLine, writeLetter, withinLine, quote, gap, exactly ')']

theorem ne_feed_of_foldCase_mem {c : Char} {letters : List Char} (h : Text.foldCase c ∈ letters)
    (hletters : '\n' ∉ letters) : c ≠ '\n' := by
  rintro rfl
  exact hletters h

/-- **A mode holds a letter that writes**, and it stays on its line. -/
theorem exists_letter_of_matches_writeMode {before piece after : List Char}
    (h : writeMode.Matches before piece after) :
    ∃ front c back, piece = front ++ [c] ++ back ∧ '\n' ∉ front ∧ '\n' ∉ back
      ∧ Text.foldCase c ∈ ['w', 'a', 'x'] := by
  rcases h with h | h | h
  · obtain ⟨c, rfl, hc⟩ := matches_letterAnyCase.1 h
    exact ⟨[], c, [], rfl, List.not_mem_nil, List.not_mem_nil, hc⟩
  · obtain ⟨_, _, rfl, hletter, hbinary⟩ := matches_inOrder_cons.1 h
    obtain ⟨c, rfl, hc⟩ := matches_letterAnyCase.1 hletter
    obtain ⟨b, rfl, hb⟩ := matches_letterAnyCase.1 (matches_inOrder_singleton.1 hbinary)
    refine ⟨[], c, [b], rfl, List.not_mem_nil, ?_, hc⟩
    simpa using (ne_feed_of_foldCase_mem hb (by decide)).symm
  · obtain ⟨_, _, rfl, hbinary, hletter⟩ := matches_inOrder_cons.1 h
    obtain ⟨b, rfl, hb⟩ := matches_letterAnyCase.1 hbinary
    obtain ⟨c, rfl, hc⟩ := matches_letterAnyCase.1 (matches_inOrder_singleton.1 hletter)
    refine ⟨[b], c, [], rfl, ?_, List.not_mem_nil, hc⟩
    simpa using (ne_feed_of_foldCase_mem hb (by decide)).symm

/-- What stands around a letter that writes, on its line. -/
theorem matches_mode_iff {before piece after : List Char} :
    (inOrder [withinLine, writeLetter, withinLine]).Matches before piece after ↔
      ∃ front c back, piece = front ++ [c] ++ back ∧ '\n' ∉ front ∧ '\n' ∉ back
        ∧ Text.foldCase c ∈ ['w', 'a', 'x'] := by
  simp only [matches_inOrder_cons, matches_withinLine, writeLetter, matches_letterAnyCase,
    matches_inOrder_nil]
  constructor
  · rintro ⟨front, _, rfl, hfront, _, _, rfl, ⟨c, rfl, hc⟩, back, _, rfl, hback, rfl⟩
    exact ⟨front, c, back, by simp, hfront, hback, hc⟩
  · rintro ⟨front, c, back, rfl, hfront, hback, hc⟩
    exact ⟨front, _, List.append_assoc .., hfront, _, _, rfl, ⟨c, rfl, hc⟩, back, _,
      (List.append_nil back).symm, hback, rfl⟩

/-- **The letter that writes is enough.** What stands around it may as well stand around a
mode of two letters, one of which is for binary files. -/
theorem equivalent_mode :
    (inOrder [withinLine, writeMode, withinLine]).Equivalent
      (inOrder [withinLine, writeLetter, withinLine]) := by
  intro before piece after
  rw [matches_mode_iff]
  constructor
  · rintro ⟨left, _, rfl, hleft, mode, _, rfl, hmode, right, _, rfl, hright, rfl⟩
    obtain ⟨front, c, back, rfl, hfront, hback, hc⟩ := exists_letter_of_matches_writeMode hmode
    rw [matches_withinLine] at hleft hright
    refine ⟨left ++ front, c, back ++ right, by simp, ?_, ?_, hc⟩
    · exact fun h => (List.mem_append.1 h).elim hleft hfront
    · exact fun h => (List.mem_append.1 h).elim hback hright
  · intro h
    obtain ⟨left, _, rfl, hleft, mode, right, rfl, hmode, hright⟩ := matches_mode_iff.2 h
    exact ⟨left, _, rfl, hleft, mode, right, rfl, .inl hmode, hright⟩

/-- White space is argument text. -/
theorem equivalent_arguments :
    (inOrder [gap, run (· != ')')]).Equivalent (inOrder [run (· != ')')]) := by
  refine equivalent_run_run (fun c hc => bne_iff_ne.2 ?_)
  rintro rfl
  exact absurd hc (by decide)

/-- **The pattern of the catalog says no more than its essential parts.** -/
theorem equivalent_essential :
    openForWriting.Equivalent (inOrder (headParts ++ modeParts)) :=
  .inOrder_append (.refl (inOrder [wordAnyCase "open", gap, exactly '(']))
    (.inOrder_append equivalent_arguments
      (.inOrder_append (.refl (inOrder [exactly ',', gap, quote]))
        (.inOrder_append equivalent_mode (.refl (inOrder [quote, gap, exactly ')'])))))

/-! ## The pattern and the shape -/

variable {before piece after : List Char}

theorem map_foldCase_eq_open_iff {name : List Char} :
    name.map Text.foldCase = "open".toList ↔ name.map Char.toLower = "open".toList :=
  Text.map_foldCase_eq_iff (by decide)

theorem foldCase_writes_iff {c : Char} :
    Text.foldCase c ∈ ['w', 'a', 'x'] ↔ c.toLower ∈ ['w', 'a', 'x'] :=
  Text.foldCase_mem_iff (by decide)

/-- What the parts up to the quote match. -/
theorem matches_headParts_iff :
    (inOrder headParts).Matches before piece after ↔ ∃ head : CallHead, piece = head.spelling := by
  simp only [headParts, matches_inOrder_cons, matches_wordAnyCase, matches_gap, matches_exactly,
    matches_run_ne, matches_quote, matches_inOrder_nil, map_foldCase_eq_open_iff]
  constructor
  · rintro ⟨name, _, rfl, hname, nameGap, _, rfl, hnameGap, _, _, rfl, rfl, arguments, _, rfl,
      hunclosed, _, _, rfl, rfl, modeGap, _, rfl, hmodeGap, _, _, rfl, ⟨q, rfl, hq⟩, rfl⟩
    exact ⟨⟨name, nameGap, arguments, modeGap, q, hname, hnameGap, hunclosed, hmodeGap, hq⟩,
      by simp [CallHead.spelling]⟩
  · rintro ⟨head, rfl⟩
    simp only [CallHead.spelling, List.append_assoc]
    exact ⟨_, _, rfl, head.name_eq, _, _, rfl, head.blank_nameGap, _, _, rfl, rfl, _, _, rfl,
      head.unclosed, _, _, rfl, rfl, _, _, rfl, head.blank_modeGap, _, [], rfl,
      ⟨_, rfl, head.quote_opening⟩, rfl⟩

/-- **What the essential parts match is a call.** -/
theorem matches_essential_iff :
    (inOrder (headParts ++ modeParts)).Matches before piece after ↔
      ∃ call : WritingCall, piece = call.spelling := by
  rw [matches_inOrder_append]
  simp only [matches_headParts_iff, modeParts, matches_inOrder_cons, matches_withinLine,
    writeLetter, matches_letterAnyCase, foldCase_writes_iff, matches_quote, matches_gap,
    matches_exactly, matches_inOrder_nil]
  constructor
  · rintro ⟨_, _, rfl, ⟨head, rfl⟩, front, _, rfl, hfront, _, _, rfl, ⟨c, rfl, hc⟩, back, _, rfl,
      hback, _, _, rfl, ⟨q, rfl, hq⟩, closeGap, _, rfl, hcloseGap, _, _, rfl, rfl, rfl⟩
    exact ⟨⟨head, front, c, back, q, closeGap, hfront, hc, hback, hq, hcloseGap⟩,
      by simp [WritingCall.spelling, WritingCall.modeSpelling]⟩
  · rintro ⟨call, rfl⟩
    simp only [WritingCall.spelling, WritingCall.modeSpelling, List.append_assoc]
    exact ⟨_, _, rfl, ⟨call.toCallHead, rfl⟩, _, _, rfl, call.feed_front, _, _, rfl,
      ⟨_, rfl, call.writes⟩, _, _, rfl, call.feed_back, _, _, rfl, ⟨_, rfl, call.quote_closing⟩,
      _, _, rfl, call.blank_closeGap, _, [], rfl, rfl, rfl⟩

/-- **A text opens for writing exactly when a call that does stands in it.** -/
theorem carriedBy_diskWriteOpen_iff (text : String) :
    diskWriteOpen.carriedBy text = true ↔
      ∃ (call : WritingCall) (before after : List Char),
        text.toList = before ++ call.spelling ++ after := by
  rw [carriedBy_iff]
  show openForWriting.Occurs text.toList ↔ _
  rw [equivalent_essential.occurs_iff]
  unfold Occurs
  simp only [matches_essential_iff]
  constructor
  · rintro ⟨before, _, after, htext, call, rfl⟩
    exact ⟨call, before, after, htext⟩
  · rintro ⟨call, before, after, htext⟩
    exact ⟨before, _, after, htext, call, rfl⟩

/-- **What opens for writing, exactly.** A text carries the signal when it has a call of
`open` in it whose mode writes, in the shape given above, and in no other case. White
space at the front of the arguments and the letter for binary files add nothing: the
pattern without them matches the same pieces in the same surroundings. -/
theorem opens_for_writing_exactly :
    (∀ text : String, diskWriteOpen.carriedBy text = true ↔
        ∃ (call : WritingCall) (before after : List Char),
          text.toList = before ++ call.spelling ++ after)
      ∧ diskWriteOpen.pattern.Equivalent
        (inOrder [wordAnyCase "open", gap, exactly '(', run (· != ')'), exactly ',', gap, quote,
          withinLine, writeLetter, withinLine, quote, gap, exactly ')']) :=
  ⟨carriedBy_diskWriteOpen_iff, equivalent_essential⟩

end WriteGate.Signal
