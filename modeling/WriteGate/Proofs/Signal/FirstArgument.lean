import WriteGate.Evidence
import WriteGate.Proofs.Signal.OpenCall

/-!
# The first argument of a call

A call of `open` with a mode that writes should be found whatever its first
argument is. It is not: the pattern takes the first closing parenthesis for the
end of the call, and a call among the arguments brings one. In
`open(str(x), "w")` the search for a comma stops behind `x`, and the mode is
never looked at.

`mode_seen_iff` says when a mode is seen. From some `open(` in front of it there
must be a way to a comma with a quote behind it that passes no closing
parenthesis. An argument without a closing parenthesis leaves that way open. If
there are no quotes in the argument either, this is the only way, since in
balanced text every parenthesis that opens is closed again.
-/

namespace WriteGate


/-! ## Balanced text -/

/-- **Text in which parentheses are balanced.** -/
inductive Balanced : List Char → Prop
  /-- The empty text. -/
  | nil : Balanced []
  /-- Any other character in front. -/
  | other {c : Char} {rest : List Char} (hopen : c ≠ '(') (hclose : c ≠ ')')
      (hrest : Balanced rest) : Balanced (c :: rest)
  /-- A group in front. -/
  | group {inner rest : List Char} (hinner : Balanced inner) (hrest : Balanced rest) :
      Balanced ('(' :: inner ++ ')' :: rest)

/-- **What is opened is closed again.** -/
theorem Balanced.close_mem {left right : List Char} (h : Balanced (left ++ '(' :: right)) :
    ')' ∈ right := by
  generalize htext : left ++ '(' :: right = text at h
  induction h generalizing left right with
  | nil => simp at htext
  | other hopen hclose hrest ih =>
    rcases List.append_eq_cons_iff.1 htext with ⟨rfl, hcons⟩ | ⟨left, rfl, hcons⟩
    · exact absurd (List.cons.inj hcons).1.symm hopen
    · exact ih hcons.symm
  | @group inner rest hinner hrest ihinner ihrest =>
    rw [List.cons_append] at htext
    rcases List.append_eq_cons_iff.1 htext with ⟨rfl, hcons⟩ | ⟨left, rfl, hcons⟩
    · -- the parenthesis is that of the group
      rw [(List.cons.inj hcons).2]
      simp
    · rcases List.append_eq_append_iff.1 hcons with ⟨z, rfl, hz⟩ | ⟨z, rfl, hz⟩
      · -- it stands behind the group
        rcases List.append_eq_cons_iff.1 hz.symm with ⟨rfl, hend⟩ | ⟨z, rfl, hrest⟩
        · cases hend
        · exact ihrest hrest.symm
      · -- it stands within the group, which has its own end behind it
        rcases List.append_eq_cons_iff.1 hz.symm with ⟨rfl, hend⟩ | ⟨z, rfl, hright⟩
        · cases hend
        · rw [hright]
          simp

/-- **A group that is not closed holds balanced text without a closing parenthesis.** If
some parenthesis in front of the end of the text is not followed by a closing one, it is
that of the group: one in balanced text is. -/
theorem Balanced.close_not_mem {inner name tail front rest : List Char} (h : Balanced inner)
    (hname : '(' ∉ name) (htail : '(' ∉ tail)
    (heq : name ++ '(' :: (inner ++ tail) = front ++ '(' :: rest) (hrest : ')' ∉ rest) :
    ')' ∉ inner := by
  have hown : '(' :: (inner ++ tail) = '(' :: rest → ')' ∉ inner := fun hcons hmem =>
    hrest ((List.cons.inj hcons).2 ▸ List.mem_append_left _ hmem)
  rcases List.append_eq_append_iff.1 heq with ⟨z, -, hz⟩ | ⟨z, rfl, hz⟩
  · rcases List.append_eq_cons_iff.1 hz.symm with ⟨rfl, hcons⟩ | ⟨z, rfl, hinner⟩
    · exact hown hcons.symm
    · rcases List.append_eq_append_iff.1 hinner with ⟨y, rfl, rfl⟩ | ⟨y, rfl, hy⟩
      · exact absurd (List.mem_append_right _ (List.mem_cons_self ..)) htail
      · -- a parenthesis of the balanced text, with what closes it
        rcases List.append_eq_cons_iff.1 hy.symm with ⟨rfl, rfl⟩ | ⟨y, rfl, rfl⟩
        · exact absurd (List.mem_cons_self ..) htail
        · exact absurd (List.mem_append_left _ h.close_mem) hrest
  · rcases List.append_eq_cons_iff.1 hz.symm with ⟨rfl, hcons⟩ | ⟨z, rfl, -⟩
    · exact hown hcons
    · exact absurd (List.mem_append_right _ (List.mem_cons_self ..)) hname

/-! ## Calls with a mode -/

/-- **A call of `open` with a mode**, written on one line in the common way. -/
structure ModeCall where
  /-- The first argument. -/
  argument : List Char
  /-- The quote around the mode. -/
  quote : Char
  /-- The mode. -/
  mode : List Char
  /-- Parentheses in the argument are balanced. -/
  balanced : Balanced argument
  /-- The argument is on one line. -/
  feed_argument : '\n' ∉ argument
  /-- The quote is a single or a double one. -/
  isQuote : quote = '\'' ∨ quote = '"'
  /-- The mode is on one line. -/
  feed_mode : '\n' ∉ mode
  /-- The mode holds no quotes. -/
  quotes_mode : '\'' ∉ mode ∧ '"' ∉ mode
  /-- The mode has a letter that writes. -/
  writes : ∃ c ∈ mode, c.toLower ∈ ['w', 'a', 'x']

namespace ModeCall

variable (call : ModeCall)

/-- The text of a call up to the quote in front of its mode. -/
def lead : List Char :=
  ['o', 'p', 'e', 'n', '('] ++ call.argument ++ [',', ' '] ++ [call.quote]

/-- **The text of a call.** -/
def text : List Char := call.lead ++ call.mode ++ [call.quote] ++ [')']

/-- **A mode in plain view**: in front of it stands a call of `open` that is not closed up to
a comma with a quote behind it. -/
def InView : Prop :=
  ∃ (head : Signal.CallHead) (before after : List Char),
    call.lead = before ++ head.spelling ++ after

end ModeCall

/-- **A text that shows a write**: it has a trace of writing, and the opening for writing is
reported. -/
def ShowsOpening (text : List Char) : Prop :=
  (Evidence.ofText (String.ofList text)).write.any = true
    ∧ .diskWriteOpen ∈ (Evidence.ofText (String.ofList text)).matched

theorem showsOpening_iff {text : List Char} :
    ShowsOpening text ↔ ∃ (call : Signal.WritingCall) (before after : List Char),
      text = before ++ call.spelling ++ after := by
  have hcarried : (Evidence.ofText (String.ofList text)).holds .diskWriteOpen
      = Signal.diskWriteOpen.carriedBy (String.ofList text) := Evidence.holds_ofSignals _ _
  rw [← String.toList_ofList (l := text), ← Signal.carriedBy_diskWriteOpen_iff,
    String.toList_ofList, ← hcarried, ShowsOpening, Evidence.mem_matched]
  refine and_iff_right_of_imp (fun hopen => ?_)
  rw [WriteEvidence.any, Bool.or_eq_true]
  exact .inl hopen

/-- Where a list has a character that does not stand in all but its last place, it has it in
the last place. -/
theorem eq_of_concat_eq_append_cons {α : Type} {xs ys zs : List α} {a b : α} (hb : b ∉ xs)
    (h : xs ++ [a] = ys ++ b :: zs) : zs = [] ∧ xs = ys := by
  rcases List.eq_nil_or_concat zs with rfl | ⟨init, d, rfl⟩
  · exact ⟨rfl, (List.append_inj' h rfl).1⟩
  · rw [List.concat_eq_append, ← List.cons_append, ← List.append_assoc] at h
    rw [(List.append_inj' h rfl).1] at hb
    simp at hb

namespace ModeCall

variable {call : ModeCall}

/-- Up to its mode a call is on one line. -/
theorem feed_lead : '\n' ∉ call.lead := by
  have hquote : '\n' ≠ call.quote := by
    rcases call.isQuote with h | h <;> rw [h] <;> decide
  simp [lead, call.feed_argument, hquote]

/-- **A mode in plain view is seen**, whatever stands around the call. -/
theorem InView.showsOpening (h : call.InView) (before after : List Char) :
    ShowsOpening (before ++ call.text ++ after) := by
  obtain ⟨head, front, rest, hlead⟩ := h
  obtain ⟨c, hc, hwrites⟩ := call.writes
  obtain ⟨left, right, hmode⟩ := List.append_of_mem hc
  have hrest : '\n' ∉ rest := fun hmem =>
    feed_lead (hlead ▸ List.mem_append_right _ hmem)
  have hfeed := call.feed_mode
  rw [hmode, List.mem_append, List.mem_cons, not_or, not_or] at hfeed
  -- what stands between the quote found and the mode counts as part of the mode
  let writing : Signal.WritingCall :=
    { head with
      front := rest ++ left
      letter := c
      back := right
      closing := call.quote
      closeGap := []
      feed_front := fun hmem => (List.mem_append.1 hmem).elim hrest hfeed.1
      writes := hwrites
      feed_back := hfeed.2.2
      quote_closing := call.isQuote
      blank_closeGap := fun c hc => absurd hc List.not_mem_nil }
  refine showsOpening_iff.2 ⟨writing, before ++ front, after, ?_⟩
  simp [writing, text, hlead, hmode, Signal.WritingCall.spelling,
    Signal.WritingCall.modeSpelling, Signal.CallHead.spelling]

/-- **A mode that is seen is in plain view**, if nothing stands around the call. -/
theorem inView_of_showsOpening (h : ShowsOpening call.text) : call.InView := by
  obtain ⟨writing, before, after, htext⟩ := showsOpening_iff.1 h
  have hlength : 2 < (writing.modeSpelling ++ after).length := by
    simp only [Signal.WritingCall.modeSpelling, List.length_append, List.length_singleton]
    omega
  have hcut : call.lead ++ (call.mode ++ [call.quote, ')'])
      = (before ++ writing.toCallHead.spelling) ++ (writing.modeSpelling ++ after) := by
    simpa [text, Signal.WritingCall.spelling] using htext
  rcases List.append_eq_append_iff.1 hcut with ⟨z, hhead, hmode⟩ | ⟨z, hlead, -⟩
  · -- the quote found would stand in the mode, or there would be no room behind it
    rcases List.eq_nil_or_concat z with rfl | ⟨init, d, rfl⟩
    · exact ⟨writing.toCallHead, before, [], by simpa using hhead.symm⟩
    · rw [List.concat_eq_append] at hhead hmode
      have hd : d = writing.opening := by
        have hlast := congrArg List.getLast? hhead
        rw [Signal.CallHead.getLast?_spelling, ← List.append_assoc, List.getLast?_concat] at hlast
        exact (Option.some.inj hlast).symm
      rcases List.append_eq_append_iff.1 hmode with ⟨y, hinit, hend⟩ | ⟨y, hmem, -⟩
      · have := congrArg List.length hend
        simp only [List.length_append, List.length_cons, List.length_nil] at this hlength
        omega
      · have hquote : writing.opening ∈ call.mode := by
          rw [hmem, ← hd]
          simp
        rcases writing.quote_opening with heq | heq
        · exact absurd (heq ▸ hquote) call.quotes_mode.1
        · exact absurd (heq ▸ hquote) call.quotes_mode.2
  · exact ⟨writing.toCallHead, before, z, hlead⟩

/-- An argument without a closing parenthesis leaves the mode in plain view. -/
theorem inView_of_not_mem (h : ')' ∉ call.argument) : call.InView := by
  let head : Signal.CallHead :=
    { name := "open".toList
      nameGap := []
      arguments := call.argument
      modeGap := [' ']
      opening := call.quote
      name_eq := by decide
      blank_nameGap := by simp
      unclosed := h
      blank_modeGap := List.forall_mem_singleton.2 (by decide)
      quote_opening := call.isQuote }
  refine ⟨head, [], [], ?_⟩
  simp [head, lead, Signal.CallHead.spelling]

/-- Up to its mode a call without quotes in the argument holds no quote. -/
theorem quote_not_mem {q : Char} (hq : q = '\'' ∨ q = '"') (hsingle : '\'' ∉ call.argument)
    (hdouble : '"' ∉ call.argument) :
    q ∉ ['o', 'p', 'e', 'n', '('] ++ call.argument ++ [',', ' '] := by
  rcases hq with rfl | rfl
  · simp [hsingle]
  · simp [hdouble]

/-- **Without quotes in the argument there is no other way.** A mode in plain view has an
argument without a closing parenthesis in front of it. -/
theorem InView.close_not_mem (h : call.InView) (hsingle : '\'' ∉ call.argument)
    (hdouble : '"' ∉ call.argument) : ')' ∉ call.argument := by
  obtain ⟨head, before, after, hlead⟩ := h
  have hnone := quote_not_mem head.quote_opening hsingle hdouble
  have hunclosed : ')' ∉ head.arguments ++ [','] ++ head.modeGap := by
    have hblank : ')' ∉ head.modeGap := fun hmem =>
      absurd (head.blank_modeGap _ hmem) (by decide)
    simp [head.unclosed, hblank]
  -- the quote found is the last character in front of the mode
  have hcut : (['o', 'p', 'e', 'n', '('] ++ call.argument ++ [',', ' ']) ++ [call.quote]
      = (before ++ head.name ++ head.nameGap ++ ['('] ++ head.arguments ++ [','] ++ head.modeGap)
        ++ head.opening :: after := by
    simpa [lead, Signal.CallHead.spelling] using hlead
  obtain ⟨-, hopen⟩ := eq_of_concat_eq_append_cons hnone hcut
  have heq : ['o', 'p', 'e', 'n'] ++ '(' :: (call.argument ++ [',', ' '])
      = (before ++ head.name ++ head.nameGap)
        ++ '(' :: (head.arguments ++ [','] ++ head.modeGap) := by
    simpa using hopen
  exact call.balanced.close_not_mem (by decide) (by decide) heq hunclosed

end ModeCall

/-- **When a mode is seen.** A call with a mode shows that it writes, whatever stands
around it, exactly when its mode is in plain view. This is so for every argument without
a closing parenthesis, and if the argument holds no quotes, for no other. -/
theorem mode_seen_iff (call : ModeCall) :
    ((∀ before after : List Char, ShowsOpening (before ++ call.text ++ after)) ↔ call.InView)
      ∧ (')' ∉ call.argument → call.InView)
      ∧ ('\'' ∉ call.argument → '"' ∉ call.argument →
        (call.InView ↔ ')' ∉ call.argument)) := by
  refine ⟨⟨fun h => ?_, fun h => h.showsOpening⟩, ModeCall.inView_of_not_mem, ?_⟩
  · exact ModeCall.inView_of_showsOpening (by simpa using h [] [])
  · intro hsingle hdouble
    exact ⟨fun h => h.close_not_mem hsingle hdouble, ModeCall.inView_of_not_mem⟩

/-- **A call among the arguments hides the mode.** The mode of `open(str(x), "w")` is not
seen: no trace of writing is found in this text, and no signal is reported. -/
theorem nested_call_hides_mode :
    ∃ call : ModeCall, String.ofList call.text = "open(str(x), \"w\")"
      ∧ (Evidence.ofText (String.ofList call.text)).write.any = false
      ∧ (Evidence.ofText (String.ofList call.text)).matched = [] := by
  let call : ModeCall :=
    { argument := ['s', 't', 'r', '(', 'x', ')']
      quote := '"'
      mode := ['w']
      balanced := .other (by decide) (by decide) (.other (by decide) (by decide)
        (.other (by decide) (by decide) (.group (.other (by decide) (by decide) .nil) .nil)))
      feed_argument := by decide
      isQuote := by decide
      feed_mode := by decide
      quotes_mode := by decide
      writes := ⟨'w', by decide, by decide⟩ }
  exact ⟨call, by decide +kernel, by decide +kernel, by decide +kernel⟩

end WriteGate
