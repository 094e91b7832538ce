/-!
# Text on a terminal

A terminal does not show every character that it is sent. Control characters
steer it, and the escape character begins a *sequence*: the characters behind it
say what the terminal is to do, up to one that ends the sequence. A message that
quotes a word of the user must not hand such orders on, so the word is quoted
without them: `visible` keeps what a terminal would show.

Two things keep this from being a matter of characters alone. White space within
a sequence is obeyed at once, so it is shown, and the sequence is *interrupted*:
what follows is shown as well, and only the next control character leads back
into it. And a sequence that carries a string of any content ends with a byte,
wherever in the spelling of a character that byte stands.
-/

namespace WriteGate.Text

/-- A sequence that has begun, by what it waits for. -/
inductive Sequence
  /-- The character behind the escape character, which decides on the kind. -/
  | opened
  /-- The end of a sequence that began with a punctuation mark. -/
  | marked
  /-- The end of a control sequence. -/
  | control
  /-- Anything in the header of a device control string. -/
  | device
  /-- More parameters in such a header, or its end. -/
  | deviceParameters
  /-- The end of such a header behind a punctuation mark. -/
  | deviceMarked
  /-- The bell behind a command. -/
  | command
  /-- The byte that ends a string. -/
  | string
deriving DecidableEq, Repr, Inhabited

/-- Where the reading of a text stands. -/
inductive Reading
  /-- Outside of sequences. -/
  | outside
  /-- Within a sequence. -/
  | within (s : Sequence)
  /-- Behind white space within a sequence. -/
  | interrupted (s : Sequence)
deriving DecidableEq, Repr, Inhabited

/-- The white space among the control characters. -/
def isLayout (c : Char) : Bool := c == '\t' || c == '\n' || c == '\x0c' || c == '\r'

/-- **A visible character**: one that is shown outside of sequences. -/
def isVisible (c : Char) : Bool := isLayout c || (' ' ≤ c && c != '\x7f')

/-- Whether a character begins a sequence. -/
def isEscape (c : Char) : Bool := c == '\x1b'

/-- Whether a character cancels the sequence in which it stands. -/
def isCancel (c : Char) : Bool := c == '\x18' || c == '\x1a'

/-- The byte that ends a string. -/
def stringTerminator : UInt8 := 0x9C

/-- Whether the spelling of a character has the byte in it that ends a string. -/
def endsString (c : Char) : Bool := (String.utf8EncodeChar c).contains stringTerminator

namespace Sequence

/-- Whether white space interrupts the sequence. Where it does not, it is a part of the
sequence like other characters. -/
def interruptible : Sequence → Bool
  | opened | marked | control => true
  | _ => false

/-- The reading behind a character of a sequence that does not interrupt it. -/
def next (s : Sequence) (c : Char) : Reading :=
  match s with
  | opened =>
    if c < ' ' || '~' < c then .within opened
    else if c < '0' then .within marked
    else if c == '[' then .within control
    else if c == ']' then .within command
    else if c == 'P' then .within device
    else if c == 'X' || c == '^' || c == '_' then .within string
    else .outside
  | marked => if '0' ≤ c && c ≤ '~' then .outside else .within marked
  | control => if '@' ≤ c && c ≤ '~' then .outside else .within control
  | device =>
    if c < ' ' || '~' < c then .within device
    else if c < '0' then .within deviceMarked
    else if c < '@' then .within deviceParameters
    else .within string
  | deviceParameters =>
    if c < ' ' || '~' < c then .within deviceParameters
    else if c < '0' then .within deviceMarked
    else if c < '<' then .within deviceParameters
    else .within string
  | deviceMarked => if '0' ≤ c && c ≤ '~' then .within string else .within deviceMarked
  | command => if c == '\x07' then .outside else .within command
  | string => if endsString c then .outside else .within string

end Sequence

namespace Reading

/-- What a control character that is not shown leads to outside of sequences, or back into
one that was interrupted. -/
def obey (r : Reading) (c : Char) : Reading :=
  if isEscape c then .within .opened
  else if isCancel c then .outside
  else
    match r with
    | .interrupted s => .within s
    | other => other

/-- The reading behind a character, and whether the character is shown. A character beyond
ASCII ends a sequence that was interrupted. -/
def step (r : Reading) (c : Char) : Reading × Bool :=
  match r with
  | .within s =>
    if isEscape c || isCancel c then (r.obey c, false)
    else if s.interruptible && isLayout c then (.interrupted s, true)
    else (s.next c, false)
  | _ =>
    if isVisible c then (if c.toNat < 0x80 then r else .outside, true) else (r.obey c, false)

/-- The characters of a text that are shown. -/
def shown (r : Reading) : List Char → List Char
  | [] => []
  | c :: rest =>
    let (next, isShown) := r.step c
    if isShown then c :: next.shown rest else next.shown rest

/-- Only visible characters are shown. -/
theorem isVisible_of_step {r : Reading} {c : Char} (h : (r.step c).2 = true) :
    isVisible c = true := by
  cases r with
  | within s =>
    simp only [step] at h
    split at h
    · simp at h
    · split at h
      · next _ hl => simp only [Bool.and_eq_true] at hl; simp [isVisible, hl.2]
      · simp at h
  | outside =>
    simp only [step] at h
    split at h
    · assumption
    · simp at h
  | interrupted s =>
    simp only [step] at h
    split at h
    · assumption
    · simp at h

theorem isVisible_of_mem_shown {r : Reading} {text : List Char} {c : Char}
    (h : c ∈ r.shown text) : isVisible c = true := by
  induction text generalizing r with
  | nil => simp [shown] at h
  | cons d rest ih =>
    simp only [shown] at h
    split at h
    · next hd =>
      rcases List.mem_cons.1 h with h | h
      · exact h ▸ isVisible_of_step hd
      · exact ih h
    · exact ih h

/-- A text of visible characters is shown as it is. -/
theorem shown_eq_self {text : List Char} (h : ∀ c ∈ text, isVisible c = true) :
    outside.shown text = text := by
  induction text with
  | nil => rfl
  | cons c rest ih =>
    have hc := h c (List.mem_cons_self ..)
    have hs : outside.step c = (outside, true) := by simp [step, hc]
    simp only [shown, hs, if_true]
    rw [ih fun d hd => h d (List.mem_cons_of_mem _ hd)]

end Reading

/-- **What a terminal shows of a text.** -/
def visible (text : String) : String := String.ofList (Reading.outside.shown text.toList)

theorem visible_eq_self {text : String} (h : ∀ c ∈ text.toList, isVisible c = true) :
    visible text = text := by
  rw [visible, Reading.shown_eq_self h, String.ofList_toList]

end WriteGate.Text
