import WriteGate.Text.Character

/-!
# Patterns and the texts they match

A small language of patterns: single characters, runs of characters of a class,
two assertions about the surroundings, sequence and choice. This is all that the
catalog of signals needs, and its meaning takes a few lines: a pattern matches a
piece of a text *between* what stands before and what stands after. The two
assertions look at the neighbours, so a piece cut out of its text may match
where the piece in place does not.

`Pattern.Matches` is that meaning, `Pattern.Occurs` the existence of a match
anywhere in a text. How to find out is the business of `WriteGate.Pattern.Search`.
-/

namespace WriteGate

/-- A lexical pattern. -/
inductive Pattern
  /-- The empty piece. -/
  | empty
  /-- One character of a class. -/
  | one (accepts : Char → Bool)
  /-- Any number of characters of a class, none included. -/
  | run (accepts : Char → Bool)
  /-- A piece of the first pattern, then a piece of the second. -/
  | andThen (first second : Pattern)
  /-- A piece of either pattern. -/
  | either (first second : Pattern)
  /-- The empty piece at the beginning of the text or right after a line feed. -/
  | lineStart
  /-- The empty piece between two neighbours of which exactly one is a word
  character; the ends of the text count as neighbours that are not. -/
  | wordBoundary

namespace Pattern

/-! ## Derived patterns -/

/-- The patterns of a list, one after the other. -/
def inOrder (parts : List Pattern) : Pattern := parts.foldr andThen empty

/-- One character, exactly. -/
def exactly (c : Char) : Pattern := one (· == c)

/-- A word, exactly. -/
def word (text : String) : Pattern := inOrder (text.toList.map exactly)

/-- A word of small ASCII letters, up to case. -/
def wordAnyCase (text : String) : Pattern :=
  inOrder (text.toList.map fun letter => one (Text.isLetterCase letter))

/-- One of some small ASCII letters, up to case. -/
def letterAnyCase (letters : List Char) : Pattern :=
  one fun c => letters.any (Text.isLetterCase · c)

/-- White space, or none. -/
def gap : Pattern := run Text.isBlank

/-- At least one white-space character. -/
def space : Pattern := andThen (one Text.isBlank) gap

/-- Any characters that stay on the line. -/
def withinLine : Pattern := run (· != '\n')

/-- A single or a double quote. -/
def quote : Pattern := one fun c => c == '\'' || c == '"'

/-! ## Meaning -/

/-- Whether the last character of a text, if any, is a word character. -/
def EndsInWord (text : List Char) : Prop := ∃ c, text.getLast? = some c ∧ Text.isWord c = true

/-- Whether the first character of a text, if any, is a word character. -/
def BeginsWithWord (text : List Char) : Prop := ∃ c, text.head? = some c ∧ Text.isWord c = true

/-- **What a pattern matches.** `p.Matches before piece after` says that `p` accepts
`piece` in its place between `before` and `after`. The class of a run is asked of
each character; the parts of a sequence see each other as surroundings. -/
def Matches : Pattern → (before piece after : List Char) → Prop
  | empty, _, piece, _ => piece = []
  | one accepts, _, piece, _ => ∃ c, piece = [c] ∧ accepts c = true
  | run accepts, _, piece, _ => ∀ c ∈ piece, accepts c = true
  | andThen first second, before, piece, after =>
    ∃ left right, piece = left ++ right ∧
      first.Matches before left (right ++ after) ∧ second.Matches (before ++ left) right after
  | either first second, before, piece, after =>
    first.Matches before piece after ∨ second.Matches before piece after
  | lineStart, before, piece, _ => piece = [] ∧ (before = [] ∨ before.getLast? = some '\n')
  | wordBoundary, before, piece, after =>
    piece = [] ∧ ¬ (EndsInWord before ↔ BeginsWithWord after)

/-- **A pattern occurs in a text** when it matches some piece of it in place. -/
def Occurs (p : Pattern) (text : List Char) : Prop :=
  ∃ before piece after, text = before ++ piece ++ after ∧ p.Matches before piece after

end Pattern

end WriteGate
