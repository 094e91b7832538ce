/-!
# Line ends

Three conventions for ending a line meet in source files: the line feed, the
carriage return, and the pair of both. Patterns that are anchored to lines know
only the line feed, so a text is brought to that one convention before it is
searched. `normalize` does it by replacing pairs first and the remaining
carriage returns next; `Line` is the reading of a text as a list of lines with
their ends, from which the normal form can be read off directly.
-/

namespace WriteGate.Text

/-! ## Replacement in two passes -/

/-- One character in front of the rest of a text whose pairs are already replaced.
The flag of the rest says whether it began with a line feed *before* the
replacement: a carriage return there belongs to a pair and goes. -/
def prependUnpaired (c : Char) (rest : List Char × Bool) : List Char × Bool :=
  (if c == '\r' && rest.2 then rest.1 else c :: rest.1, c == '\n')

/-- The text with every pair of carriage return and line feed replaced by a line
feed. -/
def joinPairs (text : List Char) : List Char :=
  (text.foldr prependUnpaired ([], false)).1

/-- The text with every carriage return replaced by a line feed. -/
def feedReturns (text : List Char) : List Char :=
  text.map fun c => if c == '\r' then '\n' else c

/-- **The normal form of a text**: pairs become line feeds, then the carriage
returns that remain do. A text without carriage returns is its own normal
form. -/
def normalize (text : List Char) : List Char :=
  if text.contains '\r' then feedReturns (joinPairs text) else text

/-! ## Reading line by line -/

/-- The end of a line. -/
inductive LineEnd
  | feed
  | carriageReturn
  | pair
deriving DecidableEq, Repr

namespace LineEnd

/-- The characters that a line end is written with. -/
def spelling : LineEnd → List Char
  | feed => ['\n']
  | carriageReturn => ['\r']
  | pair => ['\r', '\n']

end LineEnd

/-- A line with the end that closes it. -/
structure Line where
  /-- What stands on the line; it holds neither line feed nor carriage return. -/
  content : List Char
  /-- How the line was ended. -/
  close : LineEnd
deriving DecidableEq, Repr

/-- The text that closed lines and an unclosed rest spell. -/
def spell (lines : List Line) (rest : List Char) : List Char :=
  lines.flatMap (fun line => line.content ++ line.close.spelling) ++ rest

/-- The text with the same lines, each ended by one line feed. -/
def spellFeeds (lines : List Line) (rest : List Char) : List Char :=
  lines.flatMap (fun line => line.content ++ ['\n']) ++ rest

/-- **The universal reading of line ends**, from left to right in one pass: at a
carriage return, a line feed that follows belongs to the same line end. -/
def readFeeds : List Char → List Char
  | [] => []
  | '\r' :: '\n' :: rest => '\n' :: readFeeds rest
  | c :: rest => (if c == '\r' then '\n' else c) :: readFeeds rest

/-! ## How replacement meets a character -/

theorem joinPairs_pair (rest : List Char) :
    joinPairs ('\r' :: '\n' :: rest) = '\n' :: joinPairs rest := rfl

theorem joinPairs_return (rest : List Char) (h : rest.head? ≠ some '\n') :
    joinPairs ('\r' :: rest) = '\r' :: joinPairs rest := by
  cases rest with
  | nil => rfl
  | cons d rest =>
    have hd : (d == '\n') = false := by simpa using h
    simp [joinPairs, prependUnpaired, hd]

theorem joinPairs_cons {c : Char} (rest : List Char) (h : c ≠ '\r') :
    joinPairs (c :: rest) = c :: joinPairs rest := by
  simp [joinPairs, prependUnpaired, h]

end WriteGate.Text
