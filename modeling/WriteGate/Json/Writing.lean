import WriteGate.Json.Basic

/-!
# Writing values

One writer serves both layouts of a value: the compact one puts nothing between
the tokens, the spread one puts each item and each entry on a line of its own. A
layout is only a choice of blanks, so the value that is read back does not
depend on it. Empty arrays and objects are written alike in both.
-/

namespace WriteGate.Json

/-! ## Strings -/

/-- The four digits of a character below U+10000. -/
def fourDigits (n : Nat) : List Char :=
  [n / 4096, n / 256 % 16, n / 16 % 16, n % 16].map Nat.digitChar

/-- A character inside a string: quotation marks and backslashes are escaped, and so are
the controls below the space, five of them by a letter. All else stands for
itself. -/
def escapeChar (c : Char) : List Char :=
  if c == '"' then ['\\', '"']
  else if c == '\\' then ['\\', '\\']
  else if c == '\x08' then ['\\', 'b']
  else if c == '\x0c' then ['\\', 'f']
  else if c == '\n' then ['\\', 'n']
  else if c == '\r' then ['\\', 'r']
  else if c == '\t' then ['\\', 't']
  else if c.toNat < 0x20 then '\\' :: 'u' :: fourDigits c.toNat
  else [c]

/-- A string between quotation marks. -/
def quoted (text : String) : String :=
  "\"" ++ String.ofList (text.toList.flatMap escapeChar) ++ "\""

/-! ## Layouts -/

/-- The blanks of a layout. -/
structure Layout where
  /-- What separates tokens at a depth of nesting. -/
  lineBreak : Nat → String
  /-- What stands between a name and its value. -/
  colon : String

/-- Nothing between the tokens. -/
def Layout.compact : Layout where
  lineBreak := fun _ => ""
  colon := ":"

/-- One item a line, each level indented by two more spaces. -/
def Layout.spread : Layout where
  lineBreak := fun depth => "\n" ++ String.ofList (List.replicate (2 * depth) ' ')
  colon := ": "

/-- Texts one after the other with a separator between. -/
def separated (separator : String) : List String → String
  | [] => ""
  | [text] => text
  | text :: rest => text ++ separator ++ separated separator rest

/-- The parts of an array or object between its brackets. -/
def bracketed (layout : Layout) (depth : Nat) (parts : List String) : String :=
  match parts with
  | [] => ""
  | _ =>
    layout.lineBreak (depth + 1) ++
      separated ("," ++ layout.lineBreak (depth + 1)) parts ++ layout.lineBreak depth

mutual

/-- **A value in writing**, at a depth of nesting. -/
def write (layout : Layout) (depth : Nat) : Json → String
  | null => "null"
  | bool value => if value then "true" else "false"
  | int value => toString value
  | decimal literal => literal
  | str value => quoted value
  | arr items => "[" ++ bracketed layout depth (writeItems layout (depth + 1) items) ++ "]"
  | obj entries =>
    "\x7b" ++ bracketed layout depth (writeEntries layout (depth + 1) entries) ++ "\x7d"

/-- The items of an array in writing. -/
def writeItems (layout : Layout) (depth : Nat) : List Json → List String
  | [] => []
  | item :: rest => write layout depth item :: writeItems layout depth rest

/-- The entries of an object in writing. -/
def writeEntries (layout : Layout) (depth : Nat) : List (String × Json) → List String
  | [] => []
  | (name, value) :: rest =>
    (quoted name ++ layout.colon ++ write layout depth value) :: writeEntries layout depth rest

end

/-- The value without blanks. -/
def compact (v : Json) : String := v.write Layout.compact 0

/-- The value spread over lines, without a line end after the last. -/
def spread (v : Json) : String := v.write Layout.spread 0

end WriteGate.Json
