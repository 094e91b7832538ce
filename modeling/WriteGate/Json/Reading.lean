import WriteGate.Json.Basic

/-!
# Reading values

The value of a JSON text, if it is one. Reading goes from left to right and
hands on the rest of the text. Nesting is bounded by the number of characters,
which is why a count of steps that is set once, from the length of the text,
never runs out. Escapes must denote characters: half of a surrogate pair is
refused. A name that an object repeats keeps its last value.
-/

namespace WriteGate.Json

/-! ## Blanks, words and numbers -/

/-- The blanks between tokens. -/
def isTokenBlank (c : Char) : Bool := c == ' ' || c == '\t' || c == '\n' || c == '\r'

/-- The text from its next token on. -/
def skipBlanks (text : List Char) : List Char := text.dropWhile isTokenBlank

/-- The rest of a text that begins with the given characters. -/
def after? (expected text : List Char) : Option (List Char) :=
  if expected.isPrefixOf text then some (text.drop expected.length) else none

/-- Whether digits write a whole number without a leading zero. -/
def isWhole (digits : List Char) : Bool :=
  match digits with
  | [] => false
  | ['0'] => true
  | first :: _ => first != '0'

/-- Whether a text is an exponent. -/
def isExponent (text : List Char) : Bool :=
  match text with
  | e :: rest =>
    let digits :=
      match rest with
      | '+' :: digits => digits
      | '-' :: digits => digits
      | digits => digits
    (e == 'e' || e == 'E') && !digits.isEmpty && digits.all Char.isDigit
  | [] => false

/-- Whether a text is a fraction, an exponent, or a fraction with an exponent. -/
def isFractional (text : List Char) : Bool :=
  match text with
  | '.' :: rest =>
    let tail := rest.dropWhile Char.isDigit
    !(rest.takeWhile Char.isDigit).isEmpty && (tail.isEmpty || isExponent tail)
  | _ => isExponent text

/-- The number that a literal writes. -/
def ofLiteral? (literal : List Char) : Option Json :=
  let negative := literal.head? == some '-'
  let unsigned := if negative then literal.drop 1 else literal
  let whole := unsigned.takeWhile Char.isDigit
  let tail := unsigned.dropWhile Char.isDigit
  if !isWhole whole then none
  else if tail.isEmpty then
    let number := Nat.ofDigitChars 10 whole 0
    if !negative then some (.int number)
    else if number = 0 then some (.decimal "-0")
    else some (.int (-number))
  else if isFractional tail then some (.decimal (String.ofList literal))
  else none

/-- The characters that numbers are written with. -/
def isLiteralChar (c : Char) : Bool :=
  c.isDigit || c == '-' || c == '+' || c == '.' || c == 'e' || c == 'E'

/-- A number off the front of a text. -/
def readNumber? (text : List Char) : Option (Json × List Char) :=
  (ofLiteral? (text.takeWhile isLiteralChar)).map (·, text.dropWhile isLiteralChar)

/-! ## Strings -/

/-- The value of a hexadecimal digit. -/
def hexValue? (c : Char) : Option Nat :=
  if c.isDigit then some (c.toNat - '0'.toNat)
  else if 'a' ≤ c ∧ c ≤ 'f' then some (c.toNat - 'a'.toNat + 10)
  else if 'A' ≤ c ∧ c ≤ 'F' then some (c.toNat - 'A'.toNat + 10)
  else none

/-- The number that four hexadecimal digits write. -/
def readFourDigits? : List Char → Option (Nat × List Char)
  | a :: b :: c :: d :: rest => do
    let a ← hexValue? a
    let b ← hexValue? b
    let c ← hexValue? c
    let d ← hexValue? d
    some (4096 * a + 256 * b + 16 * c + d, rest)
  | _ => none

/-- The character of a numeric escape, which a second escape completes if the first is
the leading half of a surrogate pair. -/
def readCodePoint? (text : List Char) : Option (Char × List Char) := do
  let (unit, rest) ← readFourDigits? text
  if 0xD800 ≤ unit ∧ unit < 0xDC00 then
    let rest ← after? ['\\', 'u'] rest
    let (second, rest) ← readFourDigits? rest
    if 0xDC00 ≤ second ∧ second < 0xE000 then
      some (Char.ofNat (0x10000 + 1024 * (unit - 0xD800) + (second - 0xDC00)), rest)
    else none
  else if 0xDC00 ≤ unit ∧ unit < 0xE000 then none
  else some (Char.ofNat unit, rest)

/-- The character that a letter after a backslash stands for. -/
def escapedLetter? (c : Char) : Option Char :=
  if c == '"' || c == '\\' || c == '/' then some c
  else if c == 'b' then some '\x08'
  else if c == 'f' then some '\x0c'
  else if c == 'n' then some '\n'
  else if c == 'r' then some '\r'
  else if c == 't' then some '\t'
  else none

/-- One character of a string, escaped or not, off the front of a text. Controls below
the space must be escaped. -/
def readChar? : List Char → Option (Char × List Char)
  | [] => none
  | c :: rest =>
    if c == '\\' then
      match rest with
      | [] => none
      | letter :: rest =>
        if letter == 'u' then readCodePoint? rest
        else (escapedLetter? letter).map (·, rest)
    else if c.toNat < 0x20 then none
    else some (c, rest)

/-- The rest of a string up to its closing mark, behind the characters read so far, which
are kept in reverse. -/
def readString? (steps : Nat) (read text : List Char) : Option (String × List Char) :=
  match steps with
  | 0 => none
  | steps + 1 =>
    match text with
    | [] => none
    | c :: rest =>
      if c == '"' then some (String.ofList read.reverse, rest)
      else
        match readChar? text with
        | none => none
        | some (c, rest) => readString? steps (c :: read) rest

/-! ## Values -/

mutual

/-- **A value off the front of a text.** -/
def readValue? (steps : Nat) (text : List Char) : Option (Json × List Char) :=
  match steps with
  | 0 => none
  | steps + 1 =>
    match skipBlanks text with
    | [] => none
    | c :: rest =>
      if c == '"' then (readString? steps [] rest).map fun (s, rest) => (.str s, rest)
      else if c == '[' then
        match skipBlanks rest with
        | ']' :: rest => some (.arr [], rest)
        | _ => readItems? steps [] rest
      else if c == '\x7b' then
        match skipBlanks rest with
        | '\x7d' :: rest => some (.obj [], rest)
        | _ => readEntries? steps [] rest
      else if c == 'n' then (after? ['u', 'l', 'l'] rest).map (.null, ·)
      else if c == 't' then (after? ['r', 'u', 'e'] rest).map (.bool true, ·)
      else if c == 'f' then (after? ['a', 'l', 's', 'e'] rest).map (.bool false, ·)
      else readNumber? (c :: rest)

/-- The items of an array up to its closing bracket, behind those read so far, which are
kept in reverse. -/
def readItems? (steps : Nat) (read : List Json) (text : List Char) :
    Option (Json × List Char) :=
  match steps with
  | 0 => none
  | steps + 1 =>
    match readValue? steps text with
    | none => none
    | some (item, rest) =>
      match skipBlanks rest with
      | ',' :: rest => readItems? steps (item :: read) rest
      | ']' :: rest => some (.arr (item :: read).reverse, rest)
      | _ => none

/-- The entries of an object up to its closing brace, behind those read so far. -/
def readEntries? (steps : Nat) (read : List (String × Json)) (text : List Char) :
    Option (Json × List Char) :=
  match steps with
  | 0 => none
  | steps + 1 =>
    match skipBlanks text with
    | '"' :: rest =>
      match readString? steps [] rest with
      | none => none
      | some (name, rest) =>
        match skipBlanks rest with
        | ':' :: rest =>
          match readValue? steps rest with
          | none => none
          | some (value, rest) =>
            match skipBlanks rest with
            | ',' :: rest => readEntries? steps (insertEntry read name value) rest
            | '\x7d' :: rest => some (.obj (insertEntry read name value), rest)
            | _ => none
        | _ => none
    | _ => none

end

/-- **The value of a text**, if the text is one value and blanks around it. -/
def read? (text : String) : Option Json :=
  let chars := text.toList
  match readValue? (2 * chars.length + 2) chars with
  | some (v, rest) => if (skipBlanks rest).isEmpty then some v else none
  | none => none

end WriteGate.Json
