import WriteGate.Pattern.Search
import WriteGate.Signal.Basic

/-!
# The catalog of signals

One pattern for each signal. The catalog describes one storage policy and is not
configurable. Its version stands in every report, so a change of a pattern is a
change of that version.
-/

namespace WriteGate.Signal

open Pattern

/-- The version of the catalog. -/
def catalogVersion : String := "0.1.0"

/-- The policy that the catalog describes. -/
def ruleset : String := "encrypt-before-write"

/-- The letter of a mode that writes. -/
def writeLetter : Pattern := letterAnyCase ['w', 'a', 'x']

/-- A mode that writes, alone or next to the letter for binary files. -/
def writeMode : Pattern :=
  either writeLetter
    (either (inOrder [writeLetter, letterAnyCase ['b']])
      (inOrder [letterAnyCase ['b'], writeLetter]))

/-- A call of `open`, up to case, that ends with a quoted mode that writes. Up to the
comma in front of the quotes the call holds no closing parenthesis. What stands
between the quotes is a mode as soon as it holds the letters of one; it stays on
its line, but it may hold quotes itself. -/
def openForWriting : Pattern :=
  inOrder
    [wordAnyCase "open", gap, exactly '(', gap, run (· != ')'), exactly ',', gap,
      quote, withinLine, writeMode, withinLine, quote, gap, exactly ')']

/-- A call of a method `write` or `writelines`, up to case, on any receiver. -/
def writeMethod : Pattern :=
  inOrder [exactly '.', either (wordAnyCase "write") (wordAnyCase "writelines"), gap, exactly '(']

/-- An import that names the cryptography package first. It begins a line, up to white
space, which may itself run over several lines. -/
def cryptographyImport : Pattern :=
  inOrder
    [lineStart, gap,
      either (inOrder [word "from", space, word "cryptography"])
        (inOrder [word "import", space, word "cryptography"]),
      wordBoundary]

/-- A name that stands by itself. -/
def wholeWord (text : String) : Pattern := inOrder [wordBoundary, word text, wordBoundary]

/-- A call of a method `encrypt`. -/
def encryptMethod : Pattern := inOrder [word ".encrypt", gap, exactly '(']

/-- **The pattern of a signal.** -/
def pattern : Signal → Pattern
  | diskWriteOpen => openForWriting
  | diskWriteCall => writeMethod
  | cryptoImport => cryptographyImport
  | cipherIdentifier => wholeWord "Fernet"
  | encryptCall => encryptMethod
  | safeWrapper => either (wholeWord "secure_save") (wholeWord "SecureStorage.save")

/-- Whether a text carries a signal. -/
def carriedBy (s : Signal) (text : String) : Bool := s.pattern.occursIn text.toList

/-- A text carries a signal exactly when its pattern occurs there. -/
theorem carriedBy_iff (s : Signal) (text : String) :
    s.carriedBy text = true ↔ s.pattern.Occurs text.toList :=
  occursIn_iff s.pattern text.toList

end WriteGate.Signal
