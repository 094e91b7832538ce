/-!
# Signals

What the gate looks for in a source text: two ways of writing to disk, and four
traces of encryption. A signal is a lexical observation and no more; a call in a
comment or in a branch that is never taken counts as much as a live one.
-/

namespace WriteGate

/-- A trace that a source text can carry. -/
inductive Signal
  /-- A call of `open` with a mode that writes. -/
  | diskWriteOpen
  /-- A call of a method `write` or `writelines`. -/
  | diskWriteCall
  /-- An import of the cryptography package. -/
  | cryptoImport
  /-- The name of a cipher. -/
  | cipherIdentifier
  /-- A call of a method `encrypt`. -/
  | encryptCall
  /-- The name of an approved wrapper for safe storage. -/
  | safeWrapper
deriving DecidableEq, Repr, Inhabited

/-- What a signal speaks for. -/
inductive SignalCategory
  /-- The text writes to disk. -/
  | writeSignal
  /-- The text encrypts. -/
  | encryptionSignal
deriving DecidableEq, Repr, Inhabited

namespace SignalCategory

/-- Both categories. -/
def all : List SignalCategory := [writeSignal, encryptionSignal]

/-- The name of a category in reports. -/
def name : SignalCategory → String
  | writeSignal => "write-signal"
  | encryptionSignal => "encryption-signal"

end SignalCategory

namespace Signal

/-- Every signal, in the order of the catalog. -/
def all : List Signal :=
  [diskWriteOpen, diskWriteCall, cryptoImport, cipherIdentifier, encryptCall, safeWrapper]

/-- The name of a signal in reports. -/
def name : Signal → String
  | diskWriteOpen => "disk-write-open"
  | diskWriteCall => "disk-write-call"
  | cryptoImport => "crypto-import"
  | cipherIdentifier => "cipher-identifier"
  | encryptCall => "encrypt-call"
  | safeWrapper => "safe-wrapper"

/-- What a signal speaks for. -/
def category : Signal → SignalCategory
  | diskWriteOpen => .writeSignal
  | diskWriteCall => .writeSignal
  | cryptoImport => .encryptionSignal
  | cipherIdentifier => .encryptionSignal
  | encryptCall => .encryptionSignal
  | safeWrapper => .encryptionSignal

/-- The place of a signal in the catalog. -/
def rank (s : Signal) : Nat := all.idxOf s

theorem mem_all (s : Signal) : s ∈ all := by
  cases s <;> decide

end Signal

end WriteGate
