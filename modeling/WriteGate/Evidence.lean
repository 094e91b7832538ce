import WriteGate.Signal.Catalog

/-!
# Evidence

The signals of one text, kept by category, and how they combine. Encryption is
accepted on two grounds: a reference to cryptography together with a call that
encrypts, or an approved wrapper, which needs no further trace.
-/

namespace WriteGate

/-- Which traces of writing a text carries. -/
structure WriteEvidence where
  /-- A call of `open` with a mode that writes. -/
  openWrite : Bool
  /-- A call of a method that writes. -/
  writeCall : Bool
deriving DecidableEq, Repr, Inhabited

/-- Which traces of encryption a text carries. -/
structure EncryptionEvidence where
  /-- An import of the cryptography package. -/
  cryptoImport : Bool
  /-- The name of a cipher. -/
  cipherIdentifier : Bool
  /-- A call of a method that encrypts. -/
  encryptCall : Bool
  /-- An approved wrapper. -/
  safeWrapper : Bool
deriving DecidableEq, Repr, Inhabited

/-- The signals of one text. -/
structure Evidence where
  /-- The traces of writing. -/
  write : WriteEvidence
  /-- The traces of encryption. -/
  encryption : EncryptionEvidence
deriving DecidableEq, Repr, Inhabited

/-- Whether there is any trace of writing. -/
def WriteEvidence.any (e : WriteEvidence) : Bool := e.openWrite || e.writeCall

namespace EncryptionEvidence

/-- The first ground: a reference to cryptography, and a call that encrypts. -/
def cryptoUsage (e : EncryptionEvidence) : Bool :=
  (e.cryptoImport || e.cipherIdentifier) && e.encryptCall

/-- The second ground: an approved wrapper. -/
def approvedWrapper (e : EncryptionEvidence) : Bool := e.safeWrapper

/-- Whether encryption is accepted. -/
def accepted (e : EncryptionEvidence) : Bool := e.cryptoUsage || e.approvedWrapper

end EncryptionEvidence

namespace Evidence

/-- Whether a signal is among the evidence. -/
def holds (e : Evidence) : Signal → Bool
  | .diskWriteOpen => e.write.openWrite
  | .diskWriteCall => e.write.writeCall
  | .cryptoImport => e.encryption.cryptoImport
  | .cipherIdentifier => e.encryption.cipherIdentifier
  | .encryptCall => e.encryption.encryptCall
  | .safeWrapper => e.encryption.safeWrapper

/-- The evidence of which the given signals are part, and no others. -/
def ofSignals (carried : Signal → Bool) : Evidence where
  write :=
    { openWrite := carried .diskWriteOpen
      writeCall := carried .diskWriteCall }
  encryption :=
    { cryptoImport := carried .cryptoImport
      cipherIdentifier := carried .cipherIdentifier
      encryptCall := carried .encryptCall
      safeWrapper := carried .safeWrapper }

/-- The signals that a text carries. -/
def ofText (text : String) : Evidence := ofSignals (·.carriedBy text)

/-- The signals of the evidence, in the order of the catalog. -/
def matched (e : Evidence) : List Signal := Signal.all.filter e.holds

@[simp] theorem holds_ofSignals (carried : Signal → Bool) (s : Signal) :
    (ofSignals carried).holds s = carried s := by
  cases s <;> rfl

/-- A signal is reported exactly when it is among the evidence. -/
@[simp] theorem mem_matched {e : Evidence} {s : Signal} : s ∈ e.matched ↔ e.holds s = true := by
  simp [matched, Signal.mem_all]

end Evidence

end WriteGate
