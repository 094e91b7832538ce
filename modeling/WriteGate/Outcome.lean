import WriteGate.Evidence
import WriteGate.Source

/-!
# Outcomes

The decision on one file. Four findings are possible, and the first that applies
decides:

1. the content is undecodable, and the file fails, whatever it may contain;
2. there is no trace of writing, and the file passes;
3. there are traces of writing and of accepted encryption, and the file passes;
4. there are traces of writing only, and the file fails.

The outcome is a function of the file alone.
-/

namespace WriteGate

/-- Whether a file, or a whole run, is accepted. -/
inductive Verdict
  | pass
  | fail
deriving DecidableEq, Repr, Inhabited

/-- Both verdicts. -/
def Verdict.all : List Verdict := [pass, fail]

/-- The name of a verdict in reports. -/
def Verdict.name : Verdict → String
  | pass => "PASS"
  | fail => "FAIL"

/-- What decided on a file. -/
inductive Finding
  /-- The content is undecodable. -/
  | decodeFailure
  /-- Writing without encryption. -/
  | diskWriteDetected
  /-- Writing with accepted encryption. -/
  | encryptionSignalDetected
  /-- No writing. -/
  | noSignal
deriving DecidableEq, Repr, Inhabited

namespace Finding

/-- Every finding. -/
def all : List Finding := [decodeFailure, diskWriteDetected, encryptionSignalDetected, noSignal]

/-- The name of a finding in reports. -/
def name : Finding → String
  | decodeFailure => "DECODE_FAILURE"
  | diskWriteDetected => "DISK_WRITE_DETECTED"
  | encryptionSignalDetected => "ENCRYPTION_SIGNAL_DETECTED"
  | noSignal => "NO_SIGNAL"

/-- The verdict that a finding leads to. -/
def verdict : Finding → Verdict
  | decodeFailure => .fail
  | diskWriteDetected => .fail
  | encryptionSignalDetected => .pass
  | noSignal => .pass

/-- Said of a file whose content is undecodable. -/
def undecodableReason : String :=
  "content could not be decoded as text; treated as a violation."

/-- Said of a file that writes without encryption. -/
def unencryptedReason : String :=
  "writes to persistent storage without an accompanying encryption signal; " ++
    "expected a recognized crypto usage or approved safe-storage wrapper"

/-- The reason that goes with a finding. -/
def reason : Finding → Option String
  | decodeFailure => some undecodableReason
  | diskWriteDetected => some unencryptedReason
  | encryptionSignalDetected => none
  | noSignal => none

/-- **The decision table for decoded text.** -/
def ofEvidence (e : Evidence) : Finding :=
  if !e.write.any then noSignal
  else if e.encryption.accepted then encryptionSignalDetected
  else diskWriteDetected

/-- A reason is given exactly for the findings that fail. -/
theorem isSome_reason_iff (f : Finding) : f.reason.isSome ↔ f.verdict = .fail := by
  cases f <;> decide

/-! The three rows of the table, each with the exact condition for it. -/

theorem ofEvidence_eq_noSignal_iff {e : Evidence} :
    ofEvidence e = noSignal ↔ e.write.any = false := by
  unfold ofEvidence
  cases e.write.any <;> cases e.encryption.accepted <;> simp

theorem ofEvidence_eq_encryptionSignalDetected_iff {e : Evidence} :
    ofEvidence e = encryptionSignalDetected ↔
      e.write.any = true ∧ e.encryption.accepted = true := by
  unfold ofEvidence
  cases e.write.any <;> cases e.encryption.accepted <;> simp

theorem ofEvidence_eq_diskWriteDetected_iff {e : Evidence} :
    ofEvidence e = diskWriteDetected ↔
      e.write.any = true ∧ e.encryption.accepted = false := by
  unfold ofEvidence
  cases e.write.any <;> cases e.encryption.accepted <;> simp

end Finding

/-- The decision on one file, with the evidence for it. -/
structure FileOutcome where
  /-- The path as it was given. -/
  path : String
  /-- Whether the file is accepted. -/
  verdict : Verdict
  /-- Why it is not. -/
  reason : Option String
  /-- What decided. -/
  finding : Finding
  /-- The signals found, in the order of the catalog. -/
  matched : List Signal
  /-- The fingerprint of the bytes. -/
  sha256 : Option String
deriving DecidableEq, Repr, Inhabited

/-- The outcome that a finding and the signals behind it make of a file. -/
def FileOutcome.ofFinding (file : SourceFile) (finding : Finding) (matched : List Signal) :
    FileOutcome where
  path := file.path
  verdict := finding.verdict
  reason := finding.reason
  finding := finding
  matched := matched
  sha256 := some file.sha256

/-- **The decision on a file.** Undecodable content is settled before any signal is
looked for. -/
def SourceFile.evaluate (file : SourceFile) : FileOutcome :=
  match file.content with
  | .undecodable => .ofFinding file .decodeFailure []
  | .text content =>
    let evidence := Evidence.ofText content
    .ofFinding file (.ofEvidence evidence) evidence.matched

end WriteGate
