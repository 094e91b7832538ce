import WriteGate.Json.Codec
import WriteGate.Json.Writing
import WriteGate.Report.Basic

/-!
# Reports for programs

The JSON forms of reports and of all their parts. Fields come in the order of
the types, and a field of a report that may be absent is written as the absent
value.
-/

namespace WriteGate

open Json JsonForm

instance : JsonForm SignalCategory := ofNames SignalCategory.all SignalCategory.name

instance : JsonForm Signal := ofNames Signal.all Signal.name

instance : JsonForm Verdict := ofNames Verdict.all Verdict.name

instance : JsonForm Finding := ofNames Finding.all Finding.name

instance : JsonForm WriteEvidence where
  toJson e := .obj [("open_write", toJson e.openWrite), ("write_call", toJson e.writeCall)]
  ofJson? v :=
    match v.slots? ["open_write", "write_call"] with
    | some [openWrite, writeCall] => do
      some { openWrite := ← required? openWrite, writeCall := ← required? writeCall }
    | _ => none

instance : JsonForm EncryptionEvidence where
  toJson e := .obj
    [("crypto_import", toJson e.cryptoImport), ("cipher_identifier", toJson e.cipherIdentifier),
      ("encrypt_call", toJson e.encryptCall), ("safe_wrapper", toJson e.safeWrapper)]
  ofJson? v :=
    match v.slots? ["crypto_import", "cipher_identifier", "encrypt_call", "safe_wrapper"] with
    | some [cryptoImport, cipherIdentifier, encryptCall, safeWrapper] => do
      some
        { cryptoImport := ← required? cryptoImport
          cipherIdentifier := ← required? cipherIdentifier
          encryptCall := ← required? encryptCall
          safeWrapper := ← required? safeWrapper }
    | _ => none

instance : JsonForm Evidence where
  toJson e := .obj [("write", toJson e.write), ("encryption", toJson e.encryption)]
  ofJson? v :=
    match v.slots? ["write", "encryption"] with
    | some [write, encryption] => do
      some { write := ← required? write, encryption := ← required? encryption }
    | _ => none

instance : JsonForm FileOutcome where
  toJson o := .obj
    [("path", toJson o.path), ("verdict", toJson o.verdict), ("reason", ofOption o.reason),
      ("finding", toJson o.finding), ("matched", toJson o.matched),
      ("sha256", ofOption o.sha256)]
  ofJson? v :=
    match v.slots? ["path", "verdict", "reason", "finding", "matched", "sha256"] with
    | some [path, verdict, reason, finding, matched, sha256] => do
      some
        { path := ← required? path
          verdict := ← required? verdict
          reason := ← optional? reason
          finding := ← required? finding
          matched := ← required? matched
          sha256 := ← optional? sha256 }
    | _ => none

instance : JsonForm RunVerdict where
  toJson r := .obj
    [("overall", toJson r.overall), ("failures", toJson r.failures),
      ("exit_code", toJson r.exitCode)]
  ofJson? v :=
    match v.slots? ["overall", "failures", "exit_code"] with
    | some [overall, failures, exitCode] => do
      some
        { overall := ← required? overall
          failures := ← required? failures
          exitCode := ← required? exitCode }
    | _ => none

instance : JsonForm Tool where
  toJson t := .obj [("name", toJson t.name), ("version", toJson t.version)]
  ofJson? v :=
    match v.slots? ["name", "version"] with
    | some [name, version] => do
      some { name := ← required? name, version := ← required? version }
    | _ => none

instance : JsonForm CatalogInfo where
  toJson c := .obj [("catalog_version", toJson c.version), ("ruleset", toJson c.ruleset)]
  ofJson? v :=
    match v.slots? ["catalog_version", "ruleset"] with
    | some [version, ruleset] => do
      some { version := ← required? version, ruleset := ← required? ruleset }
    | _ => none

instance : JsonForm Report where
  toJson r := .obj
    [("schema_version", toJson r.schema), ("tool", toJson r.tool),
      ("catalog", toJson r.catalog), ("files", toJson r.files), ("verdict", toJson r.verdict)]
  ofJson? v :=
    match v.slots? ["schema_version", "tool", "catalog", "files", "verdict"] with
    | some [schema, tool, catalog, files, verdict] => do
      some
        { schema := ← required? schema
          tool := ← required? tool
          catalog := ← required? catalog
          files := ← required? files
          verdict := ← required? verdict }
    | _ => none

/-- **The report in full**, spread over lines and ended by a line feed. -/
def Report.toJsonText (r : Report) : String := (toJson r).spread ++ "\n"

end WriteGate
