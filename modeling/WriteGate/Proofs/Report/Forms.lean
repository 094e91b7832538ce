import WriteGate.Proofs.Json.Forms
import WriteGate.Report.Json

/-!
# The forms of reports

Which JSON values are a report, or a part of one. A part says its forms by
listing its fields, or by the names of its constants; what a field accepts is
what the part that stands in it accepts, all the way down. So a report may be
spelled in many ways at once, one node as an object and the next as an array,
and `reports_read_from_forms` says that the reading accepts these spellings and
no others, and cannot tell one from another.
-/

namespace WriteGate

open Json JsonForm

/-! ## Enumerations -/

instance : HasForms SignalCategory where
  IsForm v x := IsConstantForm x.name v

instance : LawfulForms SignalCategory where
  ofJson?_eq_some_iff := ofNames_eq_some_iff (by rintro (_ | _) <;> decide) (by decide)
  isForm_toJson _ := .name

instance : HasForms Signal where
  IsForm v x := IsConstantForm x.name v

instance : LawfulForms Signal where
  ofJson?_eq_some_iff := ofNames_eq_some_iff Signal.mem_all (by decide)
  isForm_toJson _ := .name

instance : HasForms Verdict where
  IsForm v x := IsConstantForm x.name v

instance : LawfulForms Verdict where
  ofJson?_eq_some_iff := ofNames_eq_some_iff (by rintro (_ | _) <;> decide) (by decide)
  isForm_toJson _ := .name

instance : HasForms Finding where
  IsForm v x := IsConstantForm x.name v

instance : LawfulForms Finding where
  ofJson?_eq_some_iff := ofNames_eq_some_iff (by rintro (_ | _ | _ | _) <;> decide) (by decide)
  isForm_toJson _ := .name

/-! ## Records -/

/-- The fields of the traces of writing. -/
def WriteEvidence.fields : List (RecordField WriteEvidence) :=
  [.required "open_write" WriteEvidence.openWrite, .required "write_call" WriteEvidence.writeCall]

instance : HasForms WriteEvidence where
  IsForm v x := IsRecordForm WriteEvidence.fields x v

instance : LawfulForms WriteEvidence where
  ofJson?_eq_some_iff v x := by
    obtain ⟨openWrite, writeCall⟩ := x
    refine eq_some_iff_isRecordForm ["open_write", "write_call"] rfl
      (fun h => ?_) fun slots h hlength => ?_
    · simp only [JsonForm.ofJson?, h]
    · match slots, hlength with
      | [_, _], _ =>
        simp [JsonForm.ofJson?, h, WriteEvidence.fields, Option.bind_eq_some_iff,
          -Bool.exists_bool]
  isForm_toJson x := isRecordForm_of_entries rfl (by decide) (by simp [WriteEvidence.fields])

/-- The fields of the traces of encryption. -/
def EncryptionEvidence.fields : List (RecordField EncryptionEvidence) :=
  [.required "crypto_import" EncryptionEvidence.cryptoImport,
    .required "cipher_identifier" EncryptionEvidence.cipherIdentifier,
    .required "encrypt_call" EncryptionEvidence.encryptCall,
    .required "safe_wrapper" EncryptionEvidence.safeWrapper]

instance : HasForms EncryptionEvidence where
  IsForm v x := IsRecordForm EncryptionEvidence.fields x v

instance : LawfulForms EncryptionEvidence where
  ofJson?_eq_some_iff v x := by
    obtain ⟨cryptoImport, cipherIdentifier, encryptCall, safeWrapper⟩ := x
    refine eq_some_iff_isRecordForm
      ["crypto_import", "cipher_identifier", "encrypt_call", "safe_wrapper"] rfl
      (fun h => ?_) fun slots h hlength => ?_
    · simp only [JsonForm.ofJson?, h]
    · match slots, hlength with
      | [_, _, _, _], _ =>
        simp [JsonForm.ofJson?, h, EncryptionEvidence.fields, Option.bind_eq_some_iff,
          -Bool.exists_bool]
  isForm_toJson x := isRecordForm_of_entries rfl (by decide) (by simp [EncryptionEvidence.fields])

/-- The fields of the signals of a text. -/
def Evidence.fields : List (RecordField Evidence) :=
  [.required "write" Evidence.write, .required "encryption" Evidence.encryption]

instance : HasForms Evidence where
  IsForm v x := IsRecordForm Evidence.fields x v

instance : LawfulForms Evidence where
  ofJson?_eq_some_iff v x := by
    obtain ⟨write, encryption⟩ := x
    refine eq_some_iff_isRecordForm ["write", "encryption"] rfl
      (fun h => ?_) fun slots h hlength => ?_
    · simp only [JsonForm.ofJson?, h]
    · match slots, hlength with
      | [_, _], _ =>
        simp [JsonForm.ofJson?, h, Evidence.fields, Option.bind_eq_some_iff]
  isForm_toJson x := isRecordForm_of_entries rfl (by decide) (by simp [Evidence.fields])

/-- The fields of an outcome. Two of them may be absent: an outcome need have no reason, and a
file no fingerprint. -/
def FileOutcome.fields : List (RecordField FileOutcome) :=
  [.required "path" FileOutcome.path, .required "verdict" FileOutcome.verdict,
    .optional "reason" FileOutcome.reason, .required "finding" FileOutcome.finding,
    .required "matched" FileOutcome.matched, .optional "sha256" FileOutcome.sha256]

instance : HasForms FileOutcome where
  IsForm v x := IsRecordForm FileOutcome.fields x v

instance : LawfulForms FileOutcome where
  ofJson?_eq_some_iff v x := by
    obtain ⟨path, verdict, reason, finding, matched, sha256⟩ := x
    refine eq_some_iff_isRecordForm
      ["path", "verdict", "reason", "finding", "matched", "sha256"] rfl
      (fun h => ?_) fun slots h hlength => ?_
    · simp only [JsonForm.ofJson?, h]
    · match slots, hlength with
      | [_, _, _, _, _, _], _ =>
        simp [JsonForm.ofJson?, h, FileOutcome.fields, Option.bind_eq_some_iff]
  isForm_toJson x := isRecordForm_of_entries rfl (by decide) (by simp [FileOutcome.fields])

/-- The fields of the verdict on a run. -/
def RunVerdict.fields : List (RecordField RunVerdict) :=
  [.required "overall" RunVerdict.overall, .required "failures" RunVerdict.failures,
    .required "exit_code" RunVerdict.exitCode]

instance : HasForms RunVerdict where
  IsForm v x := IsRecordForm RunVerdict.fields x v

instance : LawfulForms RunVerdict where
  ofJson?_eq_some_iff v x := by
    obtain ⟨overall, failures, exitCode⟩ := x
    refine eq_some_iff_isRecordForm ["overall", "failures", "exit_code"] rfl
      (fun h => ?_) fun slots h hlength => ?_
    · simp only [JsonForm.ofJson?, h]
    · match slots, hlength with
      | [_, _, _], _ =>
        simp [JsonForm.ofJson?, h, RunVerdict.fields, Option.bind_eq_some_iff]
  isForm_toJson x := isRecordForm_of_entries rfl (by decide) (by simp [RunVerdict.fields])

/-- A form may be an array at one node and an object at another. -/
example : ofJson? (.arr [.obj [("PASS", .null)], .arr [], .int 0])
    = some ({ overall := .pass, failures := [], exitCode := 0 } : RunVerdict) := by
  decide

/-- The fields of a program. -/
def Tool.fields : List (RecordField Tool) :=
  [.required "name" Tool.name, .required "version" Tool.version]

instance : HasForms Tool where
  IsForm v x := IsRecordForm Tool.fields x v

instance : LawfulForms Tool where
  ofJson?_eq_some_iff v x := by
    obtain ⟨name, version⟩ := x
    refine eq_some_iff_isRecordForm ["name", "version"] rfl
      (fun h => ?_) fun slots h hlength => ?_
    · simp only [JsonForm.ofJson?, h]
    · match slots, hlength with
      | [_, _], _ =>
        simp [JsonForm.ofJson?, h, Tool.fields, Option.bind_eq_some_iff]
  isForm_toJson x := isRecordForm_of_entries rfl (by decide) (by simp [Tool.fields])

/-- The fields of a catalog. -/
def CatalogInfo.fields : List (RecordField CatalogInfo) :=
  [.required "catalog_version" CatalogInfo.version, .required "ruleset" CatalogInfo.ruleset]

instance : HasForms CatalogInfo where
  IsForm v x := IsRecordForm CatalogInfo.fields x v

instance : LawfulForms CatalogInfo where
  ofJson?_eq_some_iff v x := by
    obtain ⟨version, ruleset⟩ := x
    refine eq_some_iff_isRecordForm ["catalog_version", "ruleset"] rfl
      (fun h => ?_) fun slots h hlength => ?_
    · simp only [JsonForm.ofJson?, h]
    · match slots, hlength with
      | [_, _], _ =>
        simp [JsonForm.ofJson?, h, CatalogInfo.fields, Option.bind_eq_some_iff]
  isForm_toJson x := isRecordForm_of_entries rfl (by decide) (by simp [CatalogInfo.fields])

/-- The fields of a report. -/
def Report.fields : List (RecordField Report) :=
  [.required "schema_version" Report.schema, .required "tool" Report.tool,
    .required "catalog" Report.catalog, .required "files" Report.files,
    .required "verdict" Report.verdict]

instance : HasForms Report where
  IsForm v x := IsRecordForm Report.fields x v

instance : LawfulForms Report where
  ofJson?_eq_some_iff v x := by
    obtain ⟨schema, tool, catalog, files, verdict⟩ := x
    refine eq_some_iff_isRecordForm ["schema_version", "tool", "catalog", "files", "verdict"] rfl
      (fun h => ?_) fun slots h hlength => ?_
    · simp only [JsonForm.ofJson?, h]
    · match slots, hlength with
      | [_, _, _, _, _], _ =>
        simp [JsonForm.ofJson?, h, Report.fields, Option.bind_eq_some_iff]
  isForm_toJson x := isRecordForm_of_entries rfl (by decide) (by simp [Report.fields])

/-! ## Reading from forms -/

/-- **A type is read from its forms, and its forms agree.** -/
structure ReadsForms (α : Type) [JsonForm α] [HasForms α] : Prop where
  /-- A JSON value is read as a value of the type exactly when it is a form of it. -/
  reads_iff (v : Json) (x : α) : ofJson? v = some x ↔ IsForm v x
  /-- No JSON value is a form of two values. -/
  unique {v : Json} {x y : α} (hx : IsForm v x) (hy : IsForm v y) : x = y
  /-- What was read is read again from what it is written as. -/
  rereads {v : Json} {x : α} (h : ofJson? v = some x) : ofJson? (toJson x) = some x
  /-- All forms of a value are read alike. -/
  agree {v v' : Json} {x : α} (h : IsForm v x) (h' : IsForm v' x) :
    ofJson? (α := α) v = ofJson? v'

/-- The law of forms is all that this takes. -/
theorem ReadsForms.of_lawfulForms (α : Type) [JsonForm α] [HasForms α] [LawfulForms α] :
    ReadsForms α where
  reads_iff := ofJson?_eq_some_iff
  unique := IsForm.unique
  rereads {_ x} _ := ofJson?_toJson x
  agree h h' := ((ofJson?_eq_some_iff _ _).2 h).trans ((ofJson?_eq_some_iff _ _).2 h').symm

/-- **Reports are read from their forms**, and so is every part of a report. -/
theorem reports_read_from_forms :
    ReadsForms Report ∧ ReadsForms Tool ∧ ReadsForms CatalogInfo ∧ ReadsForms FileOutcome ∧
      ReadsForms RunVerdict ∧ ReadsForms Evidence ∧ ReadsForms WriteEvidence ∧
      ReadsForms EncryptionEvidence ∧ ReadsForms Verdict ∧ ReadsForms Finding ∧
      ReadsForms Signal ∧ ReadsForms SignalCategory :=
  ⟨.of_lawfulForms _, .of_lawfulForms _, .of_lawfulForms _, .of_lawfulForms _,
    .of_lawfulForms _, .of_lawfulForms _, .of_lawfulForms _, .of_lawfulForms _,
    .of_lawfulForms _, .of_lawfulForms _, .of_lawfulForms _, .of_lawfulForms _⟩

end WriteGate
