import WriteGate.Proofs.Json.RoundTrip
import WriteGate.Proofs.Report.Forms

/-!
# Reports read back

Nothing of a report is lost in writing. The way back has two halves that meet in
a JSON value: the text is read as the value that was written, because the value
is a plain one (`PlainForm`), and that value is read as the report, because it is
one of the forms of the report (`LawfulForms`). Both halves are laws of the type,
passed from the fields to the record, so a report has them because a string, a
truth value, a number and a constant have them.

What is left for the whole is that a text is read as one value only, and so
cannot be the text of two reports (`writing_loses_nothing`).
-/

namespace WriteGate

open Json JsonForm

/-! ## Plain forms -/

/-- **A type that is written in values which texts hold as they are.** -/
class PlainForm (α : Type) [JsonForm α] : Prop where
  /-- What a value is written as repeats no name and has no fractions. -/
  plain_toJson (x : α) : Plain (toJson x)

export PlainForm (plain_toJson)

attribute [simp] plain_toJson

instance : PlainForm String where
  plain_toJson := .str

instance : PlainForm Bool where
  plain_toJson := .bool

instance : PlainForm Int32 where
  plain_toJson x := .int x.toInt

instance {α : Type} [JsonForm α] [PlainForm α] : PlainForm (List α) where
  plain_toJson xs := by
    refine .arr fun item hitem => ?_
    obtain ⟨x, -, rfl⟩ := List.mem_map.1 hitem
    exact plain_toJson x

@[simp] theorem plain_ofOption {α : Type} [JsonForm α] [PlainForm α] (x : Option α) :
    Plain (ofOption x) := by
  cases x with
  | none => exact .null
  | some x => exact plain_toJson x

instance : PlainForm SignalCategory where
  plain_toJson x := .str x.name

instance : PlainForm Signal where
  plain_toJson x := .str x.name

instance : PlainForm Verdict where
  plain_toJson x := .str x.name

instance : PlainForm Finding where
  plain_toJson x := .str x.name

instance : PlainForm WriteEvidence where
  plain_toJson _ := .obj (by simp) (by simp)

instance : PlainForm EncryptionEvidence where
  plain_toJson _ := .obj (by simp) (by simp)

instance : PlainForm Evidence where
  plain_toJson _ := .obj (by simp) (by simp)

instance : PlainForm FileOutcome where
  plain_toJson _ := .obj (by simp) (by simp)

instance : PlainForm RunVerdict where
  plain_toJson _ := .obj (by simp) (by simp)

instance : PlainForm Tool where
  plain_toJson _ := .obj (by simp) (by simp)

instance : PlainForm CatalogInfo where
  plain_toJson _ := .obj (by simp) (by simp)

instance : PlainForm Report where
  plain_toJson _ := .obj (by simp) (by simp)

/-! ## There and back -/

/-- **Writing loses nothing** of a value: both layouts of it are texts of one JSON value, and
that value is read as the one that was written. -/
def LosesNothing (α : Type) [JsonForm α] : Prop :=
  ∀ x : α, ∃ v : Json,
    read? (toJson x).compact = some v ∧ read? (toJson x).spread = some v ∧ ofJson? v = some x

/-- Plain forms among the forms of a value are all that this takes. -/
theorem LosesNothing.of_plainForm (α : Type) [JsonForm α] [HasForms α] [LawfulForms α]
    [PlainForm α] : LosesNothing α :=
  fun x => ⟨toJson x, read?_compact (plain_toJson x), read?_spread (plain_toJson x),
    ofJson?_toJson x⟩

namespace Report

/-- **The JSON texts of a report**: without blanks, over lines, and over lines with an end
to the last, which is how a run prints it. -/
def jsonTexts (r : Report) : List String := [(toJson r).compact, (toJson r).spread, r.toJsonText]

/-- Every text of a report is read as the value that the report is written as. -/
theorem read?_of_mem_jsonTexts {r : Report} {text : String} (h : text ∈ r.jsonTexts) :
    read? text = some (toJson r) := by
  have hfeed : Blank "\n".toList := by simp [Blank, isTokenBlank]
  simp only [jsonTexts, List.mem_cons, List.not_mem_nil, or_false] at h
  rcases h with rfl | rfl | rfl
  · exact read?_compact (plain_toJson r)
  · exact read?_spread (plain_toJson r)
  · exact read?_write Layout.isBlank_spread (plain_toJson r) 0 "\n" hfeed

end Report

/-- **Writing reports loses nothing**, nor does writing any part of one, and no text is the
text of two reports. -/
theorem writing_loses_nothing :
    (LosesNothing Report ∧ LosesNothing Tool ∧ LosesNothing CatalogInfo ∧
      LosesNothing FileOutcome ∧ LosesNothing RunVerdict ∧ LosesNothing Evidence ∧
      LosesNothing WriteEvidence ∧ LosesNothing EncryptionEvidence ∧ LosesNothing Verdict ∧
      LosesNothing Finding ∧ LosesNothing Signal ∧ LosesNothing SignalCategory) ∧
    ∀ r r' : Report, ∀ text ∈ r.jsonTexts, text ∈ r'.jsonTexts → r = r' := by
  constructor
  · exact ⟨.of_plainForm _, .of_plainForm _, .of_plainForm _, .of_plainForm _,
      .of_plainForm _, .of_plainForm _, .of_plainForm _, .of_plainForm _,
      .of_plainForm _, .of_plainForm _, .of_plainForm _, .of_plainForm _⟩
  · intro r r' text h h'
    have hvalue : toJson r = toJson r' := by
      rw [← Option.some.injEq, ← Report.read?_of_mem_jsonTexts h,
        Report.read?_of_mem_jsonTexts h']
    rw [← Option.some.injEq, ← ofJson?_toJson r, hvalue, ofJson?_toJson]

end WriteGate
