import Mathlib.Data.List.Forall2
import Mathlib.Data.List.Nodup
import WriteGate.Json.Codec

/-!
# The forms of a value

A value is written in one form and may be read from many, and this module says
from which: `IsForm v x` holds when `v` is a form of `x`. It is said of the two
sides alone and not of how the reading goes. A record has its fields, in an
object by their names and in an array by their places; a constant has its name,
by itself or as the name of an entry without a value; a list has its items.

That the reading accepts the forms of a value, and these only, is `LawfulForms`.
The law is carried from the fields to the record: a slot of a record is read as
the field wants it, and the slots come out of either shape of the record in the
order of the fields.
-/

namespace WriteGate

open Json JsonForm

/-- **A type whose values have forms.** -/
class HasForms (α : Type) where
  /-- Whether a JSON value is a form of a value of the type. -/
  IsForm : Json → α → Prop

export HasForms (IsForm)

/-- **The forms of the type are what is read**, and what is written is one of them. -/
class LawfulForms (α : Type) [JsonForm α] [HasForms α] : Prop where
  /-- A JSON value is read as a value exactly when it is a form of it. -/
  ofJson?_eq_some_iff (v : Json) (x : α) : ofJson? v = some x ↔ IsForm v x
  /-- A value is written in one of its forms. -/
  isForm_toJson (x : α) : IsForm (toJson x) x

export LawfulForms (ofJson?_eq_some_iff isForm_toJson)

section Law

variable {α : Type} [JsonForm α] [HasForms α] [LawfulForms α]

/-- **What is written is read back.** -/
theorem ofJson?_toJson (x : α) : ofJson? (toJson x) = some x :=
  (ofJson?_eq_some_iff _ _).2 (isForm_toJson x)

/-- **No form is ambiguous.** -/
theorem IsForm.unique {v : Json} {x y : α} (hx : IsForm v x) (hy : IsForm v y) : x = y := by
  rw [← ofJson?_eq_some_iff] at hx hy
  exact Option.some.inj (hx.symm.trans hy)

end Law

/-! ## Strings, truth values, numbers and lists -/

instance : HasForms String where
  IsForm v x := v = .str x

instance : HasForms Bool where
  IsForm v x := v = .bool x

/-- A number of thirty-two bits has one form, an integer in range. -/
instance : HasForms Int32 where
  IsForm v x := ∃ n : Int, v = .int n ∧ -2147483648 ≤ n ∧ n ≤ 2147483647 ∧ x.toInt = n

/-- The forms of a list are arrays with a form of each item. -/
instance {α : Type} [HasForms α] : HasForms (List α) where
  IsForm v xs := ∃ items, v = .arr items ∧ List.Forall₂ IsForm items xs

instance : LawfulForms String where
  ofJson?_eq_some_iff v x := by
    show (match v with | .str value => some value | _ => none) = some x ↔ v = .str x
    cases v <;> simp
  isForm_toJson _ := rfl

instance : LawfulForms Bool where
  ofJson?_eq_some_iff v x := by
    show (match v with | .bool value => some value | _ => none) = some x ↔ v = .bool x
    cases v <;> simp
  isForm_toJson _ := rfl

theorem Int32.ofInt_eq_iff {n : Int} (hlow : -2147483648 ≤ n) (hhigh : n ≤ 2147483647)
    (x : Int32) : Int32.ofInt n = x ↔ x.toInt = n := by
  constructor
  · rintro rfl
    exact Int32.toInt_ofInt_of_le hlow (by omega)
  · rintro rfl
    exact Int32.ofInt_toInt x

instance : LawfulForms Int32 where
  ofJson?_eq_some_iff v x := by
    cases v with
    | int n =>
      show (if -2147483648 ≤ n ∧ n ≤ 2147483647 then some (Int32.ofInt n) else none) = some x
        ↔ ∃ m : Int, Json.int n = .int m ∧ -2147483648 ≤ m ∧ m ≤ 2147483647 ∧ x.toInt = m
      by_cases hrange : -2147483648 ≤ n ∧ n ≤ 2147483647
      · rw [if_pos hrange, Option.some.injEq, Int32.ofInt_eq_iff hrange.1 hrange.2]
        constructor
        · exact fun h => ⟨n, rfl, hrange.1, hrange.2, h⟩
        · rintro ⟨m, hm, -, -, h⟩
          exact h.trans (Json.int.inj hm).symm
      · rw [if_neg hrange]
        constructor
        · exact nofun
        · rintro ⟨m, hm, hlow, hhigh, -⟩
          rw [Json.int.inj hm] at hrange
          exact absurd ⟨hlow, hhigh⟩ hrange
    | _ => exact ⟨nofun, nofun⟩
  isForm_toJson x := by
    have hlow := Int32.le_toInt x
    have hhigh := Int32.toInt_lt x
    exact ⟨x.toInt, rfl, by omega, by omega, rfl⟩

theorem mapM_eq_some_iff {α β : Type} {f : α → Option β} {xs : List α} {ys : List β} :
    xs.mapM f = some ys ↔ List.Forall₂ (fun x y => f x = some y) xs ys := by
  induction xs generalizing ys with
  | nil => simp [eq_comm]
  | cons x xs ih =>
    rw [List.mapM_cons, List.forall₂_cons_left_iff]
    simp only [Option.pure_def, Option.bind_eq_bind, Option.bind_eq_some_iff, Option.some.injEq, ih]
    constructor
    · rintro ⟨y, hy, ys, hys, rfl⟩
      exact ⟨y, ys, hy, hys, rfl⟩
    · rintro ⟨y, ys, hy, hys, rfl⟩
      exact ⟨y, hy, ys, hys, rfl⟩

instance {α : Type} [JsonForm α] [HasForms α] [LawfulForms α] : LawfulForms (List α) where
  ofJson?_eq_some_iff v xs := by
    have hitems : ∀ items : List Json,
        items.mapM (ofJson? (α := α)) = some xs ↔ List.Forall₂ IsForm items xs := by
      intro items
      simp only [mapM_eq_some_iff, ofJson?_eq_some_iff]
    cases v with
    | arr items =>
      refine (hitems items).trans ⟨fun h => ⟨items, rfl, h⟩, ?_⟩
      rintro ⟨others, hothers, h⟩
      exact Json.arr.inj hothers ▸ h
    | _ => exact ⟨nofun, nofun⟩
  isForm_toJson xs := by
    refine ⟨xs.map toJson, rfl, ?_⟩
    rw [List.forall₂_map_left_iff, List.forall₂_same]
    exact fun x _ => isForm_toJson x

namespace Json

/-! ## Constants -/

/-- **The forms of a constant**: its name, and the object whose one entry gives that name
the absent value. -/
inductive IsConstantForm (name : String) : Json → Prop
  | name : IsConstantForm name (.str name)
  | entry : IsConstantForm name (.obj [(name, .null)])

/-- A constant is found by its name, if all are listed and no two share a name. -/
theorem find?_name_iff {α : Type} {constants : List α} {name : α → String}
    (hall : ∀ x, x ∈ constants) (hnames : (constants.map name).Nodup) (text : String) (x : α) :
    constants.find? (name · == text) = some x ↔ text = name x := by
  have heq : ∀ {y}, constants.find? (name · == text) = some y → name y = text := by
    intro y h
    exact beq_iff_eq.1 (List.find?_some (p := (name · == text)) h)
  constructor
  · exact fun h => (heq h).symm
  · rintro rfl
    have hsome : (constants.find? (name · == name x)).isSome :=
      List.find?_isSome.2 ⟨x, hall x, beq_self_eq_true _⟩
    obtain ⟨y, hy⟩ := Option.isSome_iff_exists.1 hsome
    rw [hy, List.inj_on_of_nodup_map hnames (hall y) (hall x) (heq hy)]

/-- **An enumeration is read from the forms of its constants.** -/
theorem ofNames_eq_some_iff {α : Type} {constants : List α} {name : α → String}
    (hall : ∀ x, x ∈ constants) (hnames : (constants.map name).Nodup) (v : Json) (x : α) :
    (JsonForm.ofNames constants name).ofJson? v = some x ↔ IsConstantForm (name x) v := by
  have hfind := find?_name_iff hall hnames
  constructor
  · intro h
    cases v with
    | str text =>
      rw [(hfind text x).1 h]
      exact .name
    | obj entries =>
      match entries with
      | [(text, .null)] =>
        rw [(hfind text x).1 h]
        exact .entry
    | _ => cases h
  · rintro (_ | _)
    · exact (hfind (name x) x).2 rfl
    · exact (hfind (name x) x).2 rfl

/-! ## Slots -/

/-- What stands in an object under a name, if anything does. A name stands in an object at
most once; if entries repeat one, the first counts. -/
def IsEntry (entries : List (String × Json)) (name : String) : Option Json → Prop
  | some v => ∃ before after, entries = before ++ (name, v) :: after ∧ ∀ e ∈ before, e.1 ≠ name
  | none => ∀ e ∈ entries, e.1 ≠ name

theorem isEntry_iff {entries : List (String × Json)} {name : String} {slot : Option Json} :
    IsEntry entries name slot ↔ valueOf? entries name = slot := by
  unfold valueOf?
  cases slot with
  | none =>
    rw [List.lookup_eq_none_iff]
    exact forall₂_congr fun e _ => by rw [bne_iff_ne, ne_comm]
  | some v =>
    rw [List.lookup_eq_some_iff]
    refine exists_congr fun before => exists_congr fun after => and_congr_right fun _ => ?_
    exact forall₂_congr fun e _ => by rw [bne_iff_ne, ne_comm]

/-- What may stand in the slot of a field that must be present. -/
def IsRequired {α : Type} [HasForms α] (slot : Option Json) (x : α) : Prop :=
  ∃ v, slot = some v ∧ IsForm v x

/-- What may stand in the slot of a field that may be absent. -/
def IsOptional {α : Type} [HasForms α] (slot : Option Json) : Option α → Prop
  | none => slot = none ∨ slot = some .null
  | some x => IsRequired slot x

@[simp] theorem required?_eq_some_iff {α : Type} [JsonForm α] [HasForms α] [LawfulForms α]
    {slot : Option Json} {x : α} : required? slot = some x ↔ IsRequired slot x := by
  rw [required?, Option.bind_eq_some_iff]
  simp only [ofJson?_eq_some_iff, IsRequired]

/-- The absent value is no form of a string, so it stands for the absence of one. -/
@[simp] theorem optional?_eq_some_iff {slot : Option Json} {x : Option String} :
    optional? slot = some x ↔ IsOptional slot x := by
  cases slot with
  | none => cases x <;> simp [optional?, IsOptional, IsRequired]
  | some v =>
    by_cases hv : v = .null
    · subst hv
      cases x <;> simp [optional?, IsOptional, IsRequired, IsForm]
    · have hread : optional? (α := String) (some v) = (ofJson? v).map some := by
        cases v <;> first | rfl | exact absurd rfl hv
      rw [hread]
      cases x with
      | none => simp [IsOptional, hv]
      | some x => simp [IsOptional, IsRequired, ofJson?_eq_some_iff]

@[simp] theorem isRequired_toJson {α : Type} [JsonForm α] [HasForms α] [LawfulForms α] (x : α) :
    IsRequired (some (toJson x)) x :=
  ⟨toJson x, rfl, isForm_toJson x⟩

@[simp] theorem isOptional_ofOption {α : Type} [JsonForm α] [HasForms α] [LawfulForms α]
    (x : Option α) : IsOptional (some (ofOption x)) x := by
  cases x with
  | none => exact .inr rfl
  | some x => exact isRequired_toJson x

/-! ## Records -/

/-- A field of a record. -/
structure RecordField (α : Type) where
  /-- The name of the field in objects. -/
  name : String
  /-- Whether what stands in the slot of the field goes with a value of the record. -/
  Fits : Option Json → α → Prop

/-- A field that must be present. -/
def RecordField.required {α β : Type} [HasForms β] (name : String) (value : α → β) :
    RecordField α where
  name := name
  Fits slot x := IsRequired slot (value x)

/-- A field that may be absent. -/
def RecordField.optional {α β : Type} [HasForms β] (name : String) (value : α → Option β) :
    RecordField α where
  name := name
  Fits slot x := IsOptional slot (value x)

section Fields

variable {α β : Type} [HasForms β] {name : String} {slot : Option Json} {x : α}

@[simp] theorem RecordField.fits_required (value : α → β) :
    (RecordField.required name value).Fits slot x ↔ IsRequired slot (value x) := Iff.rfl

@[simp] theorem RecordField.fits_optional (value : α → Option β) :
    (RecordField.optional name value).Fits slot x ↔ IsOptional slot (value x) := Iff.rfl

end Fields

/-- **The forms of a record**: an object whose entries fit the fields by name, whatever else
it has and in whatever order, and an array whose items fit the fields one by one. -/
inductive IsRecordForm {α : Type} (fields : List (RecordField α)) (x : α) : Json → Prop
  | obj {entries : List (String × Json)}
      (h : ∀ field ∈ fields, ∃ slot, IsEntry entries field.name slot ∧ field.Fits slot x) :
      IsRecordForm fields x (.obj entries)
  | arr {items : List Json}
      (h : List.Forall₂ (fun field v => field.Fits (some v) x) fields items) :
      IsRecordForm fields x (.arr items)

theorem length_of_slots? {v : Json} {names : List String} {slots : List (Option Json)}
    (h : v.slots? names = some slots) : slots.length = names.length := by
  cases v with
  | obj entries =>
    rw [slots?, Option.some.injEq] at h
    rw [← h, List.length_map]
  | arr items =>
    rw [slots?, Option.ite_none_right_eq_some, Option.some.injEq] at h
    rw [← h.2, List.length_map, h.1]
  | _ => cases h

/-- **A record is a form when its slots fit.** Both shapes come down to one list of slots. -/
theorem isRecordForm_iff {α : Type} {fields : List (RecordField α)} {x : α} {v : Json} :
    IsRecordForm fields x v ↔
      ∃ slots, v.slots? (fields.map RecordField.name) = some slots
        ∧ List.Forall₂ (fun field slot => field.Fits slot x) fields slots := by
  cases v with
  | obj entries =>
    have hslots : (Json.obj entries).slots? (fields.map RecordField.name) =
        some (fields.map fun field => valueOf? entries field.name) := by
      rw [slots?, List.map_map]
      rfl
    constructor
    · rintro (h | _)
      refine ⟨_, hslots, ?_⟩
      rw [List.forall₂_map_right_iff, List.forall₂_same]
      intro field hfield
      obtain ⟨slot, hentry, hfits⟩ := h field hfield
      rwa [isEntry_iff.1 hentry]
    · rintro ⟨slots, hread, h⟩
      rw [hslots, Option.some.injEq] at hread
      subst hread
      rw [List.forall₂_map_right_iff, List.forall₂_same] at h
      exact .obj fun field hfield => ⟨_, isEntry_iff.2 rfl, h field hfield⟩
  | arr items =>
    constructor
    · rintro (_ | h)
      refine ⟨items.map some, ?_, List.forall₂_map_right_iff.2 h⟩
      rw [slots?, if_pos (by rw [List.length_map, h.length_eq])]
    · rintro ⟨slots, hread, h⟩
      rw [slots?, Option.ite_none_right_eq_some, Option.some.injEq] at hread
      obtain ⟨-, rfl⟩ := hread
      exact .arr (List.forall₂_map_right_iff.1 h)
  | _ =>
    constructor
    · nofun
    · rintro ⟨slots, hread, -⟩
      cases hread

/-- **A record is read from its forms**, if slots in order are read from what fits the
fields. -/
theorem eq_some_iff_isRecordForm {α : Type} {fields : List (RecordField α)} {v : Json} {x : α}
    {read : Option α} (names : List String) (hnames : fields.map RecordField.name = names)
    (hnone : v.slots? names = none → read = none)
    (hsome : ∀ slots, v.slots? names = some slots → slots.length = names.length →
      (read = some x ↔ List.Forall₂ (fun field slot => field.Fits slot x) fields slots)) :
    read = some x ↔ IsRecordForm fields x v := by
  rw [isRecordForm_iff, hnames]
  cases hslots : v.slots? names with
  | none =>
    rw [hnone hslots]
    exact ⟨nofun, nofun⟩
  | some slots =>
    refine (hsome slots hslots (length_of_slots? hslots)).trans ⟨fun h => ⟨slots, rfl, h⟩, ?_⟩
    rintro ⟨_, ⟨⟩, h⟩
    exact h

/-- **Fields written in order are a form**, if no two share a name. -/
theorem isRecordForm_of_entries {α : Type} {fields : List (RecordField α)} {x : α}
    {entries : List (String × Json)} (hnames : entries.map Prod.fst = fields.map RecordField.name)
    (hdistinct : (fields.map RecordField.name).Nodup)
    (hfits : List.Forall₂ (fun field entry => field.Fits (some entry.2) x) fields entries) :
    IsRecordForm fields x (.obj entries) := by
  have hentry : ∀ entry ∈ entries, valueOf? entries entry.1 = some entry.2 := by
    intro entry h
    obtain ⟨before, after, rfl⟩ := List.append_of_mem h
    rw [← hnames, List.map_append, List.map_cons] at hdistinct
    refine isEntry_iff.1 ⟨before, after, rfl, fun other hother heq => ?_⟩
    exact List.disjoint_of_nodup_append hdistinct (List.mem_map_of_mem hother)
      (heq ▸ List.mem_cons_self)
  refine isRecordForm_iff.2 ⟨_, rfl, ?_⟩
  have hslots : (fields.map RecordField.name).map (valueOf? entries)
      = entries.map fun entry => some entry.2 := by
    rw [← hnames, List.map_map]
    exact List.map_congr_left hentry
  rw [hslots]
  exact List.forall₂_map_right_iff.2 hfits

end Json

end WriteGate
