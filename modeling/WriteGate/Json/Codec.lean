import WriteGate.Json.Basic

/-!
# Types with a JSON form

A type has a form in which it is written, and may be read from more forms than
that one. Two rules are shared by all types of this library.

* A record is written as an object with its fields in order. It is read from an
  object that has its fields, whatever else it has and in whatever order, and
  also from an array of exactly its fields in order.
* A constant of an enumeration is written as its name. It is read from its name,
  and also from an object whose one entry gives that name the absent value.

The fields of a record come out of either shape as *slots*, so that each type
says only once what its fields are.
-/

namespace WriteGate

/-- A type with a JSON form. -/
class JsonForm (α : Type) where
  /-- The form in which a value is written. -/
  toJson : α → Json
  /-- The value that a form denotes, if it denotes one. -/
  ofJson? : Json → Option α

namespace JsonForm

instance : JsonForm String where
  toJson := .str
  ofJson?
    | .str value => some value
    | _ => none

instance : JsonForm Bool where
  toJson := .bool
  ofJson?
    | .bool value => some value
    | _ => none

/-- An integer of thirty-two bits is written as a number, and read from a number written
as an integer if it is in range. -/
instance : JsonForm Int32 where
  toJson value := .int value.toInt
  ofJson?
    | .int value =>
      if -2147483648 ≤ value ∧ value ≤ 2147483647 then some (Int32.ofInt value) else none
    | _ => none

instance {α : Type} [JsonForm α] : JsonForm (List α) where
  toJson values := .arr (values.map toJson)
  ofJson?
    | .arr items => items.mapM ofJson?
    | _ => none

/-- **The constants of an enumeration by name.** -/
@[reducible] def ofNames {α : Type} (constants : List α) (name : α → String) : JsonForm α where
  toJson value := .str (name value)
  ofJson?
    | .str text => constants.find? (name · == text)
    | .obj [(text, .null)] => constants.find? (name · == text)
    | _ => none

end JsonForm

namespace Json

/-- **The slots of a record** with the given field names: in an object, the entry of each
field, if there is one; in an array of as many items, the items. -/
def slots? (names : List String) : Json → Option (List (Option Json))
  | obj entries => some (names.map (valueOf? entries))
  | arr items => if items.length = names.length then some (items.map some) else none
  | _ => none

/-- The value of a field that must be present. -/
def required? {α : Type} [JsonForm α] (slot : Option Json) : Option α :=
  slot.bind JsonForm.ofJson?

/-- The value of a field that may be absent, which is the same as the absent value. -/
def optional? {α : Type} [JsonForm α] : Option Json → Option (Option α)
  | none => some none
  | some .null => some none
  | some v => (JsonForm.ofJson? v).map some

/-- How a field that may be absent is written. -/
def ofOption {α : Type} [JsonForm α] : Option α → Json
  | none => .null
  | some value => JsonForm.toJson value

end Json

end WriteGate
