/-!
# Values of the interchange format

The values that JSON texts denote. Numbers written as integers are integers of
any size; a number with a fraction or an exponent keeps its spelling, since no
report holds one. An object is a list of entries in order, and a name stands in
it at most once when the object was read from a text.
-/

namespace WriteGate

/-- A JSON value. -/
inductive Json
  /-- The absent value. -/
  | null
  /-- A truth value. -/
  | bool (value : Bool)
  /-- A number written as an integer. -/
  | int (value : Int)
  /-- Any other number, as it is written. Negative zero is one of these, for no integer
  is meant by it. -/
  | decimal (literal : String)
  /-- A string. -/
  | str (value : String)
  /-- An array. -/
  | arr (items : List Json)
  /-- An object, as its entries in order. -/
  | obj (entries : List (String × Json))
deriving Repr, Inhabited

namespace Json

/-- The value that entries give to a name. -/
def valueOf? (entries : List (String × Json)) (name : String) : Option Json :=
  entries.lookup name

/-- Entries with one more: a name that is new comes last, and a name that is there keeps
its place and takes the new value. -/
def insertEntry : List (String × Json) → String → Json → List (String × Json)
  | [], name, value => [(name, value)]
  | e :: rest, name, value =>
    if e.1 == name then (name, value) :: rest else e :: insertEntry rest name value

end Json

end WriteGate
