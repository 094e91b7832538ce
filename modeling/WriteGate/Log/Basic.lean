/-!
# Log events

What the program tells about its own work. An event has a level, the component
that it comes from, a message, and named values. A filter says down to which
level the events of a component and its parts are written. Unless it is told
otherwise the program logs warnings and errors, of which it has none.
-/

namespace WriteGate.Log

/-- How weighty an event is. -/
inductive Level
  | error
  | warn
  | info
  | debug
  | trace
deriving DecidableEq, Repr, Inhabited

namespace Level

/-- Every level, the weightiest first. -/
def all : List Level := [error, warn, info, debug, trace]

/-- The name of a level in a filter, in small letters. -/
def name : Level → String
  | error => "error"
  | warn => "warn"
  | info => "info"
  | debug => "debug"
  | trace => "trace"

/-- The name of a level in a line of the log. -/
def label (level : Level) : String := level.name.map Char.toUpper

/-- How far down the scale a level is. -/
def depth (level : Level) : Nat := all.idxOf level

end Level

/-- Something that happened. -/
structure Event where
  /-- How weighty it is. -/
  level : Level
  /-- The component that it comes from. -/
  component : String
  /-- What happened. -/
  message : String
  /-- The values that belong to it, by name. -/
  values : List (String × String)
deriving DecidableEq, Repr, Inhabited

/-- An event as a line of the log. -/
def Event.line (e : Event) : String :=
  e.level.label ++ " " ++ e.component ++ ": " ++ e.message ++
    String.join (e.values.map fun v => " " ++ v.1 ++ "=" ++ v.2) ++ "\n"

/-! ## Filters -/

/-- What a filter says of a component and its parts. -/
structure Rule where
  /-- The beginning that the name of the component must have. -/
  component : String
  /-- The least weighty level that is written, if any level is. -/
  level : Option Level
deriving DecidableEq, Repr, Inhabited

namespace Rule

/-- The levels by number; zero turns the log off. -/
def levelOfNumber? : Nat → Option (Option Level)
  | 0 => some none
  | n + 1 => (Level.all[n]?).map some

/-- The number that decimal digits write, behind a plus sign if there is one. -/
def numberOf? (word : List Char) : Option Nat :=
  let digits := if word.head? == some '+' then word.drop 1 else word
  if !digits.isEmpty && digits.all Char.isDigit then some (Nat.ofDigitChars 10 digits 0) else none

/-- The level that a word sets: its name in letters of either case, or its number. The outer
result is absent for other words, the inner one where the log is turned off. -/
def levelOf? (word : String) : Option (Option Level) :=
  let small := word.map Char.toLower
  if small == "off" then some none
  else
    match Level.all.find? (·.name == small) with
    | some level => some (some level)
    | none => (numberOf? word.toList).bind levelOfNumber?

/-- Whether a rule may begin with a character. -/
def begins (c : Char) : Bool := c.isAlphanum || 0x80 ≤ c.toNat || c ∈ ['-', ':', '_', '[']

/-- **The rule that a text states**: a level for all components, or a component and a level
with an equals sign between. A component without a level has all its events
written. -/
def ofString? (text : String) : Option Rule :=
  let chars := text.toList
  if !chars.head?.any begins then none
  else
    match levelOf? text with
    | some level => some { component := "", level := level }
    | none =>
      let component := String.ofList (chars.takeWhile (· != '='))
      let word := String.ofList ((chars.dropWhile (· != '=')).drop 1)
      if word.isEmpty then some { component := component, level := some .trace }
      else (levelOf? word).map fun level => { component := component, level := level }

/-- Whether a rule speaks of a component. -/
def covers (r : Rule) (component : String) : Bool :=
  r.component.toList.isPrefixOf component.toList

end Rule

/-- Which events are written: those that the most special rule for their component admits. -/
structure Filter where
  /-- The rules. Of two rules for the same component the later one holds. -/
  rules : List Rule
deriving DecidableEq, Repr, Inhabited

namespace Filter

/-- Warnings and errors of all components. -/
def standard : Filter where
  rules := [{ component := "", level := some .warn }]

/-- **The filter that a setting describes**: rules with commas between. Where there is no
setting, or one of its rules cannot be read, the standard filter holds. -/
def ofSetting (setting : Option String) : Filter :=
  let texts := ((setting.getD "").splitOn ",").filter (!·.isEmpty)
  match texts.mapM Rule.ofString? with
  | none => standard
  | some [] => standard
  | some rules => { rules := rules }

/-- The rule that decides on a component: of those that speak of it, the last one with the
longest name. -/
def ruleFor? (f : Filter) (component : String) : Option Rule :=
  (f.rules.filter (·.covers component)).foldl (fun best r =>
    if best.any (r.component.length < ·.component.length) then best else some r) none

/-- Whether an event is written. -/
def admits (f : Filter) (e : Event) : Bool :=
  match (f.ruleFor? e.component).bind Rule.level with
  | none => false
  | some level => e.level.depth ≤ level.depth

/-- The log of some events. -/
def log (f : Filter) (events : List Event) : String :=
  String.join ((events.filter f.admits).map Event.line)

end Filter

end WriteGate.Log
