import WriteGate.CommandLine.Usage

/-!
# From arguments to settings

Arguments are read from left to right. An option may stand anywhere among the
paths and has its value attached by an equals sign or in the next argument;
after a bare double hyphen everything is a path.

A value that stands in an argument of its own is *pending* until something else
begins, and it is judged only then. So when two things are wrong with the
arguments, an unknown option is reported before the pending value in front of it,
while an option or flag that is known first has that value judged.
-/

namespace WriteGate.CommandLine

/-! ## Integers -/

/-- One more decimal digit of a number whose absolute value must not pass a limit. -/
def appendDigit (limit : Nat) (overflow : IntegerFault) (n : Nat) (c : Char) :
    Except IntegerFault Nat :=
  if !c.isDigit then .error .invalidDigit
  else
    let n := 10 * n + (c.toNat - '0'.toNat)
    if n ≤ limit then .ok n else .error overflow

/-- The greatest integer of sixty-four bits; the least is one further from zero. -/
def maxInteger : Nat := 9223372036854775807

/-- **The integer of sixty-four bits that a text writes**: digits behind an optional sign.
The first character that is wrong, or makes the number too great, decides on the
fault. -/
def readInteger : List Char → Except IntegerFault Int
  | [] => .error .empty
  | ['+'] => .error .invalidDigit
  | ['-'] => .error .invalidDigit
  | '-' :: digits =>
    (digits.foldlM (appendDigit (maxInteger + 1) .tooSmall) 0).map fun n => -(n : Int)
  | '+' :: digits => (digits.foldlM (appendDigit maxInteger .tooLarge) 0).map Int.ofNat
  | digits => (digits.foldlM (appendDigit maxInteger .tooLarge) 0).map Int.ofNat

/-! ## Arguments -/

/-- What an argument is by its spelling. -/
inductive Argument
  /-- The mark behind which everything is a path. -/
  | separator
  /-- A name behind two hyphens, and the value attached to it. -/
  | long (name : String) (value : Option String)
  /-- A letter behind one hyphen. More letters may follow, but the first one already
  decides. -/
  | short (letter : Char)
  /-- Anything else, a single hyphen included. -/
  | operand (text : String)
deriving DecidableEq, Repr, Inhabited

/-- What an argument is. -/
def Argument.ofString (text : String) : Argument :=
  match text.toList with
  | ['-', '-'] => .separator
  | '-' :: '-' :: rest =>
    .long (String.ofList (rest.takeWhile (· != '=')))
      (if rest.contains '=' then some (String.ofList ((rest.dropWhile (· != '=')).drop 1))
        else none)
  | '-' :: letter :: _ => .short letter
  | _ => .operand text

/-! ## Settings -/

/-- What a run is asked to do. -/
structure Settings where
  /-- The paths, in order. -/
  paths : List String
  /-- How the report is put out. -/
  format : Format
  /-- The file that it is put into, instead of the standard output. -/
  out : Option String
  /-- The number of workers. -/
  jobs : UInt16
deriving DecidableEq, Repr, Inhabited

/-- Why there are no settings. -/
inductive Stop
  /-- A flag asks for information instead. -/
  | information (flag : Flag)
  /-- The arguments are mistaken. -/
  | mistake (e : UsageError)
deriving DecidableEq, Repr, Inhabited

/-- The settings read so far. -/
structure Draft where
  /-- The paths, in order. -/
  paths : List String
  /-- The format, if it was given. -/
  format : Option Format
  /-- The file for the report, if it was given. -/
  out : Option String
  /-- The number of workers, if it was given. -/
  jobs : Option UInt16
deriving DecidableEq, Repr, Inhabited

/-- What was read and is not judged yet. -/
inductive Pending
  /-- Nothing. -/
  | nothing
  /-- Paths, in order. -/
  | operands (texts : List String)
  /-- An option, and its value if that was read. -/
  | setting (s : Setting) (value : Option String)
deriving DecidableEq, Repr, Inhabited

namespace Draft

/-- The draft before any argument. -/
def blank : Draft where
  paths := []
  format := none
  out := none
  jobs := none

/-- The number of workers that a value gives. -/
def readJobs (value : String) : Except UsageError UInt16 :=
  match readInteger value.toList with
  | .error why => .error (.jobsNoInteger value why)
  | .ok n =>
    if 1 ≤ n ∧ n ≤ maxJobs then .ok (UInt16.ofNat n.toNat)
    else .error (.jobsOutOfRange value n)

/-- Judges the value of an option. It must be the first for this option. -/
def set (d : Draft) (s : Setting) (value : String) : Except UsageError Draft :=
  match s with
  | .format =>
    if d.format.isSome then .error (.repeatedSetting .format)
    else if value.isEmpty then .error (.missingValue .format)
    else
      match Format.ofName? value with
      | some format => .ok { d with format := some format }
      | none => .error (.unknownFormat value)
  | .out =>
    if d.out.isSome then .error (.repeatedSetting .out)
    else if value.isEmpty then .error (.missingValue .out)
    else .ok { d with out := some value }
  | .jobs =>
    if d.jobs.isSome then .error (.repeatedSetting .jobs)
    else (readJobs value).map fun jobs => { d with jobs := some jobs }

/-- Judges what is pending. -/
def settle (d : Draft) : Pending → Except UsageError Draft
  | .nothing => .ok d
  | .operands texts =>
    if texts.any String.isEmpty then .error .emptyPath
    else .ok { d with paths := d.paths ++ texts }
  | .setting s none => .error (.missingValue s)
  | .setting s (some value) => d.set s value

/-- The settings that a draft makes, with the defaults for what was not given. -/
def finish (d : Draft) : Except UsageError Settings :=
  if d.paths.isEmpty then .error .missingPaths
  else .ok
    { paths := d.paths
      format := d.format.getD .text
      out := d.out
      jobs := d.jobs.getD 1 }

end Draft

/-- A mistake as the reason why there are no settings. -/
def mistaken {α : Type} (result : Except UsageError α) : Except Stop α :=
  result.mapError Stop.mistake

/-- Reads arguments behind a draft and what is pending. -/
def readArguments (d : Draft) (pending : Pending) : List String → Except Stop Draft
  | [] => mistaken (d.settle pending)
  | argument :: rest =>
    match Argument.ofString argument with
    | .separator => mistaken do (← d.settle pending).settle (.operands rest)
    | .long name value =>
      match Flag.all.find? (·.name == name), Setting.all.find? (·.name == name), value with
      | some flag, _, some value => .error (.mistake (.unexpectedValue flag value))
      | some flag, _, none =>
        (mistaken (d.settle pending)).bind fun _ => .error (.information flag)
      | none, some s, some value =>
        (mistaken ((d.settle pending).bind (·.set s value))).bind
          (readArguments · .nothing rest)
      | none, some s, none =>
        (mistaken (d.settle pending)).bind (readArguments · (.setting s none) rest)
      | none, none, _ => .error (.mistake (.unexpectedArgument ("--" ++ name)))
    | .short letter =>
      match Flag.all.find? (·.letter == letter) with
      | some flag => (mistaken (d.settle pending)).bind fun _ => .error (.information flag)
      | none =>
        .error (.mistake (.unexpectedArgument (String.ofList ['-', letter])))
    | .operand text =>
      match pending with
      | .setting s none => readArguments d (.setting s (some text)) rest
      | .operands texts => readArguments d (.operands (texts ++ [text])) rest
      | other => (mistaken (d.settle other)).bind (readArguments · (.operands [text]) rest)

/-- **The settings that arguments describe**, or why there are none. -/
def settings (arguments : List String) : Except Stop Settings :=
  (readArguments .blank .nothing arguments).bind fun d => mistaken d.finish

end WriteGate.CommandLine
