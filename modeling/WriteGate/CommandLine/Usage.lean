import WriteGate.Text.Terminal

/-!
# What the command line knows

The options, the flags, and the mistakes that can be made with them. A mistake
is kept as its cause; `UsageError.message` gives the words.
-/

namespace WriteGate.CommandLine

/-- The form in which a report is put out. -/
inductive Format
  | json
  | text
deriving DecidableEq, Repr, Inhabited

namespace Format

/-- Both formats. -/
def all : List Format := [json, text]

/-- The word that chooses a format. -/
def name : Format → String
  | json => "json"
  | text => "text"

/-- The format that a word chooses; case matters. -/
def ofName? (word : String) : Option Format := all.find? (·.name == word)

end Format

/-- An option, which takes a value. -/
inductive Setting
  /-- How the report is put out. -/
  | format
  /-- The file that it is put into. -/
  | out
  /-- The number of workers. -/
  | jobs
deriving DecidableEq, Repr, Inhabited

namespace Setting

/-- Every option. -/
def all : List Setting := [format, out, jobs]

/-- The name of an option. -/
def name : Setting → String
  | format => "format"
  | out => "out"
  | jobs => "jobs"

/-- How an option and its value are shown. -/
def usage (s : Setting) : String :=
  "--" ++ s.name ++ " <" ++ s.name.map Char.toUpper ++ ">"

end Setting

/-- A flag, which takes no value and asks for information. -/
inductive Flag
  /-- Asks for the help text. -/
  | help
  /-- Asks for the version. -/
  | version
deriving DecidableEq, Repr, Inhabited

namespace Flag

/-- Both flags. -/
def all : List Flag := [help, version]

/-- The name of a flag. -/
def name : Flag → String
  | help => "help"
  | version => "version"

/-- The short name of a flag. -/
def letter : Flag → Char
  | help => 'h'
  | version => 'V'

end Flag

/-- Why a text is no integer of sixty-four bits. -/
inductive IntegerFault
  | empty
  | invalidDigit
  | tooLarge
  | tooSmall
deriving DecidableEq, Repr, Inhabited

/-- What a text that is no integer suffers from. -/
def IntegerFault.message : IntegerFault → String
  | empty => "cannot parse integer from empty string"
  | invalidDigit => "invalid digit found in string"
  | tooLarge => "number too large to fit in target type"
  | tooSmall => "number too small to fit in target type"

/-- The greatest number of workers. -/
def maxJobs : Nat := 65535

/-- A mistake in the arguments. -/
inductive UsageError
  /-- There are no paths. -/
  | missingPaths
  /-- An empty path. -/
  | emptyPath
  /-- An option or flag that is not known, as it is spelled. -/
  | unexpectedArgument (spelling : String)
  /-- An option without a value, or with an empty one. -/
  | missingValue (setting : Setting)
  /-- A word that chooses no format. -/
  | unknownFormat (value : String)
  /-- A number of workers that is no integer. -/
  | jobsNoInteger (value : String) (why : IntegerFault)
  /-- A number of workers that is out of range. -/
  | jobsOutOfRange (value : String) (number : Int)
  /-- An option that is given twice. -/
  | repeatedSetting (setting : Setting)
  /-- A flag with a value. -/
  | unexpectedValue (flag : Flag) (value : String)
deriving DecidableEq, Repr, Inhabited

namespace UsageError

/-- Said where a value is missing. -/
def valueRequired (subject : String) : String :=
  "a value is required for '" ++ subject ++ "' but none was supplied"

/-- Said of a value that an option does not take. -/
def valueInvalid (value : String) (setting : Setting) : String :=
  "invalid value '" ++ value ++ "' for '" ++ setting.usage ++ "'"

/-- What is said of a mistake. -/
def message : UsageError → String
  | missingPaths => "the following required arguments were not provided:"
  | emptyPath => valueRequired "<PATHS>..."
  | unexpectedArgument spelling => "unexpected argument '" ++ spelling ++ "' found"
  | missingValue setting => valueRequired setting.usage
  | unknownFormat value => valueInvalid value .format
  | jobsNoInteger value why => valueInvalid value .jobs ++ ": " ++ why.message
  | jobsOutOfRange value number =>
    valueInvalid value .jobs ++ ": " ++ toString number ++ " is not in 1..=" ++ toString maxJobs
  | repeatedSetting setting =>
    "the argument '" ++ setting.usage ++ "' cannot be used multiple times"
  | unexpectedValue flag value =>
    "unexpected value '" ++ value ++ "' for '--" ++ flag.name ++
      "' found; no more were expected"

/-- The mistake with its quotations reduced to what a terminal shows of them. -/
def visible : UsageError → UsageError
  | missingPaths => missingPaths
  | emptyPath => emptyPath
  | unexpectedArgument spelling => unexpectedArgument (Text.visible spelling)
  | missingValue setting => missingValue setting
  | unknownFormat value => unknownFormat (Text.visible value)
  | jobsNoInteger value why => jobsNoInteger (Text.visible value) why
  | jobsOutOfRange value number => jobsOutOfRange (Text.visible value) number
  | repeatedSetting setting => repeatedSetting setting
  | unexpectedValue flag value => unexpectedValue flag (Text.visible value)

end UsageError

/-- The name under which the program is called. -/
def programName : String := "riskgate"

/-- The version of the program. -/
def programVersion : String := "0.1.0"

/-- The answer to the flag for the version. -/
def versionText : String := programName ++ " " ++ programVersion ++ "\n"

/-- The answer to the flag for help. -/
def helpText : String := "\n".intercalate
  ["Fails when Python sources write to disk without an encryption signal",
    "",
    "Usage: " ++ programName ++ " [OPTIONS] <PATHS>...",
    "",
    "Arguments:",
    "  <PATHS>...  Python source files to check; missing or non-.py paths are skipped. " ++
      "Put `--` before paths that start with `-`",
    "",
    "Options:",
    "      --format <FORMAT>  Output format [default: text] [possible values: json, text]",
    "      --out <OUT>        Write output to a file instead of stdout",
    "      --jobs <JOBS>      Number of worker threads used to evaluate files [default: 1]",
    "  -h, --help             Print help",
    "  -V, --version          Print version",
    ""]

end WriteGate.CommandLine
