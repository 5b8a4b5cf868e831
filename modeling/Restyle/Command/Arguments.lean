-- SUMMARY: The arguments of the command line.
import Restyle.Command.Fix

/-!
# Arguments

The first argument that is not an option names the command. Options may be given once at each level,
with their values behind `=` or as the next argument. After `--` all arguments are file names.
-/

namespace Restyle

/-- How a response is written. -/
inductive Format where
  | text | json
  deriving DecidableEq

/-- What the command line asks for. -/
inductive Request where
  | fix (options : FixOptions) (format : Format)
  | rules (format : Format)
  | version
  | help
  deriving Inhabited

/-- Why arguments do not make a request. -/
inductive UsageError where
  | unknownArgument (text : String)
  | missingValue (option : String)
  | invalidValue (option value : String)
  | repeatedOption (option : String)
  | missingArgument
  | missingCommand
  deriving DecidableEq

namespace Arguments

/-- An argument as it is written. -/
inductive Shape where
  /-- The mark behind which all is plain. -/
  | divider
  /-- A long option, with the value that is attached to it. -/
  | long (name : String) (value : Option String)
  /-- Short options in one. -/
  | short (letters : List Char)
  | plain (text : String)

namespace Shape

/-- Splits at the first `=`. -/
def splitValue (text : List Char) : String × Option String :=
  let name := String.ofList (text.takeWhile fun c => c != '=')
  match text.dropWhile fun c => c != '=' with
  | [] => (name, none)
  | _ :: value => (name, some (String.ofList value))

/-- A single dash is plain. -/
def of (argument : String) : Shape :=
  match argument.toList with
  | ['-', '-'] => divider
  | '-' :: '-' :: rest =>
    let (name, value) := splitValue rest
    long name value
  | '-' :: c :: rest => short (c :: rest)
  | _ => plain argument

def isPlain : Shape → Bool
  | plain _ => true
  | _ => false

end Shape

/-- The options that were given. -/
abbrev Given := List (String × String)

/-- What a walk over arguments leads to. -/
inductive Parsed where
  /-- The options, and the plain arguments; if the walk ends at the first, all that follows it. -/
  | done (options : Given) (plain : List String)
  | version
  | help

/-- A level of the command line: a command or the program itself. -/
structure Level where
  /-- The options with the values they admit. -/
  options : List (String × (String → Bool))
  hasVersion : Bool
  /-- Whether the walk goes on behind a plain argument. -/
  goesOn : Bool
  /-- The plain arguments that it admits. -/
  admitsPlain : String → Bool

namespace Level

/-- Takes the value of an option. -/
def give (l : Level) (given : Given) (option value : String) : Except UsageError Given :=
  match l.options.lookup option with
  | none => .error (.unknownArgument option)
  | some admits =>
    if (given.lookup option).isSome then .error (.repeatedOption option)
    else if admits value then .ok ((option, value) :: given)
    else .error (.invalidValue option value)

/-- The request that a flag makes at once. -/
def flag? (l : Level) (name : String) : Option Parsed :=
  match name with
  | "help" => some .help
  | "version" => if l.hasVersion then some .version else none
  | _ => none

def shortFlag? (l : Level) : Char → Option Parsed
  | 'h' => some .help
  | 'V' => if l.hasVersion then some .version else none
  | _ => none

/-- Walks over arguments. -/
def parse (l : Level) : Given → List String → List String → Except UsageError Parsed
  | given, plain, [] => .ok (.done given plain.reverse)
  | given, plain, argument :: rest =>
    match Shape.of argument with
    | .divider =>
      if l.goesOn then
        match rest.find? fun text => !l.admitsPlain text with
        | some text => .error (.unknownArgument text)
        | none => .ok (.done given (plain.reverse ++ rest))
      else .error (if rest.isEmpty then .missingCommand else .unknownArgument argument)
    | .plain text =>
      if !l.admitsPlain text then .error (.unknownArgument text)
      else if l.goesOn then l.parse given (text :: plain) rest
      else .ok (.done given (text :: rest))
    | .short letters =>
      match letters.head?.bind l.shortFlag? with
      | some parsed => .ok parsed
      | none => .error (.unknownArgument argument)
    | .long name (some value) => do
      if (l.flag? name).isSome then .error (.unknownArgument argument)
      else l.parse (← l.give given name value) plain rest
    | .long name none =>
      match l.flag? name with
      | some parsed => .ok parsed
      | none =>
        if (l.options.lookup name).isNone then .error (.unknownArgument argument)
        else
          match rest with
          | [] => .error (.missingValue name)
          | value :: rest => do
            if (Shape.of value).isPlain then l.parse (← l.give given name value) plain rest
            else .error (.missingValue name)

end Level

/-! ## The levels of this program -/

def logLevels : List String := ["trace", "debug", "info", "warn", "error"]

def isLogLevel (value : String) : Bool := logLevels.contains value

def format? : String → Option Format
  | "text" => some .text
  | "json" => some .json
  | _ => none

def isFormat (value : String) : Bool := (format? value).isSome

/-- A path is never empty. -/
def isPath (value : String) : Bool := !value.isEmpty

def commandNames : List String := ["fix", "rules", "help"]

def top : Level where
  options := [("log-level", isLogLevel)]
  hasVersion := true
  goesOn := false
  admitsPlain := fun name => commandNames.contains name

def fixLevel : Level where
  options :=
    [("config", isPath), ("out-dir", isPath), ("format", isFormat), ("log-level", isLogLevel)]
  hasVersion := false
  goesOn := true
  admitsPlain := isPath

def rulesLevel : Level where
  options := [("format", isFormat), ("log-level", isLogLevel)]
  hasVersion := false
  goesOn := true
  admitsPlain := fun _ => false

/-- The format that was asked for. -/
def formatOf (given : Given) : Format := ((given.lookup "format").bind format?).getD .text

def parseFix (arguments : List String) : Except UsageError Request := do
  match ← fixLevel.parse [] [] arguments with
  | .done given files =>
    match given.lookup "config" with
    | some config =>
      if files.isEmpty then .error .missingArgument
      else return .fix ⟨config, files, given.lookup "out-dir"⟩ (formatOf given)
    | none => .error .missingArgument
  | .version => return .version
  | .help => return .help

def parseRules (arguments : List String) : Except UsageError Request := do
  match ← rulesLevel.parse [] [] arguments with
  | .done given _ => return .rules (formatOf given)
  | .version => return .version
  | .help => return .help

/-- Help can be asked for about one command. -/
def parseHelp : List String → Except UsageError Request
  | [] => .ok .help
  | name :: more =>
    if commandNames.contains name then
      match more with
      | [] => .ok .help
      | extra :: _ => .error (.unknownArgument extra)
    else .error (.unknownArgument name)

/-- The request that arguments make. -/
def parse (arguments : List String) : Except UsageError Request := do
  match ← top.parse [] [] arguments with
  | .done _ [] => .error .missingCommand
  | .done _ (command :: rest) =>
    match command with
    | "fix" => parseFix rest
    | "rules" => parseRules rest
    | "help" => parseHelp rest
    | other => .error (.unknownArgument other)
  | .version => return .version
  | .help => return .help

end Arguments

end Restyle
