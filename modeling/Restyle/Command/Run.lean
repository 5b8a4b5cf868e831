-- SUMMARY: From arguments to the output and the exit status of the program.
import Restyle.Command.Arguments

/-!
# Running the program

Errors in the arguments leave the output empty; a command that fails as a whole answers with the
fault, whatever the format.
-/

namespace Restyle

/-- How the program ends. -/
structure Exit where
  code : UInt8
  stdout : String
  deriving DecidableEq

namespace Exit

def success (stdout : String) : Exit := ⟨0, stdout⟩

/-- The exit for arguments that cannot be understood. -/
def usage : Exit := ⟨2, ""⟩

def ofFault (f : Fault) : Exit := ⟨f.code, (ErrorResponse.ofFault f).emit⟩

/-- The exit of a run that has no ids left. -/
def overflow : Exit := ⟨101, ""⟩

def ofAbort : Abort → Exit
  | .fault f => ofFault f
  | .idOverflow => overflow

/-- The exit after a run over files: the first error decides the code. -/
def ofFix (format : Format) (response : FixResponse) : Exit where
  code := response.firstErrorCode?.getD 0
  stdout := match format with
    | .text => response.toText
    | .json => response.emit

def ofRules (format : Format) (response : RulesResponse) : Exit :=
  match format with
  | .text => success response.toText
  | .json => success response.emit

end Exit

namespace Program

def versionLine : String := "lintfix 0.1.0\n"

def helpText : String :=
  "Apply style rules to syntax trees\n\n" ++
    "lintfix fix --config FILE [--out-dir DIR] [--format text|json] FILES...\n" ++
    "lintfix rules [--format text|json]\n"

/-- Answers a request. -/
def answer {m : Type → Type} [Monad m] [FileSystem m] : Request → m Exit
  | .version => return .success versionLine
  | .help => return .success helpText
  | .rules format => return .ofRules format (.ofNames Registry.builtin.names)
  | .fix options format => do
    match ← (Command.fix Registry.builtin options).run with
    | .ok response => return .ofFix format response
    | .error abort => return .ofAbort abort

/-- Runs the program on its arguments. -/
def run {m : Type → Type} [Monad m] [FileSystem m] (arguments : List String) : m Exit :=
  match Arguments.parse arguments with
  | .ok request => answer request
  | .error _ => return .usage

end Program

end Restyle
