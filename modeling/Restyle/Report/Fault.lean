-- SUMMARY: Why a file or a whole command failed, with messages and exit codes.
import Restyle.Rule.Pipeline

/-!
# Faults

All errors that reach the user are faults. Each belongs to a class whose code is the exit status.
-/

namespace Restyle

/-- The classes of faults. -/
inductive FaultClass where
  /-- Bad arguments or a bad configuration. -/
  | arguments
  /-- A file that cannot be read, written or decoded. -/
  | input
  | rule
  | internal
  deriving DecidableEq

namespace FaultClass

def code : FaultClass → UInt8
  | arguments => 2
  | input => 3
  | rule => 4
  | internal => 10

end FaultClass

/-- What went wrong. -/
inductive Fault where
  | invalidArguments (message : String)
  | configuration (message : String)
  | io (path : String) (message : String)
  /-- A file does not hold a tree. -/
  | invalidInput (path : String) (message : String)
  | ruleFailed (rule : String) (file : String) (message : String)
  | internal (message : String)
  deriving DecidableEq

namespace Fault

def message : Fault → String
  | invalidArguments message => s!"invalid arguments: {message}"
  | configuration message => s!"configuration error: {message}"
  | io path message => s!"i/o error on {path}: {message}"
  | invalidInput path message => s!"invalid input {path}: {message}"
  | ruleFailed rule file message => s!"rule {rule} failed on {file}: {message}"
  | internal message => s!"internal error: {message}"

def toClass : Fault → FaultClass
  | invalidArguments _ | configuration _ => .arguments
  | io .. | invalidInput .. => .input
  | ruleFailed .. => .rule
  | internal _ => .internal

def code (f : Fault) : UInt8 := f.toClass.code

/-- The fault of a rule outside of a pipeline. -/
def ofRuleError (e : RuleError) : Fault :=
  if e.isConfiguration then .configuration e.message else .internal e.message

end Fault

namespace PipelineError

/-- The fault of a rule that failed on a file. -/
def toFault (e : PipelineError) (file : String) : Fault :=
  .ruleFailed e.rule file e.cause.message

end PipelineError

end Restyle
