-- SUMMARY: Running a pipeline over files.
import Restyle.Files.Store
import Restyle.Interchange.Nodes
import Restyle.Report.Response
import Restyle.Rule.Registry
import Restyle.Tree.Print

/-!
# Fixing files

The trees in a list of files are fixed one by one. A file that fails is reported and the others go
on; only the configuration and the output directory can make the whole command fail.
-/

namespace Restyle

/-- Why a command ends without its response. -/
inductive Abort where
  | fault (cause : Fault)
  /-- There is no id left for a node that a rule adds. -/
  | idOverflow
  deriving DecidableEq

/-- Commands on files. -/
abbrev Command (m : Type → Type) := ExceptT Abort m

/-- What to fix, and where to. -/
structure FixOptions where
  /-- The file with the configuration. -/
  config : String
  files : List String
  /-- Where the printed trees are written. If there is none they are a part of the report. -/
  outDir : Option String

namespace Command

variable {m : Type → Type} [Monad m] [FileSystem m] {R : Type} [Fixer R]

/-- An access to a file as a part of a command. -/
def access {α : Type} (path : String) (action : m (Except FileError α)) : Command m α := do
  match ← (action : m _) with
  | .ok result => return result
  | .error e => throw (.fault (.io path e.message))

/-- Reads a configuration and sets up its rules. -/
def loadPipeline (registry : Registry R) (path : String) : Command m (List R) := do
  let text ← access path (FileSystem.read path)
  match Config.ofText text >>= registry.pipeline with
  | .ok rules => return rules
  | .error e => throw (.fault (.ofRuleError e))

/-- Reads the tree in a file. -/
def readTree (path : String) : Command m Node := do
  let text ← access path (FileSystem.read path)
  match Node.ofText text with
  | .ok tree => return tree
  | .error e => throw (.fault (.invalidInput path e.message))

/-- Runs a pipeline on behalf of a file. -/
def applyTo (rules : List R) (path : String) (tree : Node) : Command m Outcome :=
  match Pipeline.run rules tree with
  | .ok outcome => return outcome
  | .error e => throw (if e.cause = .idOverflow then .idOverflow else .fault (e.toFault path))

/-- Fixes a file and writes or reports the printed tree. -/
def completeFile (rules : List R) (outDir : Option String) (path : String) :
    Command m FileReport := do
  let tree ← readTree path
  let outcome ← applyTo rules path tree
  let printed := outcome.tree.print
  let report := FileReport.completed path outcome.transforms printed
  match outDir with
  | some directory =>
    let target := Path.outputFor directory path
    access target (FileSystem.write target printed)
    return { report with output := some target }
  | none => return { report with source := some printed }

/-- Fixes a file. A fault is a part of the report. -/
def fixFile (rules : List R) (outDir : Option String) (path : String) : Command m FileReport :=
  tryCatch (completeFile rules outDir path) fun abort =>
    match abort with
    | .fault f => return .failed path f
    | .idOverflow => throw .idOverflow

/-- Fixes all files, in an output directory that is made first. -/
def fix (registry : Registry R) (options : FixOptions) : Command m FixResponse := do
  let rules ← loadPipeline registry options.config
  match options.outDir with
  | some directory => access directory (FileSystem.makeDirectories directory)
  | none => pure ()
  return .ofFiles (← options.files.mapM (fixFile rules options.outDir))

/-- Fixes all files in an output directory that is there. -/
def fixInPlace (registry : Registry R) (options : FixOptions) : Command m FixResponse := do
  let rules ← loadPipeline registry options.config
  return .ofFiles (← options.files.mapM (fixFile rules options.outDir))

end Command

end Restyle
