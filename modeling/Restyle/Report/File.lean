-- SUMMARY: The report on one file.
import Restyle.Interchange.Types
import Restyle.Report.Fault
import Restyle.Report.Sha256

/-!
# File reports

What became of one file: which nodes were replaced and where the printed tree is, or why it failed.
-/

namespace Restyle

/-- A fault as it is reported. -/
structure ErrorInfo where
  code : UInt8
  message : String
  deriving DecidableEq

namespace ErrorInfo

def ofFault (f : Fault) : ErrorInfo := ⟨f.code, f.message⟩

def toJson (e : ErrorInfo) : Json :=
  .object [("code", .nat e.code.toNat), ("message", .str e.message)]

def record : Record ErrorInfo where
  slots := [.required "code" Decode.word8, .required "message" Decode.string]
  build := fun (code, message, _) => ⟨code, message⟩

def decode : Json → Decoded ErrorInfo := record.decode

end ErrorInfo

namespace Transform

def toJson (t : Transform) : Json :=
  .object [("rule", .str t.rule), ("node", .nat t.node.toNat)]

def record : Record Transform where
  slots := [.required "rule" Decode.string, .required "node" Decode.word32]
  build := fun (rule, node, _) => ⟨rule, node⟩

def decode : Json → Decoded Transform := record.decode

end Transform

/-- What became of a file. -/
inductive FileStatus where
  | fixed | unchanged | failed
  deriving DecidableEq

namespace FileStatus

def all : List FileStatus := [fixed, unchanged, failed]

def name : FileStatus → String
  | fixed => "fixed"
  | unchanged => "unchanged"
  | failed => "failed"

def decode : Json → Decoded FileStatus := Decode.named .text all name

end FileStatus

/-- The report on a file. -/
structure FileReport where
  path : String
  status : FileStatus
  /-- The nodes replaced, in the order of application. -/
  transforms : List Transform := []
  /-- The digest of the printed tree. -/
  contentHash : Option String := none
  /-- Where the printed tree was written. -/
  output : Option String := none
  /-- The printed tree, if it was not written. -/
  source : Option String := none
  error : Option ErrorInfo := none
  deriving DecidableEq

namespace FileReport

/-- The report on a file whose rules have all run. -/
def completed (path : String) (transforms : List Transform) (printed : String) : FileReport where
  path
  status := if transforms.isEmpty then .unchanged else .fixed
  transforms
  contentHash := some (Sha256.ofText printed)

/-- The report on a file that failed. -/
def failed (path : String) (f : Fault) : FileReport where
  path
  status := .failed
  error := some (.ofFault f)

/-- A field that is left out if it has no value. -/
def optionalField {α : Type} (name : String) (encode : α → Json) : Option α → List (String × Json)
  | none => []
  | some value => [(name, encode value)]

def toJson (r : FileReport) : Json :=
  let transforms := if r.transforms.isEmpty then [] else
    [("transforms", Json.array (r.transforms.map Transform.toJson))]
  .object <|
    [("path", Json.str r.path), ("status", Json.str r.status.name)] ++ transforms ++
      optionalField "content_hash" Json.str r.contentHash ++
      optionalField "output" Json.str r.output ++
      optionalField "source" Json.str r.source ++
      optionalField "error" ErrorInfo.toJson r.error

def record : Record FileReport where
  slots :=
    [.required "path" Decode.string,
      .required "status" FileStatus.decode,
      .optional "transforms" (Decode.list Transform.decode) [],
      .omittable "content_hash" (Decode.nullable Decode.string) none,
      .omittable "output" (Decode.nullable Decode.string) none,
      .omittable "source" (Decode.nullable Decode.string) none,
      .omittable "error" (Decode.nullable ErrorInfo.decode) none]
  build := fun (path, status, transforms, contentHash, output, source, error, _) =>
    { path, status, transforms, contentHash, output, source, error }

def decode : Json → Decoded FileReport := record.decode

/-! ## Text -/

/-- The line that says what became of the file. -/
def statusLine (r : FileReport) : String :=
  match r.status with
  | .fixed =>
    let noun := if r.transforms.length = 1 then "change" else "changes"
    s!"{r.path}: fixed ({r.transforms.length} {noun})\n"
  | .unchanged => s!"{r.path}: unchanged\n"
  | .failed =>
    let message := (r.error.map ErrorInfo.message).getD ""
    s!"{r.path}: failed: {message}\n"

/-- A text with a line end behind it. -/
def asLines (text : String) : String :=
  if text.toList.getLast? = some '\n' then text else text ++ "\n"

/-- The report as text: the status, then where the printed tree is, or the tree itself. -/
def toText (r : FileReport) : String :=
  r.statusLine ++ (r.output.map fun path => s!"  wrote {path}\n").getD "" ++
    (r.source.map asLines).getD ""

end FileReport

end Restyle
