-- SUMMARY: The answers of the commands, as text and as JSON.
import Restyle.Json.Printer
import Restyle.Report.File

/-!
# Responses

The answer of each command is a record with a status and the version of its layout. As JSON it is
written over several lines and ends with a line end.
-/

namespace Restyle

/-- The version of the layout of all responses. -/
def schemaVersion : String := "1"

/-- The text of a response. -/
def emit (response : Json) : String := response.pretty ++ "\n"

/-- The answer of a run over files. -/
structure FixResponse where
  status : String
  schemaVersion : String
  files : List FileReport
  deriving DecidableEq

namespace FixResponse

/-- The response with these reports. One failed file makes it an error. -/
def ofFiles (files : List FileReport) : FixResponse :=
  let failed := files.any fun f => f.status == .failed
  ⟨if failed then "error" else "ok", Restyle.schemaVersion, files⟩

/-- The code of the first file with an error. -/
def firstErrorCode? (r : FixResponse) : Option UInt8 :=
  r.files.findSome? fun f => f.error.map ErrorInfo.code

def toJson (r : FixResponse) : Json :=
  .object
    [("status", .str r.status), ("schema_version", .str r.schemaVersion),
      ("files", .array (r.files.map FileReport.toJson))]

def record : Record FixResponse where
  slots :=
    [.required "status" Decode.string, .required "schema_version" Decode.string,
      .required "files" (Decode.list FileReport.decode)]
  build := fun (status, version, files, _) => ⟨status, version, files⟩

def emit (r : FixResponse) : String := Restyle.emit r.toJson

def ofText (text : String) : Decoded FixResponse := Decode.text record.decode text

def toText (r : FixResponse) : String := String.join (r.files.map FileReport.toText)

end FixResponse

/-- The answer of a command that failed as a whole. -/
structure ErrorResponse where
  status : String
  schemaVersion : String
  error : ErrorInfo
  deriving DecidableEq

namespace ErrorResponse

def ofFault (f : Fault) : ErrorResponse := ⟨"error", Restyle.schemaVersion, .ofFault f⟩

def toJson (r : ErrorResponse) : Json :=
  .object
    [("status", .str r.status), ("schema_version", .str r.schemaVersion),
      ("error", r.error.toJson)]

def record : Record ErrorResponse where
  slots :=
    [.required "status" Decode.string, .required "schema_version" Decode.string,
      .required "error" ErrorInfo.decode]
  build := fun (status, version, error, _) => ⟨status, version, error⟩

def emit (r : ErrorResponse) : String := Restyle.emit r.toJson

def ofText (text : String) : Decoded ErrorResponse := Decode.text record.decode text

end ErrorResponse

/-- The list of the rules that can be configured. -/
structure RulesResponse where
  status : String
  schemaVersion : String
  rules : List String
  deriving DecidableEq

namespace RulesResponse

def ofNames (rules : List String) : RulesResponse := ⟨"ok", Restyle.schemaVersion, rules⟩

def toJson (r : RulesResponse) : Json :=
  .object
    [("status", .str r.status), ("schema_version", .str r.schemaVersion),
      ("rules", .strings r.rules)]

def record : Record RulesResponse where
  slots :=
    [.required "status" Decode.string, .required "schema_version" Decode.string,
      .required "rules" (Decode.list Decode.string)]
  build := fun (status, version, rules, _) => ⟨status, version, rules⟩

def emit (r : RulesResponse) : String := Restyle.emit r.toJson

def ofText (text : String) : Decoded RulesResponse := Decode.text record.decode text

/-- One name on each line. -/
def toText (r : RulesResponse) : String := String.join (r.rules.map fun name => name ++ "\n")

end RulesResponse

end Restyle
