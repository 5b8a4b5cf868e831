-- SUMMARY: Trees in JSON: the encoder, the record of each kind, and the decoder.
import Restyle.Interchange.Types
import Restyle.Json.Printer
import Restyle.Tree.Node

/-!
# Trees in JSON

A node is a record of its id, its formatting and its kind; a kind is a record of its own, marked by
the field `type`. The mark may stand anywhere among the fields, so all of them are read before the
record of the kind is decoded: everything inside a kind is decoded from a buffer.
-/

namespace Restyle

namespace Kind

/-! ## Encoding -/

/-- A field for text that is left out when empty. -/
def textField (name : String) (text : String) : List (String × Json) :=
  if text.isEmpty then [] else [(name, .str text)]

/-- The fields of a kind whose children are encoded. -/
def fields : Kind Json → List (String × Json)
  | compilationUnit classes eof => ("classes", .array classes) :: textField "eof" eof
  | classDecl modifiers keyword name typeParams superclass body ty =>
    [("modifiers", .array modifiers), ("kind", keyword.toJson ClassKind.toJson), ("name", name),
      ("type_parameters", typeParams.getD .null),
      ("extends", (superclass.map (Padded.toJson id)).getD .null), ("body", body),
      ("ty", ty.toJson)]
  | block statements finish => ("statements", .array statements) :: textField "end" finish
  | methodDecl modifiers typeParams returnType name params body =>
    [("modifiers", .array modifiers), ("type_parameters", typeParams.getD .null),
      ("return_type", returnType.getD .null), ("name", name), ("params", params.toJson .array),
      ("body", body.getD .null)]
  | variableDecls modifiers typeExpr vars =>
    [("modifiers", .array modifiers), ("type_expr", typeExpr.getD .null), ("vars", .array vars)]
  | namedVar name initializer =>
    [("name", name), ("initializer", (initializer.map (Padded.toJson id)).getD .null)]
  | lambda params parenthesized body =>
    [("params", .array params), ("parenthesized", .bool parenthesized), ("body", body.toJson id)]
  | forLoop control body => [("control", control), ("body", body)]
  | forControl init condition update =>
    [("init", .array init), ("condition", condition), ("update", .array update)]
  | typeParameters params _ => [("params", .array params)]
  | typeParameter name bounds =>
    [("name", name), ("bounds", (bounds.map (Padded.toJson .array)).getD .null)]
  | modifier keyword => [("keyword", .str keyword)]
  | ident name ty declaration =>
    [("name", .str name), ("ty", ty.toJson)] ++
      match declaration with
      | none => []
      | some id => [("declaration", .nat id.toNat)]
  | fieldAccess target name => [("target", target), ("name", name)]
  | methodInvocation select name args =>
    [("select", select.getD .null), ("name", name), ("args", args.toJson .array)]
  | assign target value => [("target", target), ("value", value.toJson id)]
  | binary left operator right =>
    [("left", left), ("operator", operator.toJson .str), ("right", right)]
  | unary operator operand isPostfix =>
    [("operator", .str operator), ("operand", operand), ("postfix", .bool isPostfix)]
  | literal text ty => [("text", .str text), ("ty", ty.toJson)]
  | returnStmt expression => [("expression", expression.getD .null)]
  | empty => []

/-- A kind as an object whose first field is the mark. -/
def toJson (kind : Kind Json) : Json := .object (("type", .str kind.tag.name) :: kind.fields)

/-! ## Decoding -/

variable {α : Type}

open Slot in
/-- The record of each kind, given how to decode a child. -/
def record (child : Json → Decoded α) : Tag → Record (Kind α)
  | .compilationUnit =>
    { slots := [required "classes" (Decode.list child), optional "eof" Decode.string ""]
      build := fun (classes, eof, _) => compilationUnit classes eof }
  | .classDecl =>
    { slots :=
        [optional "modifiers" (Decode.list child) [],
          required "kind" (Padded.decode (ClassKind.decode .buffer)),
          required "name" child,
          optional "type_parameters" (Decode.nullable child) none,
          optional "extends" (Decode.nullable (Padded.decode child)) none,
          required "body" child,
          optional "ty" (Ty.decode .buffer) .unknown]
      build := fun (modifiers, keyword, name, typeParams, superclass, body, ty, _) =>
        classDecl modifiers keyword name typeParams superclass body ty }
  | .block =>
    { slots := [required "statements" (Decode.list child), optional "end" Decode.string ""]
      build := fun (statements, finish, _) => block statements finish }
  | .methodDecl =>
    { slots :=
        [optional "modifiers" (Decode.list child) [],
          optional "type_parameters" (Decode.nullable child) none,
          optional "return_type" (Decode.nullable child) none,
          required "name" child,
          required "params" (Padded.decode (Decode.list child)),
          optional "body" (Decode.nullable child) none]
      build := fun (modifiers, typeParams, returnType, name, params, body, _) =>
        methodDecl modifiers typeParams returnType name params body }
  | .variableDecls =>
    { slots :=
        [optional "modifiers" (Decode.list child) [],
          optional "type_expr" (Decode.nullable child) none,
          required "vars" (Decode.list child)]
      build := fun (modifiers, typeExpr, vars, _) => variableDecls modifiers typeExpr vars }
  | .namedVar =>
    { slots :=
        [required "name" child,
          optional "initializer" (Decode.nullable (Padded.decode child)) none]
      build := fun (name, initializer, _) => namedVar name initializer }
  | .lambda =>
    { slots :=
        [required "params" (Decode.list child),
          optional "parenthesized" Decode.bool false,
          required "body" (Padded.decode child)]
      build := fun (params, parenthesized, body, _) => lambda params parenthesized body }
  | .forLoop =>
    { slots := [required "control" child, required "body" child]
      build := fun (control, body, _) => forLoop control body }
  | .forControl =>
    { slots :=
        [required "init" (Decode.list child), required "condition" child,
          required "update" (Decode.list child)]
      build := fun (init, condition, update, _) => forControl init condition update }
  | .typeParameters =>
    { slots := [required "params" (Decode.list child)]
      build := fun (params, _) => typeParameters params [] }
  | .typeParameter =>
    { slots :=
        [required "name" child,
          optional "bounds" (Decode.nullable (Padded.decode (Decode.list child))) none]
      build := fun (name, bounds, _) => typeParameter name bounds }
  | .modifier =>
    { slots := [required "keyword" Decode.string]
      build := fun (keyword, _) => modifier keyword }
  | .ident =>
    { slots :=
        [required "name" Decode.string, optional "ty" (Ty.decode .buffer) .unknown,
          optional "declaration" (Decode.nullable Decode.word32) none]
      build := fun (name, ty, declaration, _) => ident name ty declaration }
  | .fieldAccess =>
    { slots := [required "target" child, required "name" child]
      build := fun (target, name, _) => fieldAccess target name }
  | .methodInvocation =>
    { slots :=
        [optional "select" (Decode.nullable child) none, required "name" child,
          required "args" (Padded.decode (Decode.list child))]
      build := fun (select, name, args, _) => methodInvocation select name args }
  | .assign =>
    { slots := [required "target" child, required "value" (Padded.decode child)]
      build := fun (target, value, _) => assign target value }
  | .binary =>
    { slots :=
        [required "left" child, required "operator" (Padded.decode Decode.string),
          required "right" child]
      build := fun (left, operator, right, _) => binary left operator right }
  | .unary =>
    { slots :=
        [required "operator" Decode.string, required "operand" child,
          optional "postfix" Decode.bool false]
      build := fun (operator, operand, isPostfix, _) => unary operator operand isPostfix }
  | .literal =>
    { slots := [required "text" Decode.string, optional "ty" (Ty.decode .buffer) .unknown]
      build := fun (text, ty, _) => literal text ty }
  | .returnStmt =>
    { slots := [optional "expression" (Decode.nullable child) none]
      build := fun (expression, _) => returnStmt expression }
  | .empty =>
    { slots := []
      build := fun _ => empty }

/-- The mark of a kind. In a buffer its position in the list of kinds serves as well. -/
def decodeTag (source : Source) : Json → Decoded Tag
  | .str name =>
    match Tag.all.find? fun tag => tag.name == name with
    | some tag => .ok tag
    | none => .error (.unknownVariant name)
  | .num (.int n) =>
    if source = .buffer ∧ 0 ≤ n then
      match Tag.all[n.toNat]? with
      | some tag => .ok tag
      | none => .error .invalid
    else .error .invalid
  | _ => .error .invalid

/-- Finds the mark among the fields of a kind: the mark, and the fields beside it. -/
def splitTag (source : Source) (found : Option Tag) (others : List (String × Json)) :
    List (String × Json) → Decoded (Option Tag × List (String × Json))
  | [] => .ok (found, others.reverse)
  | (key, value) :: fields =>
    if key = "type" then
      if found.isSome then .error (.duplicateField "type")
      else do
        let tag ← decodeTag source value
        splitTag source (some tag) others fields
    else if value.isWhole then splitTag source found ((key, value) :: others) fields
    else .error .invalid

/-- Decodes a kind, given how to decode a child. -/
def decode (source : Source) (child : Json → Decoded α) : Json → Decoded (Kind α)
  | .obj fields flaw => do
    let (found, others) ← splitTag source none [] fields
    if flaw.isNone then
      match found with
      | none => .error (.missingField "type")
      | some tag => (record child tag).decode (.object others)
    else .error .invalid
  | .arr [] flaw => if flaw.isNone then .error (.missingField "type") else .error .invalid
  | .arr (mark :: items) flaw => do
    let tag ← decodeTag source mark
    if flaw.isNone && Json.allWhole items then (record child tag).decode (.array items)
    else .error .invalid
  | _ => .error .invalid

end Kind

namespace Node

/-- The JSON form of a tree. -/
def toJson : Node → Json :=
  fold fun n kind =>
    .object ([("id", .nat n.id.toNat)] ++
      (if n.formatting.isEmpty then [] else [("formatting", n.formatting.toJson)]) ++
      [("kind", kind.toJson)])

/-- The record of a node, given how to decode its kind. -/
def record (kind : Json → Decoded (Kind Node)) : Record Node where
  slots :=
    [.required "id" Decode.word32, .optional "formatting" Formatting.decode {},
      .required "kind" kind]
  build := fun (id, formatting, kind, _) => ⟨id, formatting, kind⟩

/-- Decodes a tree that nests at most `depth` nodes. -/
def decodeWithin : (depth : Nat) → Source → Json → Decoded Node
  | 0, _, _ => .error .invalid
  | depth + 1, source, value =>
    (record (Kind.decode source (decodeWithin depth .buffer))).decode value

def decode : Source → Json → Decoded Node := decodeWithin Json.nestingLimit.succ

/-- The JSON text of a tree. -/
def toText (n : Node) : String := n.toJson.compact

/-- Decodes the JSON text of a tree. -/
def ofText (text : String) : Decoded Node := Decode.text (decode .text) text

end Node

end Restyle
