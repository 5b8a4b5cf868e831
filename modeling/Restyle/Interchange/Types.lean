-- SUMMARY: Types and formatting in the JSON form of trees.
import Restyle.Json.Record
import Restyle.Tree.Formatting
import Restyle.Tree.Types

/-!
# Types in JSON

The encoder leaves out what is empty by default; the decoder fills it in again. Decoders of types
take a bound on their depth, since a class holds its supertypes and the types of its members.
-/

namespace Restyle

/-! ## Formatting -/

namespace Formatting

/-- The fields of the sides that are not empty. -/
def fields (f : Formatting) : List (String × Json) :=
  (if f.lead.isEmpty then [] else [("prefix", .str f.lead)]) ++
    if f.trail.isEmpty then [] else [("suffix", .str f.trail)]

def toJson (f : Formatting) : Json := .object f.fields

def record : Record Formatting where
  slots := [.optional "prefix" Decode.string "", .optional "suffix" Decode.string ""]
  build := fun (lead, trail, _) => ⟨lead, trail⟩

def decode : Json → Decoded Formatting := record.decode

end Formatting

namespace Padded

variable {α : Type}

/-- The text before the token, if there is any, and the element. -/
def toJson (encode : α → Json) (p : Padded α) : Json :=
  .object ((if p.before.isEmpty then [] else [("before", .str p.before)]) ++
    [("elem", encode p.elem)])

def record (element : Json → Decoded α) : Record (Padded α) where
  slots := [.optional "before" Decode.string "", .required "elem" element]
  build := fun (before, elem, _) => ⟨before, elem⟩

def decode (element : Json → Decoded α) : Json → Decoded (Padded α) := (record element).decode

end Padded

/-! ## Types -/

namespace Primitive

def toJson (p : Primitive) : Json := .str p.keyword

def decode (source : Source) : Json → Decoded Primitive := Decode.named source all keyword

end Primitive

namespace Flag

def toJson (f : Flag) : Json := .str f.keyword

def decode (source : Source) : Json → Decoded Flag := Decode.named source all keyword

end Flag

namespace ClassKind

def toJson (k : ClassKind) : Json := .str k.name

def decode (source : Source) : Json → Decoded ClassKind := Decode.named source all name

end ClassKind

mutual

def Ty.toJson : Ty → Json
  | .unknown => .str "unknown"
  | .primitive p => .object [("primitive", p.toJson)]
  | .declared c => .object [("class", c.toJson)]

def ClassType.toJson : ClassType → Json
  | ⟨name, kind, supertype, members⟩ =>
    .object ([("fully_qualified_name", .str name), ("kind", kind.toJson)] ++
      (match supertype with
        | none => []
        | some s => [("supertype", s.toJson)]) ++
      if members.isEmpty then [] else [("members", .array (Member.listToJson members))])

def Member.toJson : Member → Json
  | ⟨name, ty, flags⟩ =>
    .object ([("name", .str name), ("ty", ty.toJson)] ++
      if flags.isEmpty then [] else [("flags", .array (flags.map Flag.toJson))])

def Member.listToJson : List Member → List Json
  | [] => []
  | m :: ms => m.toJson :: Member.listToJson ms

end

/-- Decodes a type, given how to decode a class. -/
def Ty.decodeVia (source : Source) (classType : Json → Decoded ClassType) : Json → Decoded Ty :=
  Decode.variant source fun name =>
    if name = "unknown" then some fun found => do
      Decode.noContents source found
      return .unknown
    else if name = "primitive" then
      some fun found => .primitive <$> Decode.contents (Primitive.decode source) found
    else if name = "class" then
      some fun found => .declared <$> Decode.contents classType found
    else none

/-- The record of a class, given how to decode its supertype and its members. -/
def ClassType.record (source : Source) (supertype : Json → Decoded ClassType)
    (member : Json → Decoded Member) : Record ClassType where
  slots :=
    [.required "fully_qualified_name" Decode.string,
      .optional "kind" (ClassKind.decode source) .plain,
      .optional "supertype" (Decode.nullable supertype) none,
      .optional "members" (Decode.list member) []]
  build := fun (name, kind, supertype, members, _) => ⟨name, kind, supertype, members⟩

/-- The record of a member, given how to decode its type. -/
def Member.record (source : Source) (ty : Json → Decoded Ty) : Record Member where
  slots :=
    [.required "name" Decode.string, .optional "ty" ty .unknown,
      .optional "flags" (Decode.list (Flag.decode source)) []]
  build := fun (name, ty, flags, _) => ⟨name, ty, flags⟩

mutual

/-- Decodes a type that nests at most `depth` types. -/
def Ty.decodeWithin : (depth : Nat) → Source → Json → Decoded Ty
  | 0, _, _ => .error .invalid
  | depth + 1, source, value => Ty.decodeVia source (ClassType.decodeWithin depth source) value

def ClassType.decodeWithin : (depth : Nat) → Source → Json → Decoded ClassType
  | 0, _, _ => .error .invalid
  | depth + 1, source, value =>
    (ClassType.record source (ClassType.decodeWithin depth source)
      (Member.decodeWithin depth source)).decode value

def Member.decodeWithin : (depth : Nat) → Source → Json → Decoded Member
  | 0, _, _ => .error .invalid
  | depth + 1, source, value =>
    (Member.record source (Ty.decodeWithin depth source)).decode value

end

/-- Values have a limit on their nesting, and a type stands for a level of it. -/
def Ty.decode : Source → Json → Decoded Ty := Ty.decodeWithin Json.nestingLimit.succ

def Member.decode : Source → Json → Decoded Member := Member.decodeWithin Json.nestingLimit.succ

end Restyle
