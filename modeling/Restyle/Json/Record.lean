-- SUMMARY: Records as JSON: objects with fields in any order, or arrays with the fields in theirs.
import Restyle.Json.Decode

/-!
# Records

A record is described by its fields (`Slot`) and by a function that builds it from their values
(`Record`). It may be written as an object, whose fields come in any order and once each, or as an
array of the values in the order of the fields. Values are checked as they come; fields that are
missing are looked for at the end.
-/

namespace Restyle

/-- A field of a record. -/
structure Slot where
  name : String
  Carrier : Type
  decode : Json → Decoded Carrier
  /-- The value if an object leaves the field out. -/
  omitted : Option Carrier
  /-- The value if an array ends before the field. -/
  cutOff : Option Carrier

namespace Slot

/-- A field that has to be there. -/
def required {α : Type} (name : String) (decode : Json → Decoded α) : Slot :=
  ⟨name, α, decode, none, none⟩

/-- A field with a value for when it is left out. -/
def optional {α : Type} (name : String) (decode : Json → Decoded α) (default : α) : Slot :=
  ⟨name, α, decode, some default, some default⟩

/-- A field that only an object may leave out. -/
def omittable {α : Type} (name : String) (decode : Json → Decoded α) (default : α) : Slot :=
  ⟨name, α, decode, some default, none⟩

end Slot

/-- The values of all fields. -/
def Row : List Slot → Type
  | [] => Unit
  | slot :: slots => slot.Carrier × Row slots

/-- The values of the fields that were found. -/
def Filling : List Slot → Type
  | [] => Unit
  | slot :: slots => Option slot.Carrier × Filling slots

namespace Filling

/-- No field was found. -/
def empty : (slots : List Slot) → Filling slots
  | [] => ()
  | _ :: slots => (none, empty slots)

/-- Decodes a field into its place. The answer is `none` if there is no field of that name. -/
def put : (slots : List Slot) → Filling slots → String → Json → Decoded (Option (Filling slots))
  | [], _, _, _ => .ok none
  | slot :: slots, (found, others), key, value =>
    if slot.name = key then
      if found.isSome then .error (.duplicateField key)
      else do
        let new ← slot.decode value
        return some (some new, others)
    else do
      let filled ← put slots others key value
      return filled.map fun others => (found, others)

/-- Decodes the fields of an object in their order. A key that is no field is an error for a strict
    record; otherwise its value only has to be JSON. -/
def putAll (slots : List Slot) (strict : Bool) :
    Filling slots → List (String × Json) → Decoded (Filling slots)
  | filling, [] => .ok filling
  | filling, (key, value) :: fields => do
    match ← put slots filling key value with
    | some filling => putAll slots strict filling fields
    | none =>
      if strict then .error (.unknownField key)
      else if value.isJson then putAll slots strict filling fields
      else .error .invalid

/-- Completes the fields in their order. -/
def finish : (slots : List Slot) → Filling slots → Decoded (Row slots)
  | [], _ => .ok ()
  | slot :: slots, (found, others) =>
    match found.or slot.omitted with
    | none => .error (.missingField slot.name)
    | some value => do
      let others ← finish slots others
      return (value, others)

end Filling

namespace Row

/-- Decodes the values of an array in the order of the fields. -/
def ofItems : (slots : List Slot) → List Json → Decoded (Row slots)
  | [], [] => .ok ()
  | [], _ :: _ => .error .invalid
  | slot :: slots, [] =>
    match slot.cutOff with
    | none => .error .invalid
    | some value => do
      let others ← ofItems slots []
      return (value, others)
  | slot :: slots, item :: items => do
    let value ← slot.decode item
    let others ← ofItems slots items
    return (value, others)

end Row

/-- A kind of record: its fields, whether other keys are errors, and how it is built. -/
structure Record (α : Type) where
  slots : List Slot
  strict : Bool := false
  build : Row slots → α

namespace Record

variable {α : Type}

def decode (record : Record α) : Json → Decoded α
  | .obj fields flaw => do
    let filling ← Filling.putAll record.slots record.strict (.empty record.slots) fields
    if flaw.isNone then return record.build (← filling.finish record.slots) else .error .invalid
  | .arr items flaw => do
    let row ← Row.ofItems record.slots items
    if flaw.isNone then return record.build row else .error .invalid
  | _ => .error .invalid

end Record

end Restyle
