-- SUMMARY: Decoding JSON values into data: errors, scalars, lists and enumerations.
import Restyle.Json.Reader

/-!
# Decoding

A decoder turns a JSON value into data or names the first thing that is wrong, in the order of the
text. Records have a module of their own, `Restyle.Json.Record`.
-/

namespace Restyle

/-- What can be wrong with a value. -/
inductive DecodeError where
  | missingField (name : String)
  | unknownField (name : String)
  | unknownVariant (name : String)
  | duplicateField (name : String)
  /-- Anything else: broken text, or a value of another sort or size. -/
  | invalid
  deriving DecidableEq

namespace DecodeError

def message : DecodeError → String
  | missingField name => s!"missing field `{name}`"
  | unknownField name => s!"unknown field `{name}`"
  | unknownVariant name => s!"unknown variant `{name}`"
  | duplicateField name => s!"duplicate field `{name}`"
  | invalid => "invalid"

end DecodeError

/-- The result of decoding. -/
abbrev Decoded (α : Type) := Except DecodeError α

/-- Where a value comes from. A value that is decoded while its `text` is read is seen bit by bit;
    one that was put into a `buffer` first, or is a `value` of its own, is seen as a whole. -/
inductive Source where
  | text | buffer | value
  deriving DecidableEq

namespace Decode

variable {α : Type}

def invalid : Decoded α := .error .invalid

def string : Json → Decoded String
  | .str s => .ok s
  | _ => invalid

def bool : Json → Decoded Bool
  | .bool b => .ok b
  | _ => invalid

/-- A natural number below a bound, written as an integer. -/
def natBelow (bound : Nat) : Json → Decoded Nat
  | .num (.int n) => if 0 ≤ n ∧ n < bound then .ok n.toNat else invalid
  | _ => invalid

def word32 (value : Json) : Decoded UInt32 := UInt32.ofNat <$> natBelow 0x100000000 value

def word8 (value : Json) : Decoded UInt8 := UInt8.ofNat <$> natBelow 0x100 value

/-- A value or `null`. -/
def nullable (decode : Json → Decoded α) : Json → Decoded (Option α)
  | .null => .ok none
  | value => some <$> decode value

def list (decode : Json → Decoded α) : Json → Decoded (List α)
  | .arr items flaw => do
    let items ← items.mapM decode
    if flaw.isNone then return items else invalid
  | _ => invalid

/-- The absent contents of an enumeration value without contents. -/
def noContents (source : Source) : Option Json → Decoded Unit
  | none => .ok ()
  | some .null => .ok ()
  | some (.obj [] none) => if source = .buffer then .ok () else invalid
  | some _ => invalid

/-- The contents of an enumeration value that has some. -/
def contents (decode : Json → Decoded α) : Option Json → Decoded α
  | none => invalid
  | some value => decode value

/-- A value of an enumeration: the name alone, or an object whose one key is the name. `variant`
    gives for each name how to decode the contents. -/
def variant (source : Source) (variant? : String → Option (Option Json → Decoded α)) :
    Json → Decoded α
  | .str name => decodeAs name none
  | .obj [] _ => invalid
  | .obj ((name, value) :: others) flaw =>
    if source = .text then do
      let result ← decodeAs name (some value)
      if others.isEmpty && flaw.isNone then return result else invalid
    else if others.isEmpty then decodeAs name (some value)
    else invalid
  | _ => invalid
where
  decodeAs (name : String) (value : Option Json) : Decoded α :=
    match variant? name with
    | some decode => decode value
    | none => .error (.unknownVariant name)

/-- A value of an enumeration of bare names. -/
def named (source : Source) (values : List α) (name : α → String) : Json → Decoded α :=
  variant source fun text =>
    (values.find? fun value => name value == text).map fun value found => do
      noContents source found
      return value

/-- Decodes a whole text; whatever follows the value is an error. -/
def text (decode : Json → Decoded α) (text : String) : Decoded α := do
  let document := Json.read text
  let result ← decode document.value
  if document.complete then return result else invalid

end Decode

end Restyle
