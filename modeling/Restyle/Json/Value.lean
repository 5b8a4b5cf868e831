-- SUMMARY: JSON values as they are read, including values whose text breaks off.

/-!
# JSON values

A value keeps the order and the repetitions of its fields. A reader of JSON text reports the first
thing that is wrong, be it in the notation or in the meaning; so a value also tells where its text
has a flaw. An array or object may have one behind its last item, and a flaw may stand for a value.
-/

namespace Restyle

/-- A number literal. Integers are told apart from numbers with a fraction or an exponent, and from
    `-0`, of which only the spelling is kept. -/
inductive Number where
  | int (n : Int)
  | decimal (text : String)
  deriving DecidableEq

/-- What is wrong with a text from some place on. -/
inductive Flaw where
  /-- The text stops being JSON. -/
  | notJson
  /-- The text is JSON, but stands for no value: half of a surrogate pair, a number that is too
      large for a double, or values that nest too deep. -/
  | meaningless
  deriving DecidableEq

/-- A JSON value. -/
inductive Json where
  | null
  | bool (b : Bool)
  | num (n : Number)
  | str (s : String)
  | arr (items : List Json) (flaw : Option Flaw)
  | obj (fields : List (String × Json)) (flaw : Option Flaw)
  | flawed (flaw : Flaw)

namespace Json

/-- A complete array. -/
def array (items : List Json) : Json := arr items none

/-- A complete object. -/
def object (fields : List (String × Json)) : Json := obj fields none

def nat (n : Nat) : Json := num (.int n)

def strings (ss : List String) : Json := array (ss.map str)

mutual

/-- Whether the whole text of a value is JSON. That is all that is asked of a value which is passed
    over. -/
def isJson : Json → Bool
  | null | bool _ | num _ | str _ => true
  | arr items flaw => flaw != some .notJson && allJson items
  | obj fields flaw => flaw != some .notJson && fieldsJson fields
  | flawed flaw => flaw != .notJson

def allJson : List Json → Bool
  | [] => true
  | item :: items => item.isJson && allJson items

def fieldsJson : List (String × Json) → Bool
  | [] => true
  | (_, value) :: fields => value.isJson && fieldsJson fields

end

mutual

/-- Whether a value has no flaw. -/
def isWhole : Json → Bool
  | null | bool _ | num _ | str _ => true
  | arr items flaw => flaw.isNone && allWhole items
  | obj fields flaw => flaw.isNone && fieldsWhole fields
  | flawed _ => false

def allWhole : List Json → Bool
  | [] => true
  | item :: items => item.isWhole && allWhole items

def fieldsWhole : List (String × Json) → Bool
  | [] => true
  | (_, value) :: fields => value.isWhole && fieldsWhole fields

end

/-- Puts a field into a list that is sorted by key; a field of the same key gives way. -/
def insertField (key : String) (value : Json) : List (String × Json) → List (String × Json)
  | [] => [(key, value)]
  | (k, v) :: rest =>
    if key < k then (key, value) :: (k, v) :: rest
    else if key = k then (key, value) :: rest
    else (k, v) :: insertField key value rest

mutual

/-- The value with the fields of each object sorted by key, the last of equal keys kept. -/
def canonical : Json → Json
  | arr items flaw => arr (canonicalItems items) flaw
  | obj fields flaw => obj (canonicalFields fields []) flaw
  | value => value

def canonicalItems : List Json → List Json
  | [] => []
  | item :: items => item.canonical :: canonicalItems items

def canonicalFields : List (String × Json) → List (String × Json) → List (String × Json)
  | [], sorted => sorted
  | (key, value) :: fields, sorted =>
    canonicalFields fields (insertField key value.canonical sorted)

end

end Json

end Restyle
