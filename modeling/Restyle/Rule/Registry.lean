-- SUMMARY: The rules that a configuration can name.
import Restyle.Rule.Builtin
import Restyle.Rule.Options

/-!
# Registries

A registry makes rules from the entries of a configuration. It is a list of factories, sorted by the
names of the rules and with one factory for each name.
-/

namespace Restyle

/-- Makes a rule from its properties. -/
abbrev RuleFactory (R : Type) := Json → Except RuleError R

/-- A table of factories in the order of their names. -/
structure Registry (R : Type) where
  factories : List (String × RuleFactory R)

namespace Registry

variable {R S : Type}

def empty : Registry R := ⟨[]⟩

/-- Puts a factory into a sorted table; a factory of the same name gives way. -/
def insert (name : String) (factory : RuleFactory R) :
    List (String × RuleFactory R) → List (String × RuleFactory R)
  | [] => [(name, factory)]
  | (n, f) :: rest =>
    if name < n then (name, factory) :: (n, f) :: rest
    else if name = n then (name, factory) :: rest
    else (n, f) :: insert name factory rest

def register (r : Registry R) (name : String) (factory : RuleFactory R) : Registry R :=
  ⟨insert name factory r.factories⟩

/-- The names of the rules in order. -/
def names (r : Registry R) : List String := r.factories.map Prod.fst

def contains (r : Registry R) (name : String) : Bool := r.names.contains name

/-- A registry for rules of another type. -/
def map (f : R → S) (r : Registry R) : Registry S :=
  ⟨r.factories.map fun (name, factory) => (name, fun properties => f <$> factory properties)⟩

/-- Makes the rule of a configuration entry. -/
def build (r : Registry R) (entry : RuleEntry) : Except RuleError R :=
  match r.factories.lookup entry.name with
  | some factory => factory entry.properties
  | none => .error (.unknownRule entry.name)

/-- Makes all rules of a configuration. The first entry that fails decides the error. -/
def pipeline (r : Registry R) (config : Config) : Except RuleError (List R) :=
  config.rules.mapM r.build

/-! ## The built-in rules -/

def hiddenField : RuleFactory Rule := fun properties => do
  let options ← bindProperties HiddenFieldOptions.record HiddenField.ruleName properties
  return .hiddenField (← HiddenField.ofOptions options)

def forHeader : RuleFactory Rule := fun properties =>
  Rule.forHeader <$> bindProperties PadPolicy.record ForHeader.ruleName properties

def typeParameterList : RuleFactory Rule := fun properties => do
  bindProperties noOptions TypeParameterList.ruleName properties
  return .typeParameterList

def addFinal : RuleFactory Rule := fun properties => do
  bindProperties noOptions AddFinal.ruleName properties
  return .addFinal

/-- The registry of the rules of this library. -/
def builtin : Registry Rule :=
  empty
    |>.register HiddenField.ruleName hiddenField
    |>.register ForHeader.ruleName forHeader
    |>.register TypeParameterList.ruleName typeParameterList
    |>.register AddFinal.ruleName addFinal

end Registry

end Restyle
