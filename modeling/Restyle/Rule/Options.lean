-- SUMMARY: The options of the rules and the configuration file that lists them.
import Restyle.Json.Record
import Restyle.Rule.Basic

/-!
# Options

Each rule has a record of options, all of which may be left out; other keys are errors. Properties
are decoded from their canonical form, so repeated keys have been settled before.
-/

namespace Restyle

/-! ## Hidden fields -/

/-- The declarations that are looked at for hidden fields. -/
inductive Watched where
  | locals | parameters | lambdas
  deriving DecidableEq

namespace Watched

def all : List Watched := [locals, parameters, lambdas]

def name : Watched → String
  | locals => "VARIABLE_DEF"
  | parameters => "PARAMETER_DEF"
  | lambdas => "LAMBDA"

/-- What a declaration has to be watched as; fields are never looked at. -/
def ofDeclaration? : DeclarationKind → Option Watched
  | .localVariable => some locals
  | .parameter => some parameters
  | .lambdaParameter => some lambdas
  | .field => none

def decode (source : Source) : Json → Decoded Watched := Decode.named source all name

end Watched

/-- The options of the rule for hidden fields. -/
structure HiddenFieldOptions where
  /-- Members whose whole name matches this pattern may be hidden. -/
  ignoreFormat : Option String
  ignoreConstructorParameter : Bool
  ignoreSetter : Bool
  setterCanReturnItsClass : Bool
  ignoreAbstractMethods : Bool
  /-- What is watched, in the order of `Watched.all` and without repetitions. -/
  tokens : List Watched
  deriving DecidableEq

namespace HiddenFieldOptions

def default : HiddenFieldOptions := ⟨none, false, false, false, false, Watched.all⟩

def record : Record HiddenFieldOptions where
  slots :=
    [.optional "ignoreFormat" (Decode.nullable Decode.string) none,
      .optional "ignoreConstructorParameter" Decode.bool false,
      .optional "ignoreSetter" Decode.bool false,
      .optional "setterCanReturnItsClass" Decode.bool false,
      .optional "ignoreAbstractMethods" Decode.bool false,
      .optional "tokens" (Decode.list (Watched.decode .value)) Watched.all]
  strict := true
  build := fun (format, constructors, setters, fluent, abstracts, tokens, _) =>
    ⟨format, constructors, setters, fluent, abstracts, Watched.all.filter tokens.contains⟩

def toJson (o : HiddenFieldOptions) : Json :=
  .object
    [("ignoreFormat", (o.ignoreFormat.map Json.str).getD .null),
      ("ignoreConstructorParameter", .bool o.ignoreConstructorParameter),
      ("ignoreSetter", .bool o.ignoreSetter),
      ("setterCanReturnItsClass", .bool o.setterCanReturnItsClass),
      ("ignoreAbstractMethods", .bool o.ignoreAbstractMethods),
      ("tokens", .strings (o.tokens.map Watched.name))]

end HiddenFieldOptions

/-! ## Padding -/

/-- Whether padding is wanted. -/
inductive PadPolicy where
  | noSpace | space
  deriving DecidableEq

namespace PadPolicy

def all : List PadPolicy := [noSpace, space]

def name : PadPolicy → String
  | noSpace => "NOSPACE"
  | space => "SPACE"

/-- The text that a policy asks for. -/
def padding : PadPolicy → String
  | noSpace => ""
  | space => " "

/-- The options of a padding rule. -/
def record : Record PadPolicy where
  slots := [.optional "option" (Decode.named .value all name) noSpace]
  strict := true
  build := fun (policy, _) => policy

end PadPolicy

/-- The options of a rule that has none. -/
def noOptions : Record Unit where
  slots := []
  strict := true
  build := fun _ => ()

/-! ## Configuration -/

/-- Decodes the properties of a rule; `null` stands for the default options. -/
def bindProperties {α : Type} (record : Record α) (rule : String) (properties : Json) :
    Except RuleError α :=
  let properties := match properties with
    | .null => .object []
    | given => given
  match record.decode properties with
  | .ok options => .ok options
  | .error cause => .error (.invalidConfig rule cause)

/-- A rule of a configuration, by name, with its properties. -/
structure RuleEntry where
  name : String
  properties : Json

namespace RuleEntry

/-- Properties may be any JSON. They are kept in canonical form. -/
def decodeProperties (value : Json) : Decoded Json :=
  if value.isWhole then .ok value.canonical else .error .invalid

def record : Record RuleEntry where
  slots := [.required "name" Decode.string, .optional "properties" decodeProperties .null]
  strict := true
  build := fun (name, properties, _) => ⟨name, properties⟩

def toJson (e : RuleEntry) : Json :=
  .object [("name", .str e.name), ("properties", e.properties)]

end RuleEntry

/-- A configuration: the rules to run, in order. -/
structure Config where
  rules : List RuleEntry

namespace Config

def record : Record Config where
  slots := [.required "rules" (Decode.list RuleEntry.record.decode)]
  strict := true
  build := fun (rules, _) => ⟨rules⟩

/-- The name under which errors in a configuration are reported. -/
def label : String := "<config>"

/-- Decodes the text of a configuration file. -/
def ofText (text : String) : Except RuleError Config :=
  match Decode.text record.decode text with
  | .ok config => .ok config
  | .error cause => .error (.invalidConfig label cause)

def toJson (c : Config) : Json := .object [("rules", .array (c.rules.map RuleEntry.toJson))]

end Config

end Restyle
