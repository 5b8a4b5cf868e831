-- SUMMARY: What a rule is, what it gives back, and how it can fail.
import Restyle.Json.Decode
import Restyle.Text.Quote
import Restyle.Tree.Cursor
import Restyle.Tree.Edit

/-!
# Rules

A rule edits a tree and may schedule further rules. Rules are values of any type with a `Fixer`
instance, so a rule can schedule rules of its own type, itself included.
-/

namespace Restyle

/-- Why a rule could not be set up or applied. -/
inductive RuleError where
  /-- A configured pattern is not a regular expression. -/
  | invalidPattern (pattern : String)
  /-- The properties of a rule do not fit it. -/
  | invalidConfig (rule : String) (cause : DecodeError)
  | unknownRule (name : String)
  /-- All names that may be tried for a declaration are taken. -/
  | renameBoundExceeded (name : String) (declaration : NodeId) (attempts : Nat)
  /-- A rule and its follow-ups scheduled too many rules. -/
  | followUpBoundExceeded (rule : String) (limit : Nat)
  /-- The tree does not have the shape that a rule needs. -/
  | tree (cause : TreeError)
  /-- There is no id left for a node that a rule adds. -/
  | idOverflow
  deriving DecidableEq

namespace RuleError

def message : RuleError → String
  | invalidPattern pattern => s!"invalid pattern {Quote.quoted pattern}"
  | invalidConfig rule cause => s!"invalid configuration for {rule}: {cause.message}"
  | unknownRule name => s!"unknown rule: {name}"
  | renameBoundExceeded name declaration attempts =>
    s!"no free name for {name} (declaration #{declaration.toNat}) after {attempts} attempts"
  | followUpBoundExceeded rule limit => s!"{rule} scheduled more than {limit} follow-up rules"
  | tree cause => cause.message
  | idOverflow => "attempt to add with overflow"

/-- Whether the configuration is to blame and not the tree. -/
def isConfiguration : RuleError → Bool
  | invalidPattern .. | invalidConfig .. | unknownRule .. => true
  | _ => false

end RuleError

/-- The result of applying a rule: the new tree, the nodes replaced, and the rules to apply next. -/
structure RuleOutput (R : Type) where
  tree : Node
  transforms : List Transform := []
  followUps : List R := []

namespace RuleOutput

variable {R : Type}

/-- The result of a rule that has found nothing to do. -/
def unchanged (tree : Node) : RuleOutput R := { tree }

/-- The result of an editing session. -/
def ofSession {σ ε : Type} (fault : ε → RuleError) :
    Except ε Node × Session σ → Except RuleError (RuleOutput R)
  | (.ok tree, session) => .ok { tree, transforms := session.log.entries }
  | (.error e, _) => .error (fault e)

end RuleOutput

/-- Values that act as rules. -/
class Fixer (R : Type) where
  name : R → String
  apply : R → Node → Except RuleError (RuleOutput R)

/-- How a rule is shown in diagnostics. -/
def Fixer.describe {R : Type} [Fixer R] (rule : R) : String :=
  s!"Rule \x7b name: {Quote.quoted (Fixer.name rule)} \x7d"

end Restyle
