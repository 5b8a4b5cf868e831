-- SUMMARY: The rules of this library as one type.
import Restyle.Finality.AddFinal
import Restyle.Naming.Shadow
import Restyle.Spacing.ForHeader
import Restyle.Spacing.TypeParameterList

/-!
# Built-in rules

Four rules can be configured. The fifth, renaming, is only ever scheduled by the rule for hidden
fields.
-/

namespace Restyle

/-- A rule with its options. -/
inductive Rule where
  | hiddenField (rule : HiddenField)
  | rename (request : Renaming)
  | forHeader (policy : PadPolicy)
  | typeParameterList
  | addFinal

namespace HiddenField

/-- Leaves the tree alone and schedules a renaming for each declaration that hides a field. -/
def apply (rule : HiddenField) (tree : Node) : Except RuleError (RuleOutput Rule) :=
  match rule.scheduled tree with
  | .ok renamings => .ok { tree, followUps := renamings.map Rule.rename }
  | .error e => .error (.tree e)

end HiddenField

namespace Rule

def name : Rule → String
  | hiddenField _ => HiddenField.ruleName
  | rename _ => Renaming.ruleName
  | forHeader _ => ForHeader.ruleName
  | typeParameterList => TypeParameterList.ruleName
  | addFinal => AddFinal.ruleName

def apply : Rule → Node → Except RuleError (RuleOutput Rule)
  | hiddenField rule => rule.apply
  | rename request => request.apply
  | forHeader policy => ForHeader.apply policy
  | typeParameterList => TypeParameterList.apply
  | addFinal => AddFinal.apply

instance : Fixer Rule := ⟨name, apply⟩

end Rule

end Restyle
