-- SUMMARY: No text around type parameter lists and inside their angle brackets.
import Restyle.Rule.Basic

/-!
# Type parameter lists

A list keeps the text around it only on a method. Inside the brackets, the first parameter loses the
text before it and the last one the text after it. A node that stands in the list more than once
counts as first or last wherever it stands.
-/

namespace Restyle

namespace TypeParameterList

def ruleName : String := "GenericWhitespace"

/-- Edits a list. -/
def editList {σ : Type} (c : Cursor) (rebuilt : Node) : Edit σ TreeError Node :=
  let onMethod := c.parent?.any fun n => n.tag == .methodDecl
  if !onMethod && !c.node.formatting.isEmpty then
    Edit.replace c.node (rebuilt.withFormatting {})
  else return rebuilt

/-- Whether the parameter at a cursor is the first and whether it is the last one of its list. -/
def positionOf (c : Cursor) : Except TreeError (Bool × Bool) := do
  let parent ← c.parent
  match parent.kind with
  | .typeParameters params repeats =>
    let same := Repeats.sameAt params repeats c.index
    return (same 0, same (params.length - 1))
  | kind => throw (.unexpectedParent c.node.id .typeParameters kind.tag)

/-- The formatting of a parameter without the sides that lie at a bracket. -/
def tightened (isFirst isLast : Bool) (f : Formatting) : Formatting :=
  let f := if isFirst then f.dropLead else f
  if isLast then f.dropTrail else f

/-- Edits a parameter. -/
def editParameter {σ : Type} (c : Cursor) (rebuilt : Node) : Edit σ TreeError Node := do
  let (isFirst, isLast) ← MonadExcept.ofExcept (positionOf c)
  if tightened isFirst isLast c.node.formatting != c.node.formatting then
    Edit.replace c.node (rebuilt.withFormatting (tightened isFirst isLast rebuilt.formatting))
  else return rebuilt

def edit {σ : Type} (c : Cursor) (rebuilt : Node) : Edit σ TreeError Node :=
  match c.node.tag with
  | .typeParameters => editList c rebuilt
  | .typeParameter => editParameter c rebuilt
  | _ => return rebuilt

def apply {R : Type} (tree : Node) : Except RuleError (RuleOutput R) :=
  RuleOutput.ofSession RuleError.tree (tree.editAs ruleName () edit)

end TypeParameterList

end Restyle
