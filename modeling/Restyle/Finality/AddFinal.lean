-- SUMMARY: Marking effectively final local variables as `final`.
import Restyle.Finality.Writes
import Restyle.Rule.Basic
import Restyle.Tree.Builder

/-!
# Final local variables

A declaration of local variables that are never written again gets the modifier `final` in front.
The modifier takes the place of what came first, with the text before it.
-/

namespace Restyle

namespace AddFinal

def ruleName : String := "FinalLocalVariable"

/-- Whether a declaration is a statement of a block that is no class body, or stands in the header
    of a loop. -/
def isLocal (c : Cursor) : Bool :=
  match c.ancestors with
  | [] => false
  | owner :: outer =>
    match owner.tag with
    | .block => !outer.head?.any fun n => n.tag == .classDecl
    | .forControl => true
    | _ => false

/-- Whether a declaration is to be marked. -/
def qualifies (c : Cursor) : Bool :=
  match c.node.kind with
  | .variableDecls modifiers typeExpr vars =>
    isLocal c && typeExpr.isSome && !vars.isEmpty && !modifiers.any (Node.isModifier "final") &&
      c.scope?.any fun scope => vars.all scope.isEffectivelyFinal
  | _ => false

/-- Puts a modifier in front of a declaration. What came first is set off by a space. -/
def withModifier (modifier decl : Node) : Node :=
  match decl.kind with
  | .variableDecls (first :: others) typeExpr vars =>
    let modifiers := modifier.withLead first.formatting.lead :: first.withLead " " :: others
    decl.withKind (.variableDecls modifiers typeExpr vars)
  | .variableDecls [] (some typeExpr) vars =>
    let modifiers := [modifier.withLead typeExpr.formatting.lead]
    decl.withKind (.variableDecls modifiers (some (typeExpr.withLead " ")) vars)
  | .variableDecls [] none vars =>
    decl.withKind (.variableDecls [modifier.withLead ""] none vars)
  | _ => decl

/-- Building as a part of an editing session. -/
def allocate {α : Type} (make : Build α) : Edit NodeId BuildError α := do
  let session ← get
  match make.run session.state with
  | .ok (made, next) =>
    set { session with state := next }
    return made
  | .error e => throw e

def edit (c : Cursor) (rebuilt : Node) : Edit NodeId BuildError Node := do
  if qualifies c then
    let modifier ← allocate (Build.modifier "" "final")
    Edit.replace c.node (withModifier modifier rebuilt)
  else return rebuilt

/-- Marks all declarations that qualify. The new modifiers get ids above those of the tree, and
    there has to be one to start with. -/
def apply {R : Type} (tree : Node) : Except RuleError (RuleOutput R) :=
  match NodeId.next? tree.maxId with
  | none => .error .idOverflow
  | some first =>
    RuleOutput.ofSession (fun _ => .idOverflow) (tree.editAs ruleName first edit)

end AddFinal

end Restyle
