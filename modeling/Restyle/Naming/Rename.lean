-- SUMMARY: Renaming a variable and all references to it to a name that is free.
import Restyle.Naming.Fresh
import Restyle.Naming.Scope
import Restyle.Rule.Basic

/-!
# Renaming

A variable gets the first successor of its name that no inherited member has and no other variable
that can be seen in one place with it. References follow by identity, never by text.
-/

namespace Restyle

/-- The request to give a variable another name. -/
structure Renaming where
  target : NodeId
  /-- Members whose names are to be avoided beside those in view. -/
  members : List Member

namespace Renaming

def ruleName : String := "RenameShadowedName"

/-- The inherited names in view of the target. If several variables have the id of the target, the
    last one counts. -/
def inheritedInView (r : Renaming) (tree : Node) : List String :=
  let places := tree.cursors.filter fun c => c.node.tag == .namedVar && c.node.id == r.target
  match places.getLast? with
  | some c => c.inheritedInView
  | none => []

/-- Whether a name cannot be given to the target. -/
def collides (r : Renaming) (inherited : List String) (bindings : List Binding) (target : Binding)
    (candidate : String) : Bool :=
  r.members.any (fun m => m.name == candidate) || inherited.contains candidate ||
    bindings.any fun other =>
      other.id != target.id && other.name == candidate && other.overlaps target

/-- The new name of the target. -/
def freshName (r : Renaming) (tree : Node) (target : Binding) : Except RuleError String :=
  match Name.findFree (r.collides (r.inheritedInView tree) tree.bindings target) target.name
      Name.attemptLimit with
  | some name => .ok name
  | none => .error (.renameBoundExceeded target.name target.id Name.attemptLimit)

end Renaming

namespace Node

/-- Gives a name another spelling. -/
def respell (n : Node) (name : String) : Node :=
  match n.kind with
  | .ident _ ty declaration => n.withKind (.ident name ty declaration)
  | _ => n

/-- Gives a declared variable another name. -/
def respellVariable (n : Node) (name : String) : Node :=
  match n.kind with
  | .namedVar id initializer => n.withKind (.namedVar (id.respell name) initializer)
  | _ => n

end Node

namespace Renaming

/-- The edit at each node: the target gets the new name, and so do the references to it that do not
    have it yet. -/
def edit {σ ε : Type} (target : NodeId) (name : String) (c : Cursor) (rebuilt : Node) :
    Edit σ ε Node :=
  match c.node.kind with
  | .namedVar .. =>
    if c.node.id == target then Edit.replace c.node (rebuilt.respellVariable name)
    else return rebuilt
  | .ident old _ declaration =>
    if declaration == some target && old != name then
      Edit.replace c.node (rebuilt.respell name)
    else return rebuilt
  | _ => return rebuilt

/-- Renames the target. A tree without it stays as it is. -/
def apply {R : Type} (r : Renaming) (tree : Node) : Except RuleError (RuleOutput R) :=
  match tree.bindings.find? fun b => b.id == r.target with
  | none => .ok (.unchanged tree)
  | some target => do
    let name ← r.freshName tree target
    RuleOutput.ofSession RuleError.tree (tree.editAs ruleName () (edit r.target name))

end Renaming

end Restyle
