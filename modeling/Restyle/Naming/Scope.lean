-- SUMMARY: Variables with their scopes, and the inherited members in view of a declaration.
import Restyle.Tree.Cursor

/-!
# Scopes

The scope of a variable is the nearest scope-opening node around its declaration. A variable without
one is visible everywhere.
-/

namespace Restyle

namespace Node

/-- Whether a class does not see the members of the class around it: it is no plain class, or it is
    static. -/
def isIsolated (n : Node) : Bool :=
  match n.kind with
  | .classDecl modifiers keyword _ _ _ _ _ =>
    keyword.elem != .plain || modifiers.any (isModifier "static")
  | _ => false

/-- The members that a class declaration inherits. -/
def inheritedMembers (n : Node) : List Member :=
  match n.kind with
  | .classDecl _ _ _ _ _ _ ty => ty.visibleSupertypeMembers
  | _ => []

end Node

/-- A declared variable with its place in the tree. -/
structure Binding where
  id : NodeId
  name : String
  /-- The nearest node around it that opens a scope. -/
  scope : Option NodeId
  ancestors : List NodeId

namespace Binding

/-- The binding of a named variable. -/
def ofCursor? (c : Cursor) : Option Binding :=
  match c.node.kind with
  | .namedVar .. =>
    c.node.simpleName?.map fun name =>
      { id := c.node.id, name, scope := c.scope?.map Node.id, ancestors := c.ancestors.map Node.id }
  | _ => none

/-- Whether another variable is declared inside the scope of this one. -/
def encloses (b other : Binding) : Bool :=
  match b.scope with
  | none => true
  | some scope => other.ancestors.contains scope

/-- Whether two variables can be seen in one place. -/
def overlaps (b other : Binding) : Bool := b.encloses other || other.encloses b

end Binding

namespace Node

/-- The variables of a tree in the order of their declarations. -/
def bindings (n : Node) : List Binding := n.cursors.filterMap Binding.ofCursor?

end Node

namespace Cursor

/-- The names of inherited members among some nested classes, innermost first, up to the first class
    that does not see the next one. -/
def inheritedNames : List Node → List String
  | [] => []
  | n :: outer =>
    n.inheritedMembers.map Member.name ++ if n.isIsolated then [] else inheritedNames outer

/-- The names of the inherited members that are in view at a cursor. -/
def inheritedInView (c : Cursor) : List String := inheritedNames c.ancestors

end Cursor

end Restyle
