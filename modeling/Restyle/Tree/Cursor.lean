-- SUMMARY: A node together with its ancestors, and what its surroundings say about it.
import Restyle.Tree.Node

/-!
# Cursors

A cursor is a node seen from the root: the node, its ancestors, nearest first, and its place among
its siblings. `Node.cursors` lists the cursors of a tree in pre-order.
-/

namespace Restyle

/-- A question about the surroundings of a node that has no answer. -/
inductive TreeError where
  /-- There is no ancestor of the wanted description. -/
  | missingAncestor (node : NodeId) (expected : String)
  /-- The parent is of another kind than the wanted one. -/
  | unexpectedParent (node : NodeId) (expected found : Tag)
  deriving DecidableEq

namespace TreeError

def message : TreeError → String
  | missingAncestor node expected => s!"node #{node.toNat} has no enclosing {expected}"
  | unexpectedParent node expected found =>
    s!"node #{node.toNat}: expected parent {expected.name}, found {found.name}"

end TreeError

/-- A node, its ancestors, nearest first, and the number of siblings before it. -/
structure Cursor where
  node : Node
  ancestors : List Node
  index : Nat

namespace Cursor

/-- The cursor of a tree's root. -/
def root (n : Node) : Cursor := ⟨n, [], 0⟩

/-- The cursors of the children. -/
def children (c : Cursor) : List Cursor :=
  c.node.children.zipIdx.map fun (n, index) => ⟨n, c.node :: c.ancestors, index⟩

/-- The cursor reached by child positions, if there is one. -/
def descend? (c : Cursor) : List Nat → Option Cursor
  | [] => some c
  | i :: path => c.children[i]?.bind fun child => child.descend? path

def depth (c : Cursor) : Nat := c.ancestors.length

/-- The node and its ancestors. -/
def path (c : Cursor) : List Node := c.node :: c.ancestors

def parent? (c : Cursor) : Option Node := c.ancestors.head?

/-- The nearest ancestor with a property. -/
def enclosing? (p : Node → Bool) (c : Cursor) : Option Node := c.ancestors.find? p

/-- The nearest ancestor that opens a scope. -/
def scope? (c : Cursor) : Option Node := c.enclosing? Node.opensScope

def enclosingTag? (t : Tag) (c : Cursor) : Option Node := c.enclosing? fun n => n.tag == t

def parent (c : Cursor) : Except TreeError Node :=
  match c.parent? with
  | some p => .ok p
  | none => .error (.missingAncestor c.node.id "parent")

def enclosingTag (t : Tag) (c : Cursor) : Except TreeError Node :=
  match c.enclosingTag? t with
  | some n => .ok n
  | none => .error (.missingAncestor c.node.id t.name)

end Cursor

/-- What a declared variable is. -/
inductive DeclarationKind where
  | field | localVariable | parameter | lambdaParameter
  deriving DecidableEq

namespace DeclarationKind

def name : DeclarationKind → String
  | field => "Field"
  | localVariable => "LocalVariable"
  | parameter => "Parameter"
  | lambdaParameter => "LambdaParameter"

/-- What the variables of a declaration are, by the ancestors of the declaration. -/
def ofOwners : List Node → DeclarationKind
  | [] => localVariable
  | owner :: outer =>
    match owner.tag with
    | .methodDecl => parameter
    | .lambda => lambdaParameter
    | .block => if outer.head?.any (fun n => n.tag == .classDecl) then field else localVariable
    | _ => localVariable

/-- What the variable at a cursor is. Its parent has to be a declaration. -/
def ofCursor (c : Cursor) : Except TreeError DeclarationKind :=
  match c.ancestors with
  | [] => .error (.missingAncestor c.node.id Tag.variableDecls.name)
  | decl :: owners =>
    match decl.tag with
    | .variableDecls => .ok (ofOwners owners)
    | found => .error (.unexpectedParent c.node.id .variableDecls found)

end DeclarationKind

namespace Node

/-- The cursors of a tree in pre-order, for a tree with the given place and ancestors. Nodes that
    fail `enter` are listed, and nothing below them. -/
def cursorsWhere (enter : Node → Bool) : Node → List Node → Nat → List Cursor :=
  fold fun n kind ancestors index =>
    ⟨n, ancestors, index⟩ ::
      if enter n then kind.children.zipIdx.flatMap fun (below, i) => below (n :: ancestors) i
      else []

/-- All cursors of a tree in pre-order. -/
def cursors (n : Node) : List Cursor := n.cursorsWhere (fun _ => true) [] 0

end Node

end Restyle
