-- SUMMARY: Construction of nodes with ids handed out in increasing order.
import Restyle.Tree.Node

/-!
# Building nodes

`Build` hands out ids one after another. A constructor that makes several nodes makes the inner ones
first, so a node is always younger than everything below it. Constructors take the text before
their node as `lead` and put single spaces where the printed form needs them.
-/

namespace Restyle

/-- The ways in which building can fail. -/
inductive BuildError where
  /-- The counter cannot move past the id that was handed out. -/
  | idOverflow
  /-- A step refers to a node that was not made. -/
  | noSuchNode (index : Nat)
  deriving DecidableEq

namespace BuildError

def message : BuildError → String
  | idOverflow => "attempt to add with overflow"
  | noSuchNode index => s!"no node number {index}"

end BuildError

namespace NodeId

/-- The largest id. -/
def last : NodeId := 4294967295

/-- The id after another one, if there is one. -/
def next? (id : NodeId) : Option NodeId := if id == last then none else some (id + 1)

end NodeId

/-- Building from a counter that holds the next id. -/
abbrev Build := StateT NodeId (Except BuildError)

namespace Build

/-- Hands out the next id and moves the counter on. -/
def fresh : Build NodeId := fun id =>
  match NodeId.next? id with
  | some next => .ok (id, next)
  | none => .error .idOverflow

def nodeWith (formatting : Formatting) (kind : Kind Node) : Build Node := do
  return ⟨← fresh, formatting, kind⟩

def node (lead : String) (kind : Kind Node) : Build Node := nodeWith (.leading lead) kind

def ident (lead name : String) : Build Node :=
  node lead (.ident name .unknown none)

/-- A name that refers to a declared variable. -/
def reference (lead : String) (var : Node) : Build Node :=
  node lead (.ident (var.simpleName?.getD "") .unknown (some var.id))

def modifier (lead keyword : String) : Build Node := node lead (.modifier keyword)

/-- A variable, with a space before the `=` of its initializer. -/
def namedVar (lead name : String) (initializer : Option Node) : Build Node := do
  let name ← ident "" name
  node lead (.namedVar name (initializer.map fun init => ⟨" ", init⟩))

/-- A declaration of one variable with its type: the declaration and the variable. -/
def localVar (lead typeName name : String) (initializer : Option Node) : Build (Node × Node) := do
  let typeExpr ← ident "" typeName
  let var ← namedVar " " name initializer
  let decl ← node lead (.variableDecls [] (some typeExpr) [var])
  return (decl, var)

/-- A lambda parameter without a type: the declaration and the variable. -/
def lambdaParam (lead name : String) : Build (Node × Node) := do
  let var ← namedVar "" name none
  let decl ← node lead (.variableDecls [] none [var])
  return (decl, var)

/-- A method, or a constructor if there is no return type. -/
def method (lead : String) (modifiers : List Node) (returnType : Option Node) (name : String)
    (params : List Node) (body : Option Node) : Build Node := do
  let name ← ident (if modifiers.isEmpty && returnType.isNone then "" else " ") name
  node lead (.methodDecl modifiers none returnType name ⟨"", params⟩ body)

/-- A class, with a space before each keyword that follows something. -/
def classDecl (lead : String) (kind : ClassKind) (modifiers : List Node) (name : String)
    (typeParams : Option Node) (superclass : Option Node) (body : Node) (ty : Ty) :
    Build Node := do
  let keyword : Padded ClassKind := ⟨if modifiers.isEmpty then "" else " ", kind⟩
  let name ← ident " " name
  let superclass := superclass.map fun s => Padded.mk " " s
  node lead (.classDecl modifiers keyword name typeParams superclass body ty)

def typeParameter (lead name : String) : Build Node := do
  let name ← ident "" name
  node lead (.typeParameter name none)

end Build

end Restyle
