-- SUMMARY: Building a tree step by step, with the steps as data.
import Restyle.Tree.Builder
import Restyle.Tree.Repeats

/-!
# Blueprints

A blueprint is a list of building steps. The nodes that are made get numbers from 0 in the order
in which they are made, and later steps refer to them by these numbers.
-/

namespace Restyle

/-- One step of a blueprint. Arguments of type `Nat` are numbers of nodes. -/
inductive BuildStep where
  /-- Takes an id and makes no node. -/
  | skipId
  /-- A node of any kind, with numbers in the places of its children. -/
  | nodeWith (formatting : Formatting) (kind : Kind Nat)
  | ident (lead name : String) (ty : Ty)
  | formattedIdent (formatting : Formatting) (name : String) (ty : Ty)
  | reference (lead : String) (var : Nat)
  | modifier (lead keyword : String)
  | literal (lead text : String) (ty : Ty)
  | empty (lead : String)
  | namedVar (lead name : String) (initializer : Option Nat)
  | variableDecls (lead : String) (modifiers : List Nat) (typeExpr : Option Nat) (vars : List Nat)
  | localVar (lead typeName name : String) (initializer : Option Nat)
  | lambdaParam (lead name : String)
  | method (lead : String) (modifiers : List Nat) (returnType : Option Nat) (name : String)
      (params : List Nat) (body : Option Nat)
  | classDecl (lead : String) (kind : ClassKind) (modifiers : List Nat) (name : String)
      (typeParams : Option Nat) (superclass : Option Nat) (body : Nat) (ty : Ty)
  | typeParameters (lead : String) (params : List Nat)
  | typeParameter (lead name : String)
  | typeParameterOf (lead : String) (name : Nat) (bounds : Option (Padded (List Nat)))
  | compilationUnit (classes : List Nat) (eof : String)
  | block (lead : String) (statements : List Nat) (finish : String)
  | forLoop (lead : String) (control body : Nat)
  | forControl (lead : String) (init : List Nat) (condition : Nat) (update : List Nat)
  | returnStmt (lead : String) (expression : Option Nat)
  | fieldAccess (lead : String) (target name : Nat)
  | methodInvocation (lead : String) (select : Option Nat) (name : Nat) (args : Padded (List Nat))
  | assign (lead : String) (target : Nat) (value : Padded Nat)
  | binary (lead : String) (left : Nat) (operator : Padded String) (right : Nat)
  | unary (lead operator : String) (operand : Nat) (isPostfix : Bool)
  | lambda (lead : String) (params : List Nat) (parenthesized : Bool) (body : Padded Nat)
  /-- A copy of a node with other text before it. -/
  | withLead (node : Nat) (lead : String)
  /-- A copy of a node with other text after it. -/
  | withTrail (node : Nat) (trail : String)
  /-- A copy of a method with type parameters. -/
  | withTypeParameters (node : Nat) (typeParams : Nat)

namespace BuildStep

/-- Looks up a node by its number. -/
def nodeAt (made : List Node) (index : Nat) : Build Node :=
  match made[index]? with
  | some n => pure n
  | none => throw (.noSuchNode index)

/-- Notes in a list of type parameters which of its numbers are the same. -/
def noteRepeats : Kind Nat → Kind Nat
  | .typeParameters params _ => .typeParameters params (Repeats.ofKeys params)
  | kind => kind

/-- Makes the nodes of a step from the nodes made before it. -/
def run (made : List Node) : BuildStep → Build (List Node)
  | skipId => do
    let _ ← Build.fresh
    return []
  | nodeWith formatting kind =>
    return [← Build.nodeWith formatting (← (noteRepeats kind).traverse (nodeAt made))]
  | ident lead name ty => return [← Build.node lead (.ident name ty none)]
  | formattedIdent formatting name ty =>
    return [← Build.nodeWith formatting (.ident name ty none)]
  | reference lead var => return [← Build.reference lead (← nodeAt made var)]
  | modifier lead keyword => return [← Build.modifier lead keyword]
  | literal lead text ty => return [← Build.node lead (.literal text ty)]
  | empty lead => return [← Build.node lead .empty]
  | namedVar lead name initializer =>
    return [← Build.namedVar lead name (← initializer.mapM (nodeAt made))]
  | localVar lead typeName name initializer => do
    let (decl, var) ← Build.localVar lead typeName name (← initializer.mapM (nodeAt made))
    return [decl, var]
  | lambdaParam lead name => do
    let (decl, var) ← Build.lambdaParam lead name
    return [decl, var]
  | method lead modifiers returnType name params body =>
    return [← Build.method lead (← modifiers.mapM (nodeAt made))
      (← returnType.mapM (nodeAt made)) name (← params.mapM (nodeAt made))
      (← body.mapM (nodeAt made))]
  | classDecl lead kind modifiers name typeParams superclass body ty =>
    return [← Build.classDecl lead kind (← modifiers.mapM (nodeAt made)) name
      (← typeParams.mapM (nodeAt made)) (← superclass.mapM (nodeAt made)) (← nodeAt made body) ty]
  | typeParameter lead name => return [← Build.typeParameter lead name]
  | variableDecls lead modifiers typeExpr vars =>
    place lead (.variableDecls modifiers typeExpr vars)
  | typeParameters lead params => place lead (.typeParameters params [])
  | typeParameterOf lead name bounds => place lead (.typeParameter name bounds)
  | compilationUnit classes eof => place "" (.compilationUnit classes eof)
  | block lead statements finish => place lead (.block statements finish)
  | forLoop lead control body => place lead (.forLoop control body)
  | forControl lead init condition update => place lead (.forControl init condition update)
  | returnStmt lead expression => place lead (.returnStmt expression)
  | fieldAccess lead target name => place lead (.fieldAccess target name)
  | methodInvocation lead select name args => place lead (.methodInvocation select name args)
  | assign lead target value => place lead (.assign target value)
  | binary lead left operator right => place lead (.binary left operator right)
  | unary lead operator operand isPostfix => place lead (.unary operator operand isPostfix)
  | lambda lead params parenthesized body => place lead (.lambda params parenthesized body)
  | withLead node lead => return [(← nodeAt made node).withLead lead]
  | withTrail node trail => return [(← nodeAt made node).withTrail trail]
  | withTypeParameters node typeParams => do
    let typeParams ← nodeAt made typeParams
    let method ← nodeAt made node
    match method.kind with
    | .methodDecl modifiers _ returnType name params body =>
      return [method.withKind (.methodDecl modifiers (some typeParams) returnType name params body)]
    | _ => return [method]
where
  /-- A node of a kind that holds numbers in the places of its children. -/
  place (lead : String) (kind : Kind Nat) : Build (List Node) := do
    return [← Build.node lead (← (noteRepeats kind).traverse (nodeAt made))]

end BuildStep

/-- The steps of a construction. -/
abbrev Blueprint := List BuildStep

namespace Blueprint

/-- Runs the steps and gives the nodes made by each of them. -/
def runFrom (made : List Node) : Blueprint → Build (List (List Node))
  | [] => return []
  | step :: steps => do
    let new ← step.run made
    return new :: (← runFrom (made ++ new) steps)

/-- Runs a blueprint with the given first id. -/
def run (first : NodeId) (blueprint : Blueprint) : Except BuildError (List (List Node)) :=
  (·.1) <$> (runFrom [] blueprint).run first

end Blueprint

end Restyle
