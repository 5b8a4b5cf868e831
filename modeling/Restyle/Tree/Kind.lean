-- SUMMARY: The kinds of syntax nodes over a type of children, with their children in source order.
import Restyle.Tree.Formatting
import Restyle.Tree.Types

/-!
# Kinds of nodes

`Kind α` is what a node holds beside its identity and its formatting, with the children taken from
`α`. Keeping the type of children open gives one place for each of the three ways to go through
them: `children` lists them, `map` replaces them, and `traverse` replaces them with effects, from
the first to the last.
-/

namespace Restyle

/-- Nodes are named by 32-bit numbers. -/
abbrev NodeId := UInt32

/-- The name of a kind, without its contents. -/
inductive Tag where
  | compilationUnit | classDecl | block | methodDecl | variableDecls | namedVar | lambda | forLoop
  | forControl | typeParameters | typeParameter | modifier | ident | fieldAccess | methodInvocation
  | assign | binary | unary | literal | returnStmt | empty
  deriving DecidableEq

namespace Tag

def all : List Tag :=
  [compilationUnit, classDecl, block, methodDecl, variableDecls, namedVar, lambda, forLoop,
    forControl, typeParameters, typeParameter, modifier, ident, fieldAccess, methodInvocation,
    assign, binary, unary, literal, returnStmt, empty]

/-- The name used in messages and in data. -/
def name : Tag → String
  | compilationUnit => "CompilationUnit"
  | classDecl => "ClassDecl"
  | block => "Block"
  | methodDecl => "MethodDecl"
  | variableDecls => "VariableDecls"
  | namedVar => "NamedVar"
  | lambda => "Lambda"
  | forLoop => "ForLoop"
  | forControl => "ForControl"
  | typeParameters => "TypeParameters"
  | typeParameter => "TypeParameter"
  | modifier => "Modifier"
  | ident => "Ident"
  | fieldAccess => "FieldAccess"
  | methodInvocation => "MethodInvocation"
  | assign => "Assign"
  | binary => "Binary"
  | unary => "Unary"
  | literal => "Literal"
  | returnStmt => "Return"
  | empty => "Empty"

/-- The kinds whose nodes open a scope for the variables declared below them. -/
def opensScope : Tag → Bool
  | classDecl | block | methodDecl | lambda | forLoop => true
  | _ => false

/-- The kinds whose nodes need no semicolon where they stand as a statement. -/
def closesItself : Tag → Bool
  | compilationUnit | classDecl | block | methodDecl | forLoop => true
  | _ => false

end Tag

/-- What a node of each kind holds. Text that belongs to the syntax (names, operators, literals) is
    kept here, together with the text in front of keywords and operators. -/
inductive Kind (α : Type) where
  /-- A source file and the text at its end. -/
  | compilationUnit (classes : List α) (eof : String)
  /-- A class, interface, enum or annotation. -/
  | classDecl (modifiers : List α) (keyword : Padded ClassKind) (name : α)
      (typeParams : Option α) (superclass : Option (Padded α)) (body : α) (ty : Ty)
  /-- A class body or a block of statements, and the text before its closing brace. -/
  | block (statements : List α) (finish : String)
  /-- A method, or a constructor if it has no return type. -/
  | methodDecl (modifiers : List α) (typeParams : Option α) (returnType : Option α) (name : α)
      (params : Padded (List α)) (body : Option α)
  /-- A declaration of variables as a statement, field or parameter. -/
  | variableDecls (modifiers : List α) (typeExpr : Option α) (vars : List α)
  /-- One declared variable. -/
  | namedVar (name : α) (initializer : Option (Padded α))
  | lambda (params : List α) (parenthesized : Bool) (body : Padded α)
  | forLoop (control : α) (body : α)
  /-- The header of a loop. A clause left out is a single `empty` node. -/
  | forControl (init : List α) (condition : α) (update : List α)
  /-- `repeats` is empty unless a node stands in the list more than once. It then gives for each
      parameter the first place at which the very same node stands. -/
  | typeParameters (params : List α) (repeats : List Nat)
  | typeParameter (name : α) (bounds : Option (Padded (List α)))
  | modifier (keyword : String)
  /-- A simple name, with the declaration that it refers to if that is known. -/
  | ident (name : String) (ty : Ty) (declaration : Option NodeId)
  | fieldAccess (target : α) (name : α)
  | methodInvocation (select : Option α) (name : α) (args : Padded (List α))
  | assign (target : α) (value : Padded α)
  | binary (left : α) (operator : Padded String) (right : α)
  | unary (operator : String) (operand : α) (isPostfix : Bool)
  | literal (text : String) (ty : Ty)
  | returnStmt (expression : Option α)
  /-- An absent statement or clause. -/
  | empty

namespace Kind

variable {α β : Type}

def tag : Kind α → Tag
  | compilationUnit .. => .compilationUnit
  | classDecl .. => .classDecl
  | block .. => .block
  | methodDecl .. => .methodDecl
  | variableDecls .. => .variableDecls
  | namedVar .. => .namedVar
  | lambda .. => .lambda
  | forLoop .. => .forLoop
  | forControl .. => .forControl
  | typeParameters .. => .typeParameters
  | typeParameter .. => .typeParameter
  | modifier .. => .modifier
  | ident .. => .ident
  | fieldAccess .. => .fieldAccess
  | methodInvocation .. => .methodInvocation
  | assign .. => .assign
  | binary .. => .binary
  | unary .. => .unary
  | literal .. => .literal
  | returnStmt .. => .returnStmt
  | empty => .empty

/-- The children in source order. -/
def children : Kind α → List α
  | compilationUnit classes _ => classes
  | classDecl modifiers _ name typeParams superclass body _ =>
    modifiers ++ name :: (typeParams.toList ++ (superclass.map Padded.elem).toList ++ [body])
  | block statements _ => statements
  | methodDecl modifiers typeParams returnType name params body =>
    modifiers ++ (typeParams.toList ++ returnType.toList ++ name :: (params.elem ++ body.toList))
  | variableDecls modifiers typeExpr vars => modifiers ++ (typeExpr.toList ++ vars)
  | namedVar name initializer => name :: (initializer.map Padded.elem).toList
  | lambda params _ body => params ++ [body.elem]
  | forLoop control body => [control, body]
  | forControl init condition update => init ++ condition :: update
  | typeParameters params _ => params
  | typeParameter name bounds => name :: (bounds.map Padded.elem).getD []
  | modifier _ => []
  | ident _ _ _ => []
  | fieldAccess target name => [target, name]
  | methodInvocation select name args => select.toList ++ name :: args.elem
  | assign target value => [target, value.elem]
  | binary left _ right => [left, right]
  | unary _ operand _ => [operand]
  | literal _ _ => []
  | returnStmt expression => expression.toList
  | empty => []

/-- Replaces every child and keeps the rest. -/
def map (f : α → β) : Kind α → Kind β
  | compilationUnit classes eof => compilationUnit (classes.map f) eof
  | classDecl modifiers keyword name typeParams superclass body ty =>
    classDecl (modifiers.map f) keyword (f name) (typeParams.map f)
      (superclass.map (Padded.map f)) (f body) ty
  | block statements finish => block (statements.map f) finish
  | methodDecl modifiers typeParams returnType name params body =>
    methodDecl (modifiers.map f) (typeParams.map f) (returnType.map f) (f name)
      (params.map (List.map f)) (body.map f)
  | variableDecls modifiers typeExpr vars =>
    variableDecls (modifiers.map f) (typeExpr.map f) (vars.map f)
  | namedVar name initializer => namedVar (f name) (initializer.map (Padded.map f))
  | lambda params parenthesized body => lambda (params.map f) parenthesized (body.map f)
  | forLoop control body => forLoop (f control) (f body)
  | forControl init condition update => forControl (init.map f) (f condition) (update.map f)
  | typeParameters params repeats => typeParameters (params.map f) repeats
  | typeParameter name bounds => typeParameter (f name) (bounds.map (Padded.map (List.map f)))
  | modifier keyword => modifier keyword
  | ident name ty declaration => ident name ty declaration
  | fieldAccess target name => fieldAccess (f target) (f name)
  | methodInvocation select name args =>
    methodInvocation (select.map f) (f name) (args.map (List.map f))
  | assign target value => assign (f target) (value.map f)
  | binary left operator right => binary (f left) operator (f right)
  | unary operator operand isPostfix => unary operator (f operand) isPostfix
  | literal text ty => literal text ty
  | returnStmt expression => returnStmt (expression.map f)
  | empty => empty

/-- Replaces every child by an action, in the order of `children`. -/
def traverse {m : Type → Type} [Monad m] (f : α → m β) : Kind α → m (Kind β)
  | compilationUnit classes eof => do
    return compilationUnit (← classes.mapM f) eof
  | classDecl modifiers keyword name typeParams superclass body ty => do
    return classDecl (← modifiers.mapM f) keyword (← f name) (← typeParams.mapM f)
      (← superclass.mapM (Padded.traverse f)) (← f body) ty
  | block statements finish => do
    return block (← statements.mapM f) finish
  | methodDecl modifiers typeParams returnType name params body => do
    return methodDecl (← modifiers.mapM f) (← typeParams.mapM f) (← returnType.mapM f)
      (← f name) (← params.traverse (List.mapM f)) (← body.mapM f)
  | variableDecls modifiers typeExpr vars => do
    return variableDecls (← modifiers.mapM f) (← typeExpr.mapM f) (← vars.mapM f)
  | namedVar name initializer => do
    return namedVar (← f name) (← initializer.mapM (Padded.traverse f))
  | lambda params parenthesized body => do
    return lambda (← params.mapM f) parenthesized (← body.traverse f)
  | forLoop control body => do
    return forLoop (← f control) (← f body)
  | forControl init condition update => do
    return forControl (← init.mapM f) (← f condition) (← update.mapM f)
  | typeParameters params repeats => do
    return typeParameters (← params.mapM f) repeats
  | typeParameter name bounds => do
    return typeParameter (← f name) (← bounds.mapM (Padded.traverse (List.mapM f)))
  | modifier keyword => return modifier keyword
  | ident name ty declaration => return ident name ty declaration
  | fieldAccess target name => do
    return fieldAccess (← f target) (← f name)
  | methodInvocation select name args => do
    return methodInvocation (← select.mapM f) (← f name) (← args.traverse (List.mapM f))
  | assign target value => do
    return assign (← f target) (← value.traverse f)
  | binary left operator right => do
    return binary (← f left) operator (← f right)
  | unary operator operand isPostfix => do
    return unary operator (← f operand) isPostfix
  | literal text ty => return literal text ty
  | returnStmt expression => do
    return returnStmt (← expression.mapM f)
  | empty => return empty

/-- As `traverse`, with the number of children before each child. -/
def traverseIdx {m : Type → Type} [Monad m] (f : α → Nat → m β) (kind : Kind α) : m (Kind β) := do
  let numbered : α → StateT Nat m β := fun child index => do return (← f child index, index + 1)
  return (← (kind.traverse numbered).run 0).1

end Kind

end Restyle
