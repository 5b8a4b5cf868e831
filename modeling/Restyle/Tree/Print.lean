-- SUMMARY: The source text of a tree.
import Restyle.Tree.Node

/-!
# Printing

A tree holds all of its text, so printing only puts the pieces together: the formatting of each
node around the text of its kind.
-/

namespace Restyle

/-- The printed text of a node, with what a surrounding statement list has to know of it. -/
structure Fragment where
  text : String
  /-- Whether the node stands as a statement without a semicolon. -/
  closesItself : Bool

namespace Fragment

/-- The fragment in the place of a statement. -/
def statement (f : Fragment) : String := if f.closesItself then f.text else f.text ++ ";"

/-- The fragments one after another. -/
def concat : List Fragment → String
  | [] => ""
  | f :: fs => f.text ++ concat fs

/-- The fragments one after another, each as a statement. -/
def statements : List Fragment → String
  | [] => ""
  | f :: fs => f.statement ++ statements fs

/-- The fragments with a separator between them. -/
def separated (separator : String) : List Fragment → String
  | [] => ""
  | [f] => f.text
  | f :: fs => f.text ++ separator ++ separated separator fs

def ofOption : Option Fragment → String
  | none => ""
  | some f => f.text

/-- An optional element behind its token. -/
def introduced (token : String) : Option (Padded Fragment) → String
  | none => ""
  | some ⟨before, elem⟩ => before ++ token ++ elem.text

end Fragment

namespace Kind

/-- The text of a kind whose children are printed. -/
def text : Kind Fragment → String
  | compilationUnit classes eof => Fragment.concat classes ++ eof
  | classDecl modifiers keyword name typeParams superclass body _ =>
    Fragment.concat modifiers ++ keyword.before ++ keyword.elem.keyword ++ name.text ++
      Fragment.ofOption typeParams ++ Fragment.introduced "extends" superclass ++ body.text
  | block statements finish =>
    "\x7b" ++ Fragment.statements statements ++ finish ++ "\x7d"
  | methodDecl modifiers typeParams returnType name params body =>
    Fragment.concat modifiers ++ Fragment.ofOption typeParams ++ Fragment.ofOption returnType ++
      name.text ++ params.before ++ "(" ++ Fragment.separated "," params.elem ++ ")" ++
      match body with
      | none => ";"
      | some body => body.text
  | variableDecls modifiers typeExpr vars =>
    Fragment.concat modifiers ++ Fragment.ofOption typeExpr ++ Fragment.separated "," vars
  | namedVar name initializer => name.text ++ Fragment.introduced "=" initializer
  | lambda params parenthesized body =>
    (if parenthesized then "(" ++ Fragment.separated "," params ++ ")"
      else Fragment.separated "," params) ++ body.before ++ "->" ++ body.elem.text
  | forLoop control body => "for" ++ control.text ++ body.statement
  | forControl init condition update =>
    "(" ++ Fragment.separated "," init ++ ";" ++ condition.text ++ ";" ++
      Fragment.separated "," update ++ ")"
  | typeParameters params _ => "<" ++ Fragment.separated "," params ++ ">"
  | typeParameter name bounds =>
    name.text ++
      match bounds with
      | none => ""
      | some ⟨before, types⟩ => before ++ "extends" ++ Fragment.separated "&" types
  | modifier keyword => keyword
  | ident name _ _ => name
  | fieldAccess target name => target.text ++ "." ++ name.text
  | methodInvocation select name args =>
    (match select with
      | none => ""
      | some select => select.text ++ ".") ++ name.text ++ args.before ++ "(" ++
      Fragment.separated "," args.elem ++ ")"
  | assign target value => target.text ++ value.before ++ "=" ++ value.elem.text
  | binary left operator right => left.text ++ operator.before ++ operator.elem ++ right.text
  | unary operator operand isPostfix =>
    if isPostfix then operand.text ++ operator else operator ++ operand.text
  | literal text _ => text
  | returnStmt expression => "return" ++ Fragment.ofOption expression
  | empty => ""

end Kind

namespace Node

/-- The printed form of a node. -/
def fragment : Node → Fragment :=
  fold fun n kind => ⟨n.formatting.lead ++ kind.text ++ n.formatting.trail, n.tag.closesItself⟩

/-- The source text of a tree. -/
def print (n : Node) : String := n.fragment.text

end Node

end Restyle
