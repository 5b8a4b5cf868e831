-- SUMMARY: Local declarations that hide a member of a class, and their renaming.
import Restyle.Naming.Rename
import Restyle.Pattern.Match
import Restyle.Rule.Options
import Restyle.Text.Unicode.Case

/-!
# Hidden fields

A local variable, parameter or lambda parameter hides a member if it has the member's name and
stands in the body of the class. The rule finds all such declarations (`HiddenField.scheduled`) and
leaves the tree as it is; each of them is renamed by a rule of its own.
-/

namespace Restyle

/-! ## Exemptions -/

namespace Node

/-- Whether a type expression says `void`. The recorded type decides if it is known. -/
def saysVoid (n : Node) : Bool :=
  match n.ty? with
  | none | some .unknown => n.simpleName? == some "void"
  | some ty => ty.isVoid

/-- Whether a type expression is known to be a class. -/
def saysClass (ty : Ty) (n : Node) : Bool := ty.asClass?.isSome && n.ty?.any fun t => t.same ty

/-- The property that a method sets, by its name. -/
def settersProperty? (method : Node) : Option String :=
  match method.simpleName?.map String.toList with
  | some ('s' :: 'e' :: 't' :: property) =>
    if property.isEmpty then none else some (String.ofList property)
  | _ => none

end Node

namespace HiddenFieldOptions

/-- Whether a method is the setter of a property: it is named after it, in any case, and returns
    nothing or, if that is allowed, the class. -/
def isSetterOf (o : HiddenFieldOptions) (classType : Ty) (property : String) (method : Node) :
    Bool :=
  match method.kind, method.settersProperty? with
  | .methodDecl _ _ (some returnType) _ _ _, some named =>
    Unicode.lowercaseText named == Unicode.lowercaseText property &&
      (returnType.saysVoid || o.setterCanReturnItsClass && returnType.saysClass classType)
  | _, _ => false

/-- Whether the parameters of a method may hide a member. -/
def exempts (o : HiddenFieldOptions) (classType : Ty) (member : String) (method : Node) : Bool :=
  o.ignoreConstructorParameter && method.isConstructor ||
    o.ignoreSetter && o.isSetterOf classType member method ||
    o.ignoreAbstractMethods && method.isAbstract

end HiddenFieldOptions

/-! ## Search -/

/-- The search for declarations that hide one member of a class. -/
structure ShadowSearch where
  /-- The name of the member. -/
  name : String
  /-- The declaration of the member itself, if the class declares it. -/
  exclude : Option NodeId
  classType : Ty
  options : HiddenFieldOptions

namespace ShadowSearch

/-- Whether a cursor is at another variable with the name of the member. -/
def isNamesake (s : ShadowSearch) (c : Cursor) : Bool :=
  c.node.tag == .namedVar && c.node.simpleName? == some s.name && s.exclude != some c.node.id

/-- Whether a namesake hides the member: it is watched, and its method does not exempt it. -/
def hides (s : ShadowSearch) (c : Cursor) : Except TreeError Bool := do
  let kind ← DeclarationKind.ofCursor c
  let watched := (Watched.ofDeclaration? kind).any s.options.tokens.contains
  let owner := (c.ancestors[1]?).filter fun n => n.tag == .methodDecl
  return watched && !owner.any (s.options.exempts s.classType s.name)

/-- The part of a class body that sees the members of the class. -/
def region (c : Cursor) : List Cursor :=
  match c.node.kind with
  | .classDecl _ _ _ _ _ body _ =>
    body.cursorsWhere (fun n => !n.isIsolated) (c.node :: c.ancestors) (c.node.children.length - 1)
  | _ => []

/-- The declarations in a class that hide the member. -/
def run (s : ShadowSearch) (c : Cursor) : Except TreeError (List NodeId) := do
  let shadows ← ((region c).filter s.isNamesake).filterM s.hides
  return shadows.map fun c => c.node.id

end ShadowSearch

/-! ## The rule -/

/-- The rule for hidden fields, with its pattern compiled. -/
structure HiddenField where
  options : HiddenFieldOptions
  ignore : Option Pattern

namespace HiddenField

def ruleName : String := "HiddenField"

/-- Sets up the rule; the configured pattern has to be a regular expression. -/
def ofOptions (options : HiddenFieldOptions) : Except RuleError HiddenField :=
  match options.ignoreFormat with
  | none => .ok ⟨options, none⟩
  | some format =>
    match Pattern.wholeName? format with
    | some pattern => .ok ⟨options, some pattern⟩
    | none => .error (.invalidPattern format)

def isIgnored (rule : HiddenField) (name : String) : Bool :=
  rule.ignore.any fun pattern => pattern.isMatch name

/-- The fields that a class declares in its body, with their names. -/
def ownFields (classDecl : Node) : List (String × NodeId) :=
  match classDecl.kind with
  | .classDecl _ _ _ _ _ body _ =>
    match body.kind with
    | .block statements _ =>
      statements.flatMap fun statement =>
        match statement.kind with
        | .variableDecls _ _ vars =>
          vars.filterMap fun var => var.simpleName?.map fun name => (name, var.id)
        | _ => []
    | _ => []
  | _ => []

/-- The names that may not be hidden in a class: inherited members first, then the fields of the
    class with their declarations. -/
def protectedNames (rule : HiddenField) (classDecl : Node) : List (String × Option NodeId) :=
  let inherited := classDecl.inheritedMembers.map fun m => (m.name, none)
  let own := (ownFields classDecl).map fun (name, id) => (name, some id)
  (inherited ++ own).filter fun (name, _) => !rule.isIgnored name

/-- The renamings that a class asks for. -/
def renamingsAt (rule : HiddenField) (c : Cursor) : Except TreeError (List Renaming) :=
  match c.node.kind with
  | .classDecl _ _ _ _ _ _ ty => do
    let found ← (rule.protectedNames c.node).mapM fun (name, exclude) =>
      ShadowSearch.run { name, exclude, classType := ty, options := rule.options } c
    return found.flatten.map fun id => ⟨id, c.node.inheritedMembers⟩
  | _ => return []

/-- Keeps the first renaming of each target. -/
def firsts (seen : List NodeId) : List Renaming → List Renaming
  | [] => []
  | r :: rs => if seen.contains r.target then firsts seen rs else r :: firsts (r.target :: seen) rs

/-- The renamings that a tree asks for, classes in pre-order. -/
def scheduled (rule : HiddenField) (tree : Node) : Except TreeError (List Renaming) := do
  let found ← tree.cursors.mapM rule.renamingsAt
  return firsts [] found.flatten

end HiddenField

end Restyle
