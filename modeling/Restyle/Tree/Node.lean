-- SUMMARY: Syntax nodes, the one recursion over them (`Node.fold`), and what a single node answers.
import Restyle.Tree.Kind

/-!
# Nodes

A node has an identity, the text around it and its kind. Every recursion over trees is a use of
`Node.fold`, which gives the nodes a value from the bottom up; `fold_eq` is its equation, and
`Node.induct` the matching induction.
-/

namespace Restyle

/-- A syntax node. -/
structure Node where
  id : NodeId
  formatting : Formatting
  kind : Kind Node

namespace Node

def tag (n : Node) : Tag := n.kind.tag

/-- The children in source order. -/
def children (n : Node) : List Node := n.kind.children

def withFormatting (n : Node) (f : Formatting) : Node := { n with formatting := f }

def withLead (n : Node) (text : String) : Node := n.withFormatting (n.formatting.withLead text)

def withTrail (n : Node) (text : String) : Node := n.withFormatting (n.formatting.withTrail text)

def withKind (n : Node) (k : Kind Node) : Node := { n with kind := k }

/-! ## Recursion -/

section Fold

variable {β : Type}

mutual

/-- Values for all nodes of a tree: `f` gets a node, and its kind with the values of the children
    in their places. -/
def fold (f : Node → Kind β → β) : Node → β
  | ⟨id, formatting, kind⟩ => f ⟨id, formatting, kind⟩ (foldKind f kind)

def foldKind (f : Node → Kind β → β) : Kind Node → Kind β
  | .compilationUnit classes eof => .compilationUnit (foldList f classes) eof
  | .classDecl modifiers keyword name typeParams superclass body ty =>
    .classDecl (foldList f modifiers) keyword (fold f name) (foldOption f typeParams)
      (foldPaddedOption f superclass) (fold f body) ty
  | .block statements finish => .block (foldList f statements) finish
  | .methodDecl modifiers typeParams returnType name ⟨before, params⟩ body =>
    .methodDecl (foldList f modifiers) (foldOption f typeParams) (foldOption f returnType)
      (fold f name) ⟨before, foldList f params⟩ (foldOption f body)
  | .variableDecls modifiers typeExpr vars =>
    .variableDecls (foldList f modifiers) (foldOption f typeExpr) (foldList f vars)
  | .namedVar name initializer => .namedVar (fold f name) (foldPaddedOption f initializer)
  | .lambda params parenthesized ⟨before, body⟩ =>
    .lambda (foldList f params) parenthesized ⟨before, fold f body⟩
  | .forLoop control body => .forLoop (fold f control) (fold f body)
  | .forControl init condition update =>
    .forControl (foldList f init) (fold f condition) (foldList f update)
  | .typeParameters params repeats => .typeParameters (foldList f params) repeats
  | .typeParameter name none => .typeParameter (fold f name) none
  | .typeParameter name (some ⟨before, bounds⟩) =>
    .typeParameter (fold f name) (some ⟨before, foldList f bounds⟩)
  | .modifier keyword => .modifier keyword
  | .ident name ty declaration => .ident name ty declaration
  | .fieldAccess target name => .fieldAccess (fold f target) (fold f name)
  | .methodInvocation select name ⟨before, args⟩ =>
    .methodInvocation (foldOption f select) (fold f name) ⟨before, foldList f args⟩
  | .assign target ⟨before, value⟩ => .assign (fold f target) ⟨before, fold f value⟩
  | .binary left operator right => .binary (fold f left) operator (fold f right)
  | .unary operator operand isPostfix => .unary operator (fold f operand) isPostfix
  | .literal text ty => .literal text ty
  | .returnStmt expression => .returnStmt (foldOption f expression)
  | .empty => .empty

def foldList (f : Node → Kind β → β) : List Node → List β
  | [] => []
  | n :: ns => fold f n :: foldList f ns

def foldOption (f : Node → Kind β → β) : Option Node → Option β
  | none => none
  | some n => some (fold f n)

def foldPaddedOption (f : Node → Kind β → β) : Option (Padded Node) → Option (Padded β)
  | none => none
  | some ⟨before, elem⟩ => some ⟨before, fold f elem⟩

end

theorem foldList_eq (f : Node → Kind β → β) (ns : List Node) :
    foldList f ns = ns.map (fold f) := by
  induction ns with
  | nil => rfl
  | cons n ns ih => simp [foldList, ih]

theorem foldOption_eq (f : Node → Kind β → β) (n : Option Node) :
    foldOption f n = n.map (fold f) := by
  cases n <;> rfl

theorem foldPaddedOption_eq (f : Node → Kind β → β) (p : Option (Padded Node)) :
    foldPaddedOption f p = p.map (Padded.map (fold f)) := by
  cases p <;> rfl

theorem foldKind_eq (f : Node → Kind β → β) (k : Kind Node) :
    foldKind f k = k.map (fold f) := by
  cases k with
  | typeParameter name bounds => cases bounds <;> simp [foldKind, Kind.map, foldList_eq, Padded.map]
  | _ => simp [foldKind, Kind.map, foldList_eq, foldOption_eq, foldPaddedOption_eq, Padded.map]

theorem fold_eq (f : Node → Kind β → β) (n : Node) :
    fold f n = f n (n.kind.map (fold f)) := by
  cases n
  rw [fold, foldKind_eq]

end Fold

/-! ## Induction -/

section Induction

variable {child : Node}

theorem sizeOf_lt_of_mem_toList {o : Option Node} (h : child ∈ o.toList) :
    sizeOf child < sizeOf o := by
  cases o with
  | none => simp at h
  | some n =>
    obtain rfl : child = n := by simpa using h
    simp

theorem sizeOf_elem_lt (p : Padded Node) : sizeOf p.elem < sizeOf p := by
  cases p
  simp only [Padded.mk.sizeOf_spec]
  omega

theorem sizeOf_lt_of_mem_padded {o : Option (Padded Node)}
    (h : child ∈ (o.map Padded.elem).toList) : sizeOf child < sizeOf o := by
  cases o with
  | none => simp at h
  | some p =>
    obtain rfl : child = p.elem := by simpa using h
    have := sizeOf_elem_lt p
    simp only [Option.some.sizeOf_spec]
    omega

theorem sizeOf_lt_of_mem_elem {p : Padded (List Node)} (h : child ∈ p.elem) :
    sizeOf child < sizeOf p := by
  have := List.sizeOf_lt_of_mem h
  cases p
  simp only [Padded.mk.sizeOf_spec] at *
  omega

theorem sizeOf_lt_of_mem_getD {o : Option (Padded (List Node))}
    (h : child ∈ (o.map Padded.elem).getD []) : sizeOf child < sizeOf o := by
  cases o with
  | none => simp at h
  | some p =>
    have : sizeOf child < sizeOf p := sizeOf_lt_of_mem_elem (by simpa using h)
    simp only [Option.some.sizeOf_spec]
    omega

/-- A child is smaller than its parent. -/
theorem sizeOf_lt_of_mem_children {n : Node} (h : child ∈ n.children) :
    sizeOf child < sizeOf n := by
  obtain ⟨id, formatting, kind⟩ := n
  have : sizeOf child < sizeOf kind := by
    cases kind <;>
      simp only [children, Kind.children, List.mem_append, List.mem_cons, List.not_mem_nil,
        or_false] at h <;>
      simp <;>
      grind [→ List.sizeOf_lt_of_mem, → sizeOf_lt_of_mem_toList, → sizeOf_lt_of_mem_padded,
        → sizeOf_lt_of_mem_elem, → sizeOf_lt_of_mem_getD, sizeOf_elem_lt]
  simp only [Node.mk.sizeOf_spec]
  omega

/-- What holds of a node whenever it holds of its children holds of all nodes. -/
theorem induct {P : Node → Prop} (step : ∀ n : Node, (∀ child ∈ n.children, P child) → P n)
    (n : Node) : P n :=
  step n fun child _ => induct step child
termination_by sizeOf n
decreasing_by exact sizeOf_lt_of_mem_children ‹_›

end Induction

/-! ## Single nodes -/

/-- The name that a node declares or is, if it has one. -/
def simpleName? : Node → Option String :=
  fold fun _ kind =>
    match kind with
    | .ident name _ _ => some name
    | .namedVar name _ => name
    | .methodDecl _ _ _ name _ _ => name
    | .classDecl _ _ name _ _ _ _ => name
    | .typeParameter name _ => name
    | _ => none

/-- The type recorded at a node, for the kinds that have one. -/
def ty? (n : Node) : Option Ty :=
  match n.kind with
  | .ident _ ty _ => some ty
  | .literal _ ty => some ty
  | .classDecl _ _ _ _ _ _ ty => some ty
  | _ => none

def isModifier (keyword : String) (n : Node) : Bool :=
  match n.kind with
  | .modifier k => k == keyword
  | _ => false

def opensScope (n : Node) : Bool := n.tag.opensScope

/-- A method without a return type is a constructor. -/
def isConstructor (n : Node) : Bool :=
  match n.kind with
  | .methodDecl _ _ returnType _ _ _ => returnType.isNone
  | _ => false

/-- A method is abstract if it says so or has no body. -/
def isAbstract (n : Node) : Bool :=
  match n.kind with
  | .methodDecl modifiers _ _ _ _ body => body.isNone || modifiers.any (isModifier "abstract")
  | _ => false

/-- The largest id in a tree. -/
def maxId : Node → NodeId :=
  fold fun n kind => kind.children.foldl max n.id

end Node

/-! ## Comparison -/

namespace Kind

variable {α β : Type}

def agreeList (p : α → β → Bool) : List α → List β → Bool
  | [], [] => true
  | a :: as, b :: bs => p a b && agreeList p as bs
  | _, _ => false

def agreeOption (p : α → β → Bool) : Option α → Option β → Bool
  | none, none => true
  | some a, some b => p a b
  | _, _ => false

def agreePadded (p : α → β → Bool) (a : Padded α) (b : Padded β) : Bool :=
  a.before == b.before && p a.elem b.elem

/-- Compares two kinds: children by `p`, types by `Ty.same` and all else exactly, but for which
    children are one node. -/
def agree (p : α → β → Bool) : Kind α → Kind β → Bool
  | compilationUnit cs e, compilationUnit cs' e' => agreeList p cs cs' && e == e'
  | classDecl ms k n ts s b t, classDecl ms' k' n' ts' s' b' t' =>
    agreeList p ms ms' && k == k' && p n n' && agreeOption p ts ts' &&
      agreeOption (agreePadded p) s s' && p b b' && t.same t'
  | block ss e, block ss' e' => agreeList p ss ss' && e == e'
  | methodDecl ms ts r n ps b, methodDecl ms' ts' r' n' ps' b' =>
    agreeList p ms ms' && agreeOption p ts ts' && agreeOption p r r' && p n n' &&
      agreePadded (agreeList p) ps ps' && agreeOption p b b'
  | variableDecls ms t vs, variableDecls ms' t' vs' =>
    agreeList p ms ms' && agreeOption p t t' && agreeList p vs vs'
  | namedVar n i, namedVar n' i' => p n n' && agreeOption (agreePadded p) i i'
  | lambda ps q b, lambda ps' q' b' => agreeList p ps ps' && q == q' && agreePadded p b b'
  | forLoop c b, forLoop c' b' => p c c' && p b b'
  | forControl i c u, forControl i' c' u' => agreeList p i i' && p c c' && agreeList p u u'
  | typeParameters ps _, typeParameters ps' _ => agreeList p ps ps'
  | typeParameter n b, typeParameter n' b' =>
    p n n' && agreeOption (agreePadded (agreeList p)) b b'
  | modifier k, modifier k' => k == k'
  | ident n t d, ident n' t' d' => n == n' && t.same t' && d == d'
  | fieldAccess t n, fieldAccess t' n' => p t t' && p n n'
  | methodInvocation s n as, methodInvocation s' n' as' =>
    agreeOption p s s' && p n n' && agreePadded (agreeList p) as as'
  | assign t v, assign t' v' => p t t' && agreePadded p v v'
  | binary l o r, binary l' o' r' => p l l' && o == o' && p r r'
  | unary o e q, unary o' e' q' => o == o' && p e e' && q == q'
  | literal s t, literal s' t' => s == s' && t.same t'
  | returnStmt e, returnStmt e' => agreeOption p e e'
  | empty, empty => true
  | _, _ => false

end Kind

namespace Node

/-- Equality of trees up to what a class type holds beside its name. -/
def same : Node → Node → Bool :=
  fold fun n kind other =>
    n.id == other.id && n.formatting == other.formatting &&
      kind.agree (fun sameAsChild child => sameAsChild child) other.kind

end Node

end Restyle
