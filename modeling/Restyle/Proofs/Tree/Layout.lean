-- SUMMARY: Where the nodes of a tree stand in its printed text.
import Restyle.Proofs.Tree.Editing
import Restyle.Tree.Print

/-!
# Layouts

The text of a node is the text of its children with tokens between them (`Kind.pieces`). So each
node of a tree begins at one place of the printed text, and `Node.layout` lists the nodes with all
the text that is printed before them.
-/

namespace Restyle

namespace Kind

variable {α β : Type}

/-! ## Pieces -/

/-- A piece of the text of a node: a token, or a child. A statement may have to be closed with a
    semicolon. -/
inductive Piece (α : Type) where
  | token (text : String)
  | child (a : α) (isStatement : Bool)

namespace Piece

@[simp] def map (f : α → β) : Piece α → Piece β
  | token text => token text
  | child a isStatement => child (f a) isStatement

/-- The children among the pieces. -/
@[simp] def children : List (Piece α) → List α
  | [] => []
  | token _ :: ps => children ps
  | child a _ :: ps => a :: children ps

/-- The pieces of children that follow each other. -/
def parts (as : List α) : List (Piece α) := as.map fun a => child a false

def statements (as : List α) : List (Piece α) := as.map fun a => child a true

/-- The pieces of children with a separator between them. -/
def separated (separator : String) : List α → List (Piece α)
  | [] => []
  | [a] => [child a false]
  | a :: as => child a false :: token separator :: separated separator as

/-- The pieces of an optional child behind its token. -/
def introduced (text : String) : Option (Padded α) → List (Piece α)
  | none => []
  | some ⟨before, a⟩ => [token before, token text, child a false]

end Piece

open Piece in
/-- The text of a node in pieces. -/
def pieces : Kind α → List (Piece α)
  | compilationUnit classes eof => parts classes ++ [token eof]
  | classDecl modifiers keyword name typeParams superclass body _ =>
    parts modifiers ++ [token keyword.before, token keyword.elem.keyword, child name false] ++
      parts typeParams.toList ++ introduced "extends" superclass ++ [child body false]
  | block stmts finish => token "\x7b" :: statements stmts ++ [token finish, token "\x7d"]
  | methodDecl modifiers typeParams returnType name params body =>
    parts modifiers ++ parts typeParams.toList ++ parts returnType.toList ++
      [child name false, token params.before, token "("] ++ separated "," params.elem ++
      [token ")"] ++
      match body with
      | none => [token ";"]
      | some body => [child body false]
  | variableDecls modifiers typeExpr vars =>
    parts modifiers ++ parts typeExpr.toList ++ separated "," vars
  | namedVar name initializer => child name false :: introduced "=" initializer
  | lambda params parenthesized body =>
    (if parenthesized then token "(" :: separated "," params ++ [token ")"]
      else separated "," params) ++ [token body.before, token "->", child body.elem false]
  | forLoop control body => [token "for", child control false, child body true]
  | forControl init condition update =>
    token "(" :: separated "," init ++ [token ";", child condition false, token ";"] ++
      separated "," update ++ [token ")"]
  | typeParameters params _ => token "<" :: separated "," params ++ [token ">"]
  | typeParameter name bounds =>
    child name false ::
      match bounds with
      | none => []
      | some ⟨before, types⟩ => token before :: token "extends" :: separated "&" types
  | modifier keyword => [token keyword]
  | ident name _ _ => [token name]
  | fieldAccess target name => [child target false, token ".", child name false]
  | methodInvocation select name args =>
    (match select with
      | none => []
      | some select => [child select false, token "."]) ++
      [child name false, token args.before, token "("] ++ separated "," args.elem ++ [token ")"]
  | assign target value =>
    [child target false, token value.before, token "=", child value.elem false]
  | binary left operator right =>
    [child left false, token operator.before, token operator.elem, child right false]
  | unary operator operand isPostfix =>
    if isPostfix then [child operand false, token operator]
    else [token operator, child operand false]
  | literal text _ => [token text]
  | returnStmt expression => token "return" :: parts expression.toList
  | empty => []

/-! ### Children and replacement -/

namespace Piece

@[simp] theorem children_append (ps qs : List (Piece α)) :
    children (ps ++ qs) = children ps ++ children qs := by
  fun_induction children ps <;> simp_all

theorem children_map_child (isStatement : Bool) (as : List α) :
    children (as.map fun a => child a isStatement) = as := by
  induction as with
  | nil => rfl
  | cons a as ih => exact congrArg (a :: ·) ih

@[simp] theorem children_parts (as : List α) : children (parts as) = as :=
  children_map_child false as

@[simp] theorem children_statements (as : List α) : children (statements as) = as :=
  children_map_child true as

@[simp] theorem children_separated (separator : String) (as : List α) :
    children (separated separator as) = as := by
  fun_induction separated separator as <;> simp_all

@[simp] theorem children_introduced (text : String) (o : Option (Padded α)) :
    children (introduced text o) = (o.map Padded.elem).toList := by
  cases o <;> rfl

@[simp] theorem map_parts (f : α → β) (as : List α) :
    (parts as).map (map f) = parts (as.map f) := by
  simp [parts]

@[simp] theorem map_statements (f : α → β) (as : List α) :
    (statements as).map (map f) = statements (as.map f) := by
  simp [statements]

@[simp] theorem map_separated (f : α → β) (separator : String) (as : List α) :
    (separated separator as).map (map f) = separated separator (as.map f) := by
  fun_induction separated separator as <;> simp_all [separated]

@[simp] theorem map_introduced (f : α → β) (text : String) (o : Option (Padded α)) :
    (introduced text o).map (map f) = introduced text (o.map (Padded.map f)) := by
  cases o <;> rfl

end Piece

/-- The children stand in the text in their order. -/
theorem children_pieces (k : Kind α) : Piece.children k.pieces = k.children := by
  cases k with
  | methodDecl modifiers typeParams returnType name params body =>
    cases body <;> simp [pieces, children]
  | lambda params parenthesized body =>
    cases parenthesized <;> simp [pieces, children]
  | typeParameter name bounds => cases bounds <;> simp [pieces, children]
  | methodInvocation select name args =>
    cases select <;> simp [pieces, children]
  | unary operator operand isPostfix =>
    cases isPostfix <;> simp [pieces, children]
  | _ => simp [pieces, children]

theorem pieces_map (f : α → β) (k : Kind α) : (k.map f).pieces = k.pieces.map (Piece.map f) := by
  cases k with
  | methodDecl modifiers typeParams returnType name params body =>
    cases body <;> simp [pieces, map, Padded.map, Option.toList_map]
  | lambda params parenthesized body =>
    cases parenthesized <;> simp [pieces, map, Padded.map]
  | typeParameter name bounds => cases bounds <;> simp [pieces, map, Padded.map]
  | methodInvocation select name args =>
    cases select <;> simp [pieces, map, Padded.map]
  | unary operator operand isPostfix => cases isPostfix <;> simp [pieces, map]
  | _ => simp [pieces, map, Padded.map, Option.toList_map]

end Kind

/-! ## Text -/

namespace Node

/-- The text of a node behind its lead. -/
def body (n : Node) : String := (n.kind.map fragment).text ++ n.formatting.trail

/-- What closes the node where it stands as a statement. -/
def terminator (n : Node) : String := if n.tag.closesItself then "" else ";"

theorem fragment_eq (n : Node) :
    n.fragment = ⟨n.formatting.lead ++ n.body, n.tag.closesItself⟩ := by
  rw [fragment, fold_eq, body, String.append_assoc]
  rfl

theorem print_eq (n : Node) : n.print = n.formatting.lead ++ n.body := by
  rw [print, fragment_eq]

theorem statement_fragment (n : Node) : n.fragment.statement = n.print ++ n.terminator := by
  rw [print, fragment_eq, Fragment.statement, terminator]
  split <;> simp

end Node

namespace Kind

namespace Piece

/-- What closes a piece that is the given child. -/
@[simp] def close (n : Node) (isStatement : Bool) : String :=
  if isStatement then n.terminator else ""

@[simp] def text : List (Piece Node) → String
  | [] => ""
  | token t :: ps => t ++ text ps
  | child n isStatement :: ps => n.print ++ (close n isStatement ++ text ps)

/-- The text before each of the children. -/
def befores : List (Piece Node) → List String
  | [] => []
  | token t :: ps => (befores ps).map (t ++ ·)
  | child n isStatement :: ps =>
    "" :: (befores ps).map fun before => n.print ++ (close n isStatement ++ before)

@[simp] theorem text_append (ps qs : List (Piece Node)) : text (ps ++ qs) = text ps ++ text qs := by
  fun_induction text ps <;> simp_all [String.append_assoc]

@[simp] theorem text_parts (ns : List Node) :
    text (parts ns) = Fragment.concat (ns.map Node.fragment) := by
  induction ns with
  | nil => rfl
  | cons n ns ih =>
    rw [List.map_cons, Fragment.concat, ← ih]
    simp [parts, Node.print]

@[simp] theorem concat_toList (o : Option Node) :
    Fragment.concat (o.toList.map Node.fragment) = Fragment.ofOption (o.map Node.fragment) := by
  cases o <;> simp [Fragment.concat, Fragment.ofOption]

@[simp] theorem text_statements (ns : List Node) :
    text (statements ns) = Fragment.statements (ns.map Node.fragment) := by
  induction ns with
  | nil => rfl
  | cons n ns ih =>
    rw [List.map_cons, Fragment.statements, ← ih, Node.statement_fragment]
    simp [statements, String.append_assoc]

@[simp] theorem text_separated (separator : String) (ns : List Node) :
    text (separated separator ns) = Fragment.separated separator (ns.map Node.fragment) := by
  fun_induction separated separator ns <;>
    simp_all [Node.print, Fragment.separated, String.append_assoc]

@[simp] theorem text_introduced (token : String) (o : Option (Padded Node)) :
    text (introduced token o) =
      Fragment.introduced token (o.map (Padded.map Node.fragment)) := by
  cases o <;>
    simp [introduced, Node.print, Fragment.introduced, Padded.map, String.append_assoc]

end Piece

/-- The pieces make up the text. -/
theorem text_pieces (k : Kind Node) : Piece.text k.pieces = (k.map Node.fragment).text := by
  cases k with
  | methodDecl modifiers typeParams returnType name params body =>
    cases body <;> simp [pieces, map, text, Padded.map, Node.print, String.append_assoc]
  | lambda params parenthesized body =>
    cases parenthesized <;> simp [pieces, map, text, Padded.map, Node.print, String.append_assoc]
  | typeParameter name bounds =>
    cases bounds <;> simp [pieces, map, text, Padded.map, Node.print, String.append_assoc]
  | methodInvocation select name args =>
    cases select <;> simp [pieces, map, text, Padded.map, Node.print, String.append_assoc]
  | unary operator operand isPostfix =>
    cases isPostfix <;> simp [pieces, map, text, Node.print]
  | forLoop control body =>
    simp [pieces, map, text, Node.statement_fragment, Node.print, String.append_assoc]
  | _ => simp [pieces, map, text, Padded.map, Node.print, String.append_assoc]

namespace Piece

@[simp] theorem length_befores (ps : List (Piece Node)) :
    (befores ps).length = (children ps).length := by
  fun_induction befores ps <;> simp_all

/-- A child is printed behind the text before it. -/
theorem exists_text_eq {ps : List (Piece Node)} {n : Node} {before : String}
    (h : (n, before) ∈ (children ps).zip (befores ps)) :
    ∃ after, text ps = before ++ (n.print ++ after) := by
  induction ps generalizing before with
  | nil => simp at h
  | cons p ps ih =>
    cases p with
    | token t =>
      rw [children, befores, List.zip_map_right] at h
      obtain ⟨⟨_, inner⟩, hinner, heq⟩ := List.mem_map.mp h
      obtain ⟨rfl, rfl⟩ := Prod.mk.inj heq
      obtain ⟨after, htext⟩ := ih hinner
      exact ⟨after, by rw [text, htext, String.append_assoc]⟩
    | child m isStatement =>
      rw [children, befores, List.zip_cons_cons, List.zip_map_right] at h
      rcases List.mem_cons.mp h with heq | h
      · obtain ⟨rfl, rfl⟩ := Prod.mk.inj heq
        exact ⟨close n isStatement ++ text ps, by simp⟩
      · obtain ⟨⟨_, inner⟩, hinner, heq⟩ := List.mem_map.mp h
        obtain ⟨rfl, rfl⟩ := Prod.mk.inj heq
        obtain ⟨after, htext⟩ := ih hinner
        exact ⟨after, by rw [text, htext]; simp only [String.append_assoc]⟩

end Piece

end Kind

/-! ### Nodes with new children -/

namespace Node

theorem body_eq (n : Node) : n.body = Kind.Piece.text n.kind.pieces ++ n.formatting.trail := by
  rw [body, Kind.text_pieces]

theorem pieces_rebuild (n : Node) (kind : Kind Node) :
    (n.rebuild kind).kind.pieces = kind.pieces := by
  rcases n.kind_rebuild kind with h | ⟨params, repeats, repeats', hkind, h⟩
  · rw [h]
  · rw [h, hkind]
    rfl

theorem body_rebuild (n : Node) (kind : Kind Node) :
    (n.rebuild kind).body = Kind.Piece.text kind.pieces ++ n.formatting.trail := by
  rw [body_eq, pieces_rebuild, formatting_rebuild]

end Node

/-! ## Layouts -/

namespace Node

/-- The text between the lead of a node and each of its children. -/
def befores (n : Node) : List String := Kind.Piece.befores n.kind.pieces

/-- The cursors of a tree with the given ancestors and place, in pre-order, each with the text
    before it, if the given text is before the tree. -/
def layoutBelow : Node → List Node → Nat → String → List (Cursor × String) :=
  fold fun n kind ancestors index before =>
    (⟨n, ancestors, index⟩, before) ::
      (kind.children.zipIdx.zip n.befores).flatMap fun ((below, i), between) =>
        below (n :: ancestors) i (before ++ (n.formatting.lead ++ between))

theorem length_befores (n : Node) : n.befores.length = n.children.length := by
  rw [befores, Kind.Piece.length_befores, Kind.children_pieces, children]

end Node

namespace Cursor

/-- The cursors at and below a cursor in pre-order, each with the text that is printed before it, if
    the given text is before the first one. -/
def layout (c : Cursor) (before : String) : List (Cursor × String) :=
  c.node.layoutBelow c.ancestors c.index before

theorem layout_eq (c : Cursor) (before : String) :
    c.layout before = (c, before) ::
      (c.children.zip c.node.befores).flatMap fun d =>
        d.1.layout (before ++ (c.node.formatting.lead ++ d.2)) := by
  rw [layout, Node.layoutBelow, Node.fold_eq, Kind.children_map, List.zipIdx_map,
    List.zip_map_left, List.flatMap_map, children, List.zip_map_left, List.flatMap_map]
  rfl

/-- The layout lists all cursors. -/
theorem map_fst_layout (c : Cursor) (before : String) :
    (c.layout before).map Prod.fst = c.below := by
  induction c using induct generalizing before with
  | step c ih =>
    have hlength : c.children.length = c.node.befores.length := by
      rw [Node.length_befores, ← c.map_node_children, List.length_map]
    rw [layout_eq, below_eq, List.map_cons, List.map_flatMap]
    congr 1
    calc _ = (c.children.zip c.node.befores).flatMap fun d => d.1.below :=
          List.flatMap_congr fun d hd => ih d.1 (List.of_mem_zip hd).1 _
      _ = ((c.children.zip c.node.befores).map Prod.fst).flatMap below := by rw [List.flatMap_map]
      _ = c.children.flatMap below := by rw [List.map_fst_zip (Nat.le_of_eq hlength)]

/-- Text in front of a tree is in front of all of its nodes. -/
theorem layout_append (c : Cursor) (text before : String) :
    c.layout (text ++ before) = (c.layout before).map fun p => (p.1, text ++ p.2) := by
  induction c using induct generalizing before with
  | step c ih =>
    rw [layout_eq, layout_eq c before, List.map_cons, List.map_flatMap]
    congr 1
    refine List.flatMap_congr fun d hd => ?_
    rw [String.append_assoc, ih d.1 (List.of_mem_zip hd).1]

theorem layout_eq_map (c : Cursor) (before : String) :
    c.layout before = (c.layout "").map fun p => (p.1, before ++ p.2) := by
  rw [← layout_append, String.append_empty]

/-- A node is printed behind the text before it. -/
theorem exists_print_eq {c : Cursor} {p : Cursor × String} (h : p ∈ c.layout "") :
    ∃ after, c.node.print = p.2 ++ (p.1.node.print ++ after) := by
  induction c using induct generalizing p with
  | step c ih =>
    rw [layout_eq] at h
    rcases List.mem_cons.mp h with rfl | h
    · exact ⟨"", by simp⟩
    · obtain ⟨d, hd, hp⟩ := List.mem_flatMap.mp h
      rw [layout_eq_map] at hp
      obtain ⟨q, hq, rfl⟩ := List.mem_map.mp hp
      obtain ⟨inner, hinner⟩ := ih d.1 (List.of_mem_zip hd).1 hq
      have hchild : (d.1.node, d.2) ∈ c.node.children.zip c.node.befores := by
        rw [← c.map_node_children, List.zip_map_left]
        exact List.mem_map.mpr ⟨d, hd, rfl⟩
      rw [Node.children, ← Kind.children_pieces, Node.befores] at hchild
      obtain ⟨outer, houter⟩ := Kind.Piece.exists_text_eq hchild
      refine ⟨inner ++ (outer ++ c.node.formatting.trail), ?_⟩
      rw [Node.print_eq, Node.body, ← Kind.text_pieces, houter, hinner]
      simp [String.append_assoc]

end Cursor

namespace Node

/-- The cursors of a tree in pre-order, each with the text that is printed before it. -/
def layout (tree : Node) : List (Cursor × String) := (Cursor.root tree).layout ""

end Node

end Restyle
