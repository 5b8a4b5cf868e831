-- SUMMARY: What marking declarations as `final` does to the source text.
import Restyle.Proofs.Finality.Insertion
import Restyle.Proofs.Tree.Layout

/-!
# Source text of marked trees

A new modifier takes over the text before what came first in its declaration, and sets that off by a
space. In the printed text this is an insertion: `final ` stands where the text of what came first
begins, and everything else is as before (`AddFinal.apply_inserts_final`). What is inserted into the
text of a node is put together from what is inserted into the texts of its children
(`AddFinal.inserted_pieces`).
-/

namespace Restyle

/-! ## Insertions -/

/-- The second string is the first one with a text inserted behind each of the given beginnings of
    it, which go from the shortest to the longest. -/
inductive Inserted (text : String) : List String → String → String → Prop
  | done (s : String) : Inserted text [] s s
  | next (start : String) {ends : List String} {s s' : String} : Inserted text ends s s' →
    Inserted text (start :: ends.map (start ++ ·)) (start ++ s) (start ++ (text ++ s'))

namespace Inserted

variable {text s s' t t' : String} {ends ends' : List String}

theorem prepend (start : String) (h : Inserted text ends s s') :
    Inserted text (ends.map (start ++ ·)) (start ++ s) (start ++ s') := by
  cases h with
  | done => exact .done _
  | next inner h =>
    have hnext := next (start ++ inner) h
    simp only [String.append_assoc] at hnext
    simpa [Function.comp_def, String.append_assoc] using hnext

theorem append (h : Inserted text ends s s') (h' : Inserted text ends' t t') :
    Inserted text (ends ++ ends'.map (s ++ ·)) (s ++ t) (s' ++ t') := by
  induction h with
  | done s => exact h'.prepend s
  | next start h ih =>
    have hnext := next start ih
    simp only [String.append_assoc]
    simpa [Function.comp_def, String.append_assoc] using hnext

theorem append_right (t : String) (h : Inserted text ends s s') :
    Inserted text ends (s ++ t) (s' ++ t) := by
  simpa using h.append (.done t)

end Inserted

/-! ## The text of a declaration -/

namespace Kind

variable {α : Type}

theorem pieces_variableDecls {modifiers others vars : List α} {typeExpr : Option α} {first : α}
    (h : modifiers ++ typeExpr.toList = first :: others) :
    (variableDecls modifiers typeExpr vars).pieces =
      .child first false :: (Piece.parts others ++ Piece.separated "," vars) := by
  have hparts : Piece.parts modifiers ++ Piece.parts typeExpr.toList =
      Piece.parts (modifiers ++ typeExpr.toList) := by
    simp [Piece.parts]
  rw [pieces, hparts, h]
  rfl

end Kind

namespace AddFinal

open Kind.Piece

variable {R : Type} {tree : Node} {c : Cursor}

theorem formatting_withModifier (modifier decl : Node) :
    (withModifier modifier decl).formatting = decl.formatting := by
  unfold withModifier
  split <;> rfl

/-- The new modifier stands behind the text that was before the first part of the declaration. -/
theorem body_withModifier (id : NodeId) {decl first : Node} {modifiers others vars : List Node}
    {typeExpr : Option Node} (hkind : decl.kind = .variableDecls modifiers typeExpr vars)
    (hfirst : modifiers ++ typeExpr.toList = first :: others) :
    (withModifier (finalModifier id) decl).body =
      first.formatting.lead ++ ("final " ++
        (first.body ++ (text (parts others ++ separated "," vars) ++ decl.formatting.trail))) := by
  have hmodifier (lead : String) : ((finalModifier id).withLead lead).print = lead ++ "final" := by
    rw [Node.print_eq]
    rfl
  have hlead (n : Node) : (n.withLead " ").print = " " ++ n.body := Node.print_eq _
  have hfinal (s : String) : "final" ++ (" " ++ s) = "final " ++ s := by
    rw [← String.append_assoc]
    rfl
  cases modifiers with
  | cons modifier modifiers =>
    rw [List.cons_append] at hfirst
    obtain ⟨rfl, rfl⟩ := List.cons.inj hfirst
    rw [Node.body_eq]
    simp only [withModifier, hkind, Node.withKind]
    rw [Kind.pieces_variableDecls (List.cons_append ..), List.cons_append]
    simp only [parts, List.map_cons, List.cons_append, text, hmodifier, hlead, close,
      Bool.false_eq_true, if_false, String.append_assoc, String.empty_append, hfinal]
  | nil =>
    cases typeExpr with
    | some typeExpr =>
      obtain ⟨rfl, rfl⟩ := List.cons.inj hfirst
      rw [Node.body_eq]
      simp only [withModifier, hkind, Node.withKind]
      rw [Kind.pieces_variableDecls (List.cons_append ..)]
      simp only [parts, List.map_cons, List.map_nil, List.cons_append, List.nil_append, text,
        hmodifier, hlead, close, Option.toList_some, Bool.false_eq_true, if_false,
        String.append_assoc, String.empty_append, hfinal]
    | none => cases hfirst

/-! ## Where the modifiers are inserted -/

/-- The text before the first part of a declaration. -/
def frontLead (decl : Node) : String :=
  (decl.front.head?.map fun n => n.formatting.lead).getD ""

/-- The beginnings of the text of a cursor behind which a modifier belongs: what is printed before a
    declaration that qualifies, its own lead, and the lead of its first part. -/
def cuts (c : Cursor) : List String :=
  ((c.layout "").filter fun p => qualifies p.1).map fun p =>
    p.2 ++ (p.1.node.formatting.lead ++ frontLead p.1.node)

/-- The cuts at and below cursors whose nodes are children in a text. -/
def cutsAlong (ds : List Cursor) (ps : List (Kind.Piece Node)) : List String :=
  (ds.zip (befores ps)).flatMap fun d => (cuts d.1).map (d.2 ++ ·)

/-- The cuts behind the lead of a cursor. -/
def bodyCuts (c : Cursor) : List String :=
  (if qualifies c then [frontLead c.node] else []) ++ cutsAlong c.children c.node.kind.pieces

theorem cuts_eq (c : Cursor) : cuts c = (bodyCuts c).map (c.node.formatting.lead ++ ·) := by
  have hchild (d : Cursor × String) :
      ((d.1.layout (c.node.formatting.lead ++ d.2)).filter fun p => qualifies p.1).map
        (fun p => p.2 ++ (p.1.node.formatting.lead ++ frontLead p.1.node)) =
      ((cuts d.1).map (d.2 ++ ·)).map (c.node.formatting.lead ++ ·) := by
    rw [Cursor.layout_eq_map, cuts, List.filter_map, List.map_map, List.map_map, List.map_map]
    simp [Function.comp_def, String.append_assoc]
  rw [cuts, Cursor.layout_eq, bodyCuts, cutsAlong, ← Node.befores, List.filter_cons,
    List.filter_flatMap, List.map_append, List.map_flatMap]
  simp only [String.empty_append, ← hchild]
  split <;> simp [List.map_flatMap]

theorem cutsAlong_token (ds : List Cursor) (token : String) (ps : List (Kind.Piece Node)) :
    cutsAlong ds (.token token :: ps) = (cutsAlong ds ps).map (token ++ ·) := by
  simp [cutsAlong, befores, List.zip_map_right, List.flatMap_map, List.map_flatMap,
    Function.comp_def, String.append_assoc]

theorem cutsAlong_child (d : Cursor) (ds : List Cursor) (n : Node) (isStatement : Bool)
    (ps : List (Kind.Piece Node)) :
    cutsAlong (d :: ds) (.child n isStatement :: ps) =
      cuts d ++ (cutsAlong ds ps).map fun cut => n.print ++ (close n isStatement ++ cut) := by
  simp [cutsAlong, befores, List.zip_map_right, List.flatMap_map, List.map_flatMap,
    Function.comp_def, String.append_assoc]

/-! ## Marked trees -/

/-- What a session leaves at a cursor: the text has got the modifiers and nothing else. -/
structure Gains (c : Cursor) (n' : Node) : Prop where
  formatting_eq : n'.formatting = c.node.formatting
  tag_eq : n'.tag = c.node.tag
  body : Inserted "final " (bodyCuts c) c.node.body n'.body

theorem Gains.print {n' : Node} (h : Gains c n') :
    Inserted "final " (cuts c) c.node.print n'.print := by
  rw [cuts_eq, Node.print_eq, Node.print_eq, h.formatting_eq]
  exact h.body.prepend _

theorem Gains.close_eq {n' : Node} (h : Gains c n') (isStatement : Bool) :
    close n' isStatement = close c.node isStatement := by
  rw [close, close, Node.terminator, Node.terminator, h.tag_eq]

/-- What is inserted into the children is inserted into the text around them. -/
theorem inserted_pieces {ps : List (Kind.Piece (Node × Node))} {ds : List Cursor}
    (h : List.Forall₂ (fun p d => d.node = p.1 ∧ Gains d p.2) (children ps) ds) :
    Inserted "final " (cutsAlong ds (ps.map (Kind.Piece.map Prod.fst)))
      (text (ps.map (Kind.Piece.map Prod.fst))) (text (ps.map (Kind.Piece.map Prod.snd))) := by
  induction ps generalizing ds with
  | nil =>
    cases h
    exact .done ""
  | cons p ps ih =>
    cases p with
    | token token =>
      rw [List.map_cons, List.map_cons, Kind.Piece.map, Kind.Piece.map, cutsAlong_token]
      exact (ih h).prepend token
    | child p isStatement =>
      cases h with
      | @cons _ d _ ds hp hps =>
        obtain ⟨hnode, hgains⟩ := hp
        rw [List.map_cons, List.map_cons, Kind.Piece.map, Kind.Piece.map, cutsAlong_child, text,
          text, ← hnode, hgains.close_eq]
        simp only [← String.append_assoc]
        exact (hgains.print.append_right _).append (ih hps)

section Pairs

variable {modifiers ps vars : List (Node × Node)} {typeExpr : Option (Node × Node)} {p : Node × Node}

/-- A declaration that qualifies has a first part: a modifier, or else its type. -/
theorem exists_front {z : Kind (Node × Node)} (hfst : z.map Prod.fst = c.node.kind)
    (hqualifies : qualifies c = true) :
    ∃ modifiers typeExpr vars p ps, z = .variableDecls modifiers typeExpr vars ∧
      modifiers ++ typeExpr.toList = p :: ps := by
  obtain ⟨_, _, _, _, hkind, _⟩ := (qualifies_iff c).mp hqualifies
  cases z with
  | variableDecls modifiers typeExpr vars =>
    refine ⟨modifiers, typeExpr, vars, ?_⟩
    cases modifiers with
    | cons p ps => exact ⟨p, _, rfl, rfl⟩
    | nil =>
      cases typeExpr with
      | some p => exact ⟨p, _, rfl, rfl⟩
      | none => simp [Kind.map, hkind] at hfst
  | _ => simp [Kind.map, hkind] at hfst

theorem frontLead_eq {n : Node}
    (hfst : (Kind.variableDecls modifiers typeExpr vars).map Prod.fst = n.kind)
    (hfront : modifiers ++ typeExpr.toList = p :: ps) : frontLead n = p.1.formatting.lead := by
  rw [frontLead, Node.front, ← hfst]
  simp only [Kind.map]
  rw [Option.toList_map, ← List.map_append, hfront]
  rfl

theorem body_withModifier_rebuild (id : NodeId) (n : Node)
    (hfront : modifiers ++ typeExpr.toList = p :: ps) :
    (withModifier (finalModifier id)
      (n.rebuild ((Kind.variableDecls modifiers typeExpr vars).map Prod.snd))).body =
        p.2.formatting.lead ++ ("final " ++ (p.2.body ++
          (text ((parts ps ++ separated "," vars).map (Kind.Piece.map Prod.snd)) ++
            n.formatting.trail))) := by
  have hkind : (n.rebuild ((Kind.variableDecls modifiers typeExpr vars).map Prod.snd)).kind =
      .variableDecls (modifiers.map Prod.snd) (typeExpr.map Prod.snd) (vars.map Prod.snd) :=
    Node.kind_rebuild_of_tag_ne (by simp [Kind.map, Kind.tag])
  have hfirst : modifiers.map Prod.snd ++ (typeExpr.map Prod.snd).toList =
      p.2 :: ps.map Prod.snd := by
    rw [Option.toList_map, ← List.map_append, hfront, List.map_cons]
  rw [body_withModifier id hkind hfirst, Node.formatting_rebuild]
  simp

end Pairs

/-- In a declaration that is due, the modifier comes behind the lead of its first part, and what is
    inserted further on is inserted there as before. -/
theorem inserted_withModifier {z : Kind (Node × Node)} (hfst : z.map Prod.fst = c.node.kind)
    (hkids : List.Forall₂ (fun p d => d.node = p.1 ∧ Gains d p.2) (children z.pieces) c.children)
    (hqualifies : qualifies c = true) (id : NodeId) :
    Inserted "final " (bodyCuts c) c.node.body
      (withModifier (finalModifier id) (c.node.rebuild (z.map Prod.snd))).body := by
  obtain ⟨modifiers, typeExpr, vars, p, ps, rfl, hfront⟩ := exists_front hfst hqualifies
  have hpieces : (Kind.variableDecls modifiers typeExpr vars).pieces =
      .child p false :: (parts ps ++ separated "," vars) := Kind.pieces_variableDecls hfront
  have hold : c.node.kind.pieces = .child p.1 false ::
      (parts ps ++ separated "," vars).map (Kind.Piece.map Prod.fst) := by
    rw [← hfst, Kind.pieces_map, hpieces]
    rfl
  rw [hpieces] at hkids
  cases hcursors : c.children with
  | nil =>
    rw [hcursors] at hkids
    cases hkids
  | cons d ds =>
    rw [hcursors] at hkids
    obtain ⟨⟨hnode, hgains⟩, hrest⟩ := List.forall₂_cons.mp hkids
    -- The first part is printed without its lead, which goes to the modifier.
    have hinserted := (hgains.body.append
      ((inserted_pieces hrest).append_right c.node.formatting.trail)).next d.node.formatting.lead
    rw [bodyCuts, if_pos hqualifies, frontLead_eq hfst hfront, hcursors, Node.body_eq, hold,
      body_withModifier_rebuild id c.node hfront, cutsAlong_child, cuts_eq, text, ← hnode,
      hgains.formatting_eq, Node.print_eq]
    simpa [Function.comp_def, String.append_assoc] using hinserted

theorem gains_of_yields {n' : Node} {s s' : Session NodeId} (h : Yields (c.edited edit) s n' s') :
    Gains c n' := by
  refine Cursor.edit_induct_pairs (P := Gains) ?_ h
  intro c z n' s₁ s' hfst hpairs hyields
  have hkids : List.Forall₂ (fun p d => d.node = p.1 ∧ Gains d p.2) (children z.pieces)
      c.children := by
    have hsame : List.Forall₂ (fun p q => q.1.1 = p.1 ∧ Gains ⟨q.1.1, c.path, q.2⟩ p.2)
        (z.children.zipIdx.map Prod.fst) z.children.zipIdx :=
      List.forall₂_map_left_iff.mpr (List.forall₂_same.mpr fun p hp => ⟨rfl, hpairs p hp⟩)
    rw [List.zipIdx_map_fst] at hsame
    rw [Kind.children_pieces, Cursor.children_eq_map_pairs hfst, List.forall₂_map_right_iff]
    exact hsame
  rcases yields_edit.mp hyields with ⟨hquiet, rfl, _⟩ | ⟨next, hqualifies, _, rfl, _⟩
  · refine ⟨by simp, by rw [Node.tag_rebuild_pairs hfst], ?_⟩
    rw [bodyCuts, if_neg (by simp [hquiet]), List.nil_append, Node.body_eq, Node.body_rebuild,
      ← hfst, Kind.pieces_map, Kind.pieces_map]
    exact (inserted_pieces hkids).append_right _
  · refine ⟨?_, ?_, inserted_withModifier hfst hkids hqualifies s₁.state⟩
    · rw [formatting_withModifier, Node.formatting_rebuild]
    · rw [tag_withModifier, Node.tag_rebuild_pairs hfst]

/-! ## The rule -/

theorem due_perm (tree : Node) :
    (due (.root tree)).Perm ((tree.layout.filter fun p => qualifies p.1).map Prod.fst) := by
  have hfilter : (tree.layout.filter fun p => qualifies p.1).map Prod.fst =
      (Cursor.root tree).below.filter qualifies := by
    rw [← Cursor.map_fst_layout _ "", List.filter_map]
    rfl
  rw [hfilter]
  exact (Cursor.postorder_perm _).filter _

/-- The rule changes the printed text by insertions of `final ` alone: one for each declaration that
    it logs, behind the text before the declaration, its own lead and the lead of what comes first
    in it. -/
theorem apply_inserts_final {out : RuleOutput R} (h : apply tree = .ok out) :
    tree.layout.map Prod.fst = tree.cursors ∧
      (∀ p ∈ tree.layout, ∃ after, tree.print = p.2 ++ (p.1.node.print ++ after)) ∧
      out.transforms.Perm ((tree.layout.filter fun p => qualifies p.1).map fun p =>
        ⟨ruleName, p.1.node.id⟩) ∧
      Inserted "final " ((tree.layout.filter fun p => qualifies p.1).map fun p =>
        p.2 ++ (p.1.node.formatting.lead ++ frontLead p.1.node)) tree.print out.tree.print := by
  obtain ⟨first, s, _, hrun, _, _⟩ := apply_eq_ok h
  refine ⟨Cursor.map_fst_layout _ _, fun p => Cursor.exists_print_eq, ?_,
    (gains_of_yields hrun).print⟩
  rw [transforms_of_apply h]
  simpa [Function.comp_def] using
    (due_perm tree).map fun c => (⟨ruleName, c.node.id⟩ : Transform)

theorem apply_inserts_final_nestedLocals :
    nestedLocals.print = "\x7b int f = () -> \x7b @Nonnull int x; \x7d; int y; y = 1; y = 1; \x7d" ∧
      ∃ out : RuleOutput Rule, apply nestedLocals = .ok out ∧
        out.transforms.Perm [⟨ruleName, 10⟩, ⟨ruleName, 30⟩] ∧
        Inserted "final " ["\x7b ", "\x7b int f = () -> \x7b "] nestedLocals.print
          out.tree.print := by
  obtain ⟨out, hout⟩ := exists_apply_nestedLocals
  obtain ⟨_, _, htransforms, hinserted⟩ := apply_inserts_final hout
  have hcuts : cuts (.root nestedLocals) = ["\x7b ", "\x7b int f = () -> \x7b "] := by
    decide +kernel
  refine ⟨by decide +kernel, out, hout, ?_, hcuts ▸ hinserted⟩
  exact htransforms

end AddFinal

end Restyle
