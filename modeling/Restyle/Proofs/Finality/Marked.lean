-- SUMMARY: The tree that marked declarations leave, as a function of the tree.
import Restyle.Proofs.Finality.AddFinal
import Restyle.Proofs.Tree.Retouch
import Restyle.Proofs.Tree.Success

/-!
# Marked trees

`AddFinal.marked` puts a modifier in front of the declarations that are given an id for it. The rule
numbers the declarations that qualify in the order in which it leaves them (`AddFinal.chosen`), from
the largest id of the tree on (`AddFinal.marks`). It succeeds if and only if there are ids for all of
them (`AddFinal.exists_apply_iff`). Who gets which id depends on nothing that other rules change
(`AddFinal.marks_eq_of_sketch_eq`).
-/

namespace Restyle

namespace AddFinal

variable {R : Type} {tree tree' : Node} {c c' : Cursor} {change : Node → Node}
variable {text : NodeId → Formatting → Formatting} {special : Tag → Bool}
variable {ids : NodeId → Option NodeId}

/-! ## Modifiers and other changes -/

/-- The modifier that a declaration is marked with. -/
def finalModifier (id : NodeId) : Node := ⟨id, {}, .modifier "final"⟩

theorem withModifier_of_tag_ne {decl : Node} (h : decl.tag ≠ .variableDecls) (modifier : Node) :
    withModifier modifier decl = decl := by
  cases hkind : decl.kind with
  | variableDecls _ _ _ => simp [Node.tag, hkind, Kind.tag] at h
  | _ => simp [withModifier, hkind]

theorem tag_withModifier (modifier decl : Node) : (withModifier modifier decl).tag = decl.tag := by
  by_cases h : decl.tag = .variableDecls
  · rw [h]
    unfold withModifier
    split
    · rfl
    · rfl
    · rfl
    · exact h
  · rw [withModifier_of_tag_ne h]

theorem withModifier_withFormatting (modifier decl : Node) (f : Formatting) :
    withModifier modifier (decl.withFormatting f) = (withModifier modifier decl).withFormatting f := by
  unfold withModifier
  rw [show (decl.withFormatting f).kind = decl.kind from rfl]
  split <;> rfl

/-- A change can be moved past the marking of a declaration, if it leaves the text around the new
    modifier and around what stands in front alone. -/
theorem withModifier_past (h : Node.Retouches change text special)
    (hdecl : special .variableDecls = false) (hmodifier : special .modifier = false) {id : NodeId}
    (hid : ∀ f, text id f = f) {decl : Node} (hfront : ∀ n ∈ decl.front, ∀ f, text n.id f = f) :
    change (withModifier (finalModifier id) decl) = withModifier (finalModifier id) (change decl) := by
  have hnew (lead : String) :
      change ((finalModifier id).withLead lead) = (finalModifier id).withLead lead := by
    rw [h.withLead hid, h.plain (finalModifier id) hmodifier]
    simp only [finalModifier, hid, Kind.map]
  cases hkind : decl.kind with
  | variableDecls modifiers typeExpr vars =>
    have hchange (n : Node) {ms vs : List Node} {te : Option Node}
        (hn : n.kind = .variableDecls ms te vs) : change n = ⟨n.id, text n.id n.formatting,
          .variableDecls (ms.map change) (te.map change) (vs.map change)⟩ := by
      rw [h.plain n (by rw [Node.tag, hn]; exact hdecl), hn]
      rfl
    simp only [Node.front, hkind] at hfront
    rw [hchange decl hkind]
    cases modifiers with
    | cons first others =>
      have hfirst := hfront first (by simp)
      simp only [withModifier, hkind, List.map_cons, h.formatting_eq, hfirst]
      rw [hchange _ rfl]
      simp only [List.map_cons, hnew, h.withLead hfirst]
      rfl
    | nil =>
      cases typeExpr with
      | some typeExpr =>
        have htype := hfront typeExpr (by simp)
        simp only [withModifier, hkind, List.map_nil, Option.map_some, h.formatting_eq, htype]
        rw [hchange _ rfl]
        simp only [List.map_cons, List.map_nil, Option.map_some, hnew, h.withLead htype]
        rfl
      | none =>
        simp only [withModifier, hkind, List.map_nil, Option.map_none]
        rw [hchange _ rfl]
        simp only [List.map_cons, List.map_nil, Option.map_none, hnew]
        rfl
  | _ =>
    have htag : decl.tag ≠ .variableDecls := by simp [Node.tag, hkind, Kind.tag]
    rw [withModifier_of_tag_ne htag, withModifier_of_tag_ne (by rwa [h.tag_eq])]

/-! ## Marked trees -/

/-- A declaration with a modifier in front, if there is an id for it. -/
def mark (ids : NodeId → Option NodeId) (decl : Node) : Node :=
  (ids decl.id).elim decl fun id => withModifier (finalModifier id) decl

/-- The tree with a modifier in front of each declaration that has an id for it. -/
def marked (ids : NodeId → Option NodeId) : Node → Node := Node.remake fun _ r => mark ids r

theorem mark_cases (ids : NodeId → Option NodeId) (decl : Node) :
    mark ids decl = decl ∨
      ∃ id, ids decl.id = some id ∧ mark ids decl = withModifier (finalModifier id) decl := by
  unfold mark
  cases hid : ids decl.id with
  | none => exact .inl rfl
  | some id => exact .inr ⟨id, rfl, rfl⟩

theorem mark_of_tag_ne {decl : Node} (h : decl.tag ≠ .variableDecls) : mark ids decl = decl := by
  rcases mark_cases ids decl with hmark | ⟨id, _, hmark⟩
  · exact hmark
  · rw [hmark, withModifier_of_tag_ne h]

theorem retouches_marked (ids : NodeId → Option NodeId) :
    Node.Retouches (marked ids) (fun _ f => f) fun t => t == .variableDecls := by
  refine .remake ?_ ?_ ?_ ?_
  · intro n r
    rcases mark_cases ids r with hmark | ⟨id, _, hmark⟩
    · rw [hmark]
    · rw [hmark, id_withModifier]
  · intro n r
    rcases mark_cases ids r with hmark | ⟨id, _, hmark⟩
    · rw [hmark]
    · rw [hmark, tag_withModifier]
  · intro n r f
    unfold mark
    rw [show (r.withFormatting f).id = r.id from rfl]
    cases ids r.id with
    | none => rfl
    | some id => exact withModifier_withFormatting _ _ _
  · intro n r hr
    rw [mark_of_tag_ne (by simpa using hr), Node.withFormatting_self]

theorem mark_past (h : Node.Retouches change text special) (hdecl : special .variableDecls = false)
    (hmodifier : special .modifier = false) (hids : ∀ i id, ids i = some id → ∀ f, text id f = f)
    {decl : Node} (hfront : ∀ n ∈ decl.front, ∀ f, text n.id f = f) :
    change (mark ids decl) = mark ids (change decl) := by
  unfold mark
  rw [h.id_eq]
  cases hid : ids decl.id with
  | none => rfl
  | some id => exact withModifier_past h hdecl hmodifier (hids _ id hid) hfront

/-- What stands in front of a declaration keeps its ids when the children change. -/
theorem exists_mem_front {n m : Node} (hchange : ∀ m, (change m).id = m.id)
    (hm : m ∈ (n.withKind (n.kind.map change)).front) : ∃ m₀ ∈ n.front, m₀.id = m.id := by
  cases hkind : n.kind with
  | variableDecls modifiers typeExpr vars =>
    simp only [Node.front, Node.withKind, hkind, Kind.map] at hm ⊢
    have hmem : m ∈ (modifiers ++ typeExpr.toList).map change := by
      cases typeExpr <;> simpa using hm
    obtain ⟨m₀, hm₀, rfl⟩ := List.mem_map.mp hmem
    exact ⟨m₀, hm₀, (hchange m₀).symm⟩
  | _ => simp [Node.front, Node.withKind, hkind, Kind.map] at hm

/-- At a node that the change treats plainly, it can be swapped with marking. -/
theorem marked_comm (h : Node.Retouches change text special) (hdecl : special .variableDecls = false)
    (hmodifier : special .modifier = false) (hids : ∀ i id, ids i = some id → ∀ f, text id f = f)
    {n : Node} (hn : special n.tag = false) (hfront : ∀ m ∈ n.front, ∀ f, text m.id f = f)
    (ih : ∀ child ∈ n.children, marked ids (change child) = change (marked ids child)) :
    marked ids (change n) = change (marked ids n) := by
  refine Node.remake_comm_of_plain h hn rfl (mark_past h hdecl hmodifier hids ?_) ih
  intro m hm
  obtain ⟨m₀, hm₀, hid⟩ := exists_mem_front (retouches_marked ids).id_eq hm
  rw [← hid]
  exact hfront m₀ hm₀

/-! ## The numbers of declarations -/

/-- The declarations at and below a node that qualify, in the order in which a session leaves
    them. -/
def chosenBelow : Node → List Node → Nat → List NodeId :=
  Node.fold fun n kind ancestors index =>
    (kind.children.zipIdx.flatMap fun (below, i) => below (n :: ancestors) i) ++
      if qualifies ⟨n, ancestors, index⟩ then [n.id] else []

/-- The declarations at and below a cursor that qualify, in the order in which a session leaves
    them. -/
def chosen (c : Cursor) : List NodeId := chosenBelow c.node c.ancestors c.index

theorem chosen_eq (c : Cursor) :
    chosen c = c.children.flatMap chosen ++ if qualifies c then [c.node.id] else [] := by
  rw [chosen, chosenBelow, Node.fold_eq, Kind.children_map, List.zipIdx_map, List.flatMap_map,
    Cursor.children, List.flatMap_map]
  rfl

/-- Nothing is chosen but what qualifies. -/
theorem chosen_perm (c : Cursor) :
    (chosen c).Perm ((c.below.filter qualifies).map fun d => d.node.id) := by
  induction c using Cursor.induct with
  | step c ih =>
    have hchildren : (c.children.flatMap chosen).Perm
        (((c.children.flatMap Cursor.below).filter qualifies).map fun d => d.node.id) := by
      rw [List.filter_flatMap, List.map_flatMap]
      exact List.Perm.flatMap_left _ ih
    rw [chosen_eq, Cursor.below_eq, List.filter_cons]
    split
    · exact (List.perm_append_singleton _ _).trans (hchildren.cons _)
    · simpa using hchildren

/-- Declarations are given the numbers from `start` on, in order. -/
def Numbers (ids : NodeId → Option NodeId) (start : Nat) (l : List NodeId) : Prop :=
  ∀ j i, l[j]? = some i → ids i = some (UInt32.ofNat (start + j))

namespace Numbers

variable {start : Nat} {l l' : List NodeId}

theorem left (h : Numbers ids start (l ++ l')) : Numbers ids start l := by
  intro j i hj
  refine h j i ?_
  rw [List.getElem?_append_left (List.getElem?_eq_some_iff.mp hj).1, hj]

theorem right (h : Numbers ids start (l ++ l')) : Numbers ids (start + l.length) l' := by
  intro j i hj
  rw [Nat.add_assoc]
  refine h (l.length + j) i ?_
  rw [List.getElem?_append_right (Nat.le_add_right _ _), Nat.add_sub_cancel_left, hj]

/-- Steps that count up for their elements count up for all of them. -/
theorem of_passes {γ : Type} {f : γ → List NodeId} {Q : (NodeId → Option NodeId) → γ → Prop}
    {xs : List γ} {s s' : Session NodeId}
    (h : Passes (fun x s s' => s'.state.toNat = s.state.toNat + (f x).length ∧
      ∀ ids, Numbers ids s.state.toNat (f x) → Q ids x) xs s s') :
    s'.state.toNat = s.state.toNat + (xs.flatMap f).length ∧
      ∀ ids, Numbers ids s.state.toNat (xs.flatMap f) → ∀ x ∈ xs, Q ids x := by
  induction h with
  | nil s => simp
  | @cons x xs s s₁ s' hx _ ih =>
    obtain ⟨hcount, hrest⟩ := ih
    rw [List.flatMap_cons, List.length_append]
    refine ⟨by omega, ?_⟩
    intro ids hnumbers y hy
    rcases List.mem_cons.mp hy with rfl | hy
    · exact hx.2 ids hnumbers.left
    · refine hrest ids ?_ y hy
      rw [hx.1]
      exact hnumbers.right

end Numbers

/-- A session marks its declarations with the numbers that its counter goes through. -/
theorem marked_of_yields {n' : Node} {s s' : Session NodeId} (h : Yields (c.edited edit) s n' s') :
    s'.state.toNat = s.state.toNat + (chosen c).length ∧
      ∀ ids, Numbers ids s.state.toNat (chosen c) →
        (∀ d ∈ c.below, qualifies d = false → ids d.node.id = none) →
        n'.unshared = marked ids c.node.unshared := by
  refine Cursor.edit_induct (P := fun c s n' s' =>
    s'.state.toNat = s.state.toNat + (chosen c).length ∧
      ∀ ids, Numbers ids s.state.toNat (chosen c) →
        (∀ d ∈ c.below, qualifies d = false → ids d.node.id = none) →
        n'.unshared = marked ids c.node.unshared) ?_ h
  intro c z n' s s₁ s' hfst hpass hedit
  obtain ⟨hcount, hpairs⟩ := Numbers.of_passes hpass
  have hchildren : (z.children.zipIdx.flatMap fun p => chosen ⟨p.1.1, c.path, p.2⟩) =
      c.children.flatMap chosen := by
    rw [Cursor.children, List.flatMap_map, Node.children, ← hfst, Kind.children_map,
      List.zipIdx_map, List.flatMap_map]
    rfl
  rw [hchildren] at hcount hpairs
  have hrebuilt : ∀ ids, Numbers ids s.state.toNat (c.children.flatMap chosen) →
      (∀ d ∈ c.below, qualifies d = false → ids d.node.id = none) →
      marked ids c.node.unshared = mark ids (c.node.rebuild (z.map Prod.snd)).unshared := by
    intro ids hnumbers hnone
    have hz : ∀ p ∈ z.children, p.2.unshared = marked ids p.1.unshared := by
      intro p hp
      obtain ⟨i, hi⟩ := List.getElem?_of_mem hp
      have hmem : (p, i) ∈ z.children.zipIdx := List.mem_zipIdx_iff_getElem?.mpr hi
      refine hpairs ids hnumbers (p, i) hmem ?_
      intro d hd
      exact hnone d (Cursor.mem_below.mpr (.inr ⟨_, Cursor.mem_children_of_pairs hfst hmem, hd⟩))
    rw [Node.unshared_rebuild_pairs hfst hz, marked, Node.remake_eq]
  rw [chosen_eq]
  rcases yields_edit.mp hedit with ⟨hquiet, rfl, rfl⟩ | ⟨next, hqualifies, hnext, rfl, rfl⟩
  · rw [if_neg (by simp [hquiet]), List.append_nil]
    refine ⟨hcount, ?_⟩
    intro ids hnumbers hnone
    have hid : ids (c.node.rebuild (z.map Prod.snd)).unshared.id = none := by
      rw [Node.id_unshared, Node.id_rebuild]
      exact hnone c c.mem_below_self hquiet
    rw [hrebuilt ids hnumbers hnone, mark, hid]
    rfl
  · rw [if_pos hqualifies, List.length_append]
    have hstate := NodeId.toNat_of_next? hnext
    refine ⟨by simp only [List.length_singleton]; omega, ?_⟩
    intro ids hnumbers hnone
    have hid : ids (c.node.rebuild (z.map Prod.snd)).unshared.id = some s₁.state := by
      have hown := hnumbers.right 0 c.node.id rfl
      rw [Nat.add_zero, ← hcount, UInt32.ofNat_toNat] at hown
      rw [Node.id_unshared, Node.id_rebuild, hown]
    rw [hrebuilt ids hnumbers.left hnone, mark, hid]
    exact withModifier_past Node.retouches_unshared rfl rfl (fun _ => rfl) fun _ _ _ => rfl

/-! ## The rule -/

/-- The ids of the new modifiers, for the declarations that they are put in front of. -/
def marks (tree : Node) (decl : NodeId) : Option NodeId :=
  let decls := chosen (.root tree)
  if decl ∈ decls then some (UInt32.ofNat (tree.maxId.toNat + 1 + decls.idxOf decl)) else none

/-- There are enough ids for the declarations that qualify. -/
def HasRoom (tree : Node) : Prop :=
  tree.maxId.toNat + 1 + (chosen (.root tree)).length ≤ NodeId.last.toNat

instance (tree : Node) : Decidable (HasRoom tree) :=
  inferInstanceAs (Decidable (_ ≤ _))

theorem mem_chosen {i : NodeId} :
    i ∈ chosen (.root tree) ↔ ∃ c ∈ tree.cursors, qualifies c = true ∧ c.node.id = i := by
  rw [(chosen_perm _).mem_iff, List.mem_map]
  simp only [List.mem_filter, Node.cursors_eq, and_assoc]

theorem nodup_chosen (hids : tree.DistinctIds) : (chosen (.root tree)).Nodup := by
  rw [(chosen_perm _).nodup_iff]
  refine List.Nodup.sublist ?_ hids
  exact List.Sublist.map _ List.filter_sublist

theorem numbers_marks (hids : tree.DistinctIds) :
    Numbers (marks tree) (tree.maxId.toNat + 1) (chosen (.root tree)) := by
  intro j i hj
  obtain ⟨hlt, rfl⟩ := List.getElem?_eq_some_iff.mp hj
  rw [marks, if_pos (List.getElem_mem hlt), (nodup_chosen hids).idxOf_getElem j hlt]

theorem marks_of_not_qualifies (hids : tree.DistinctIds) (hc : c ∈ tree.cursors)
    (h : qualifies c = false) : marks tree c.node.id = none := by
  refine if_neg ?_
  intro hmem
  obtain ⟨d, hd, hqualifies, hid⟩ := mem_chosen.mp hmem
  obtain rfl := hids.eq_of_id_eq hd hc hid
  rw [h] at hqualifies
  cases hqualifies

/-- The new ids stand above those of the tree. -/
theorem lt_of_marks (hroom : HasRoom tree) {decl id : NodeId} (h : marks tree decl = some id) :
    tree.maxId.toNat < id.toNat := by
  unfold marks at h
  dsimp only at h
  split at h
  · rename_i hmem
    obtain rfl := Option.some.inj h
    have hlt := List.idxOf_lt_length_of_mem hmem
    have hlast : NodeId.last.toNat = 4294967295 := rfl
    rw [HasRoom, hlast] at hroom
    rw [UInt32.toNat_ofNat']
    omega
  · cases h

/-- The tree that the rule leaves. -/
theorem unshared_of_apply {out : RuleOutput R} (hids : tree.DistinctIds) (h : apply tree = .ok out) :
    out.tree.unshared = marked (marks tree) tree.unshared := by
  obtain ⟨first, s, hfirst, hrun, _, _⟩ := apply_eq_ok h
  refine (marked_of_yields hrun).2 (marks tree) ?_ fun d hd => marks_of_not_qualifies hids hd
  change Numbers _ first.toNat _
  rw [NodeId.toNat_of_next? hfirst]
  exact numbers_marks hids

theorem exists_next (id : NodeId) (h : id.toNat < NodeId.last.toNat) :
    ∃ next, NodeId.next? id = some next := by
  refine ⟨id + 1, ?_⟩
  have hne : id ≠ NodeId.last := by
    rintro rfl
    exact Nat.lt_irrefl _ h
  simp [NodeId.next?, hne]

/-- The rule succeeds if and only if there are enough ids. -/
theorem exists_apply_iff : (∃ out : RuleOutput R, apply tree = .ok out) ↔ HasRoom tree := by
  constructor
  · rintro ⟨out, hout⟩
    obtain ⟨first, s, hfirst, hrun, _, _⟩ := apply_eq_ok hout
    have hcount : s.state.toNat = first.toNat + _ := (marked_of_yields hrun).1
    have hlt := s.state.toNat_lt
    have hlast : NodeId.last.toNat = 4294967295 := rfl
    rw [NodeId.toNat_of_next? hfirst] at hcount
    rw [HasRoom, hlast]
    omega
  · intro hroom
    obtain ⟨first, hfirst⟩ := exists_next tree.maxId (by rw [HasRoom] at hroom; omega)
    let enough (k : Nat) (s : Session NodeId) : Prop := s.state.toNat + k ≤ NodeId.last.toNat
    let cost (d : Cursor) : Nat := if qualifies d then 1 else 0
    have hedit : ∀ d ∈ (Cursor.root tree).below, ∀ rebuilt k s, enough (k + cost d) s →
        ∃ n' s', Yields (edit d rebuilt) s n' s' ∧ enough k s' := by
      intro d _ rebuilt k s hk
      by_cases hqualifies : qualifies d
      · simp only [enough, cost, hqualifies, if_true] at hk
        obtain ⟨next, hnext⟩ := exists_next s.state (by omega)
        refine ⟨_, ⟨next, s.log.record d.node.id⟩,
          yields_edit.mpr (.inr ⟨next, hqualifies, hnext, rfl, rfl⟩), ?_⟩
        simp only [enough, NodeId.toNat_of_next? hnext]
        omega
      · refine ⟨rebuilt, s, yields_edit.mpr (.inl ⟨by simpa using hqualifies, rfl, rfl⟩), ?_⟩
        simpa [enough, cost, hqualifies] using hk
    have hcost : ((Cursor.root tree).below.map cost).sum = (chosen (.root tree)).length := by
      rw [(chosen_perm _).length_eq, List.length_map]
      induction (Cursor.root tree).below with
      | nil => rfl
      | cons d ds ih => by_cases hd : qualifies d <;> simp [cost, hd, ih, Nat.add_comm]
    have hstart : enough (0 + ((Cursor.root tree).below.map cost).sum)
        ⟨first, { rule := ruleName }⟩ := by
      simp only [enough, hcost, NodeId.toNat_of_next? hfirst]
      rw [HasRoom] at hroom
      omega
    obtain ⟨tree', s', hrun, _⟩ := Cursor.exists_yields_edited hedit hstart
    refine ⟨{ tree := tree', transforms := s'.log.entries }, ?_⟩
    rw [apply, hfirst]
    exact RuleOutput.ofSession_of_yields hrun

/-! ## Trees that look alike -/

theorem chosen_eq_of_matches {σ : Sketch} (hσ : σ.modifiers = true)
    (h : c.Matches (Node.Alike σ) c') : chosen c = chosen c' := by
  induction c using Cursor.induct generalizing c' with
  | step c ih =>
    have hnode := (Cursor.matches_iff.mp h).1
    have hqualifies : qualifies c = qualifies c' := by
      rw [qualifies_eq, qualifies_eq, isCandidate_eq_of_matches h, isMarked_eq_of_alike hσ hnode]
    have hsketch := hnode.map_sketch_children (.inl hσ)
    have hnodes : List.Forall₂ (Node.Alike σ) c.node.children c'.node.children := by
      rw [← List.forall₂_eq_eq_eq, List.forall₂_map_left_iff, List.forall₂_map_right_iff] at hsketch
      exact hsketch.imp fun _ _ => Node.alike_of_sketch_eq
    have hcursors : List.Forall₂ (Cursor.Matches (Node.Alike σ)) c.children c'.children := by
      have hall := @Cursor.forall₂_children _ (fun _ => true) c c' (by simpa using hnodes) h
      simpa using hall
    have hchildren : c.children.flatMap chosen = c'.children.flatMap chosen := by
      rw [← List.forall₂_eq_eq_eq]
      refine forall₂_flatMap hcursors ?_
      intro d hd d' hmatch
      rw [List.forall₂_eq_eq_eq]
      exact ih d hd hmatch
    rw [chosen_eq, chosen_eq c', hchildren, hqualifies, hnode.id_eq]

theorem marks_eq_of_sketch_eq (h : tree.sketch .bones = tree'.sketch .bones) :
    marks tree = marks tree' ∧ (HasRoom tree ↔ HasRoom tree') := by
  have hmatch : (Cursor.root tree).Matches (Node.Alike .bones) (.root tree') :=
    Cursor.matches_iff.mpr ⟨Node.alike_of_sketch_eq h, .nil⟩
  have hchosen := chosen_eq_of_matches rfl hmatch
  have hmax := Node.maxId_eq_of_ids_eq (Node.ids_eq_of_sketch_eq rfl h)
  constructor
  · funext decl
    rw [marks, marks, hchosen, hmax]
  · rw [HasRoom, HasRoom, hchosen, hmax]

end AddFinal

end Restyle
