-- SUMMARY: What a successful editing session makes of a tree, by induction over the tree.
import Restyle.Proofs.Tree.Cursors
import Restyle.Tree.Edit

/-!
# Editing sessions

A session that succeeds turns every node into another one, children first. `Cursor.edit_induct` is
the induction over such a session; its step sees the pairs of old and new children and the edit at
the node itself. A session whose edits all keep their node gives the tree back
(`Cursor.yields_edited_self`).
-/

namespace Restyle

/-! ## Nodes that are rebuilt from their own children -/

section Same

variable {α β : Type}

theorem Ty.same_refl (t : Ty) : t.same t = true := by
  cases t <;> simp [Ty.same]

theorem Kind.agreeList_map {p : α → β → Bool} {f : β → α} {l : List β}
    (h : ∀ b ∈ l, p (f b) b = true) : agreeList p (l.map f) l = true := by
  induction l with
  | nil => rfl
  | cons b l ih => simp_all [agreeList]

theorem Kind.agree_map {p : α → β → Bool} {f : β → α} {k : Kind β}
    (h : ∀ b ∈ k.children, p (f b) b = true) : agree p (k.map f) k = true := by
  cases k with
  | classDecl modifiers keyword name typeParams superclass body ty =>
    cases typeParams <;> cases superclass <;>
      simp_all [children, map, agree, agreeOption, agreePadded, agreeList_map, Ty.same_refl]
  | methodDecl modifiers typeParams returnType name params body =>
    cases typeParams <;> cases returnType <;> cases body <;>
      simp_all [children, map, agree, agreeOption, agreePadded, agreeList_map]
  | variableDecls modifiers typeExpr vars =>
    cases typeExpr <;> simp_all [children, map, agree, agreeOption, agreeList_map]
  | namedVar name initializer =>
    cases initializer <;> simp_all [children, map, agree, agreeOption, agreePadded]
  | typeParameter name bounds =>
    cases bounds <;> simp_all [children, map, agree, agreeOption, agreePadded, agreeList_map]
  | methodInvocation select name args =>
    cases select <;> simp_all [children, map, agree, agreeOption, agreePadded, agreeList_map]
  | returnStmt expression =>
    cases expression <;> simp_all [children, map, agree, agreeOption]
  | _ => simp_all [children, map, agree, agreePadded, agreeList_map, Ty.same_refl]

end Same

namespace Node

theorem same_refl (n : Node) : n.same n = true := by
  induction n using induct with
  | step n ih =>
    rw [same, fold_eq]
    simp only [beq_self_eq_true, Bool.true_and]
    exact Kind.agree_map ih

@[simp] theorem withKind_self (n : Node) : n.withKind n.kind = n := by
  cases n
  rfl

@[simp] theorem rebuild_self (n : Node) : n.rebuild n.kind = n := by
  obtain ⟨id, formatting, kind⟩ := n
  cases kind with
  | typeParameters params repeats => simp [rebuild, withKind, same_refl]
  | _ => rfl

@[simp] theorem id_rebuild (n : Node) (kind : Kind Node) : (n.rebuild kind).id = n.id := by
  unfold rebuild
  split
  · dsimp only
    split <;> rfl
  · rfl

@[simp] theorem formatting_rebuild (n : Node) (kind : Kind Node) :
    (n.rebuild kind).formatting = n.formatting := by
  unfold rebuild
  split
  · dsimp only
    split <;> rfl
  · rfl

/-- A rebuilt node has the given kind, but for what is known of repeated nodes. -/
theorem kind_rebuild (n : Node) (kind : Kind Node) :
    (n.rebuild kind).kind = kind ∨
      ∃ params repeats repeats', kind = .typeParameters params repeats ∧
        (n.rebuild kind).kind = .typeParameters params repeats' := by
  unfold rebuild
  split
  · dsimp only
    split
    · exact .inl rfl
    · exact .inr ⟨_, _, _, rfl, rfl⟩
  · exact .inl rfl

theorem rebuild_of_tag_ne {n : Node} {kind : Kind Node} (h : kind.tag ≠ .typeParameters) :
    n.rebuild kind = n.withKind kind := by
  unfold rebuild
  split
  · exact absurd rfl h
  · rfl

theorem kind_rebuild_of_tag_ne {n : Node} {kind : Kind Node} (h : kind.tag ≠ .typeParameters) :
    (n.rebuild kind).kind = kind := by
  rw [rebuild_of_tag_ne h]
  rfl

@[simp] theorem children_rebuild (n : Node) (kind : Kind Node) :
    (n.rebuild kind).children = kind.children := by
  rcases n.kind_rebuild kind with h | ⟨params, repeats, repeats', hkind, h⟩
  · rw [children, h]
  · rw [children, h, hkind]
    rfl

@[simp] theorem tag_rebuild (n : Node) (kind : Kind Node) : (n.rebuild kind).tag = kind.tag := by
  rcases n.kind_rebuild kind with h | ⟨params, repeats, repeats', hkind, h⟩
  · rw [tag, h]
  · rw [tag, h, hkind]
    rfl

theorem tag_rebuild_pairs {n : Node} {z : Kind (Node × Node)} (hfst : z.map Prod.fst = n.kind) :
    (n.rebuild (z.map Prod.snd)).tag = n.tag := by
  rw [tag_rebuild, tag, ← hfst, Kind.tag_map, Kind.tag_map]

theorem rebuild_pairs_self {n : Node} {z : Kind (Node × Node)} (hfst : z.map Prod.fst = n.kind)
    (hz : ∀ p ∈ z.children, p.2 = p.1) : n.rebuild (z.map Prod.snd) = n := by
  rw [Kind.map_congr hz, hfst, rebuild_self]

/-- A node without children is rebuilt as it is. -/
theorem rebuild_pairs_of_children_eq_nil {n : Node} {z : Kind (Node × Node)}
    (hfst : z.map Prod.fst = n.kind) (hn : n.children = []) : n.rebuild (z.map Prod.snd) = n := by
  refine rebuild_pairs_self hfst fun p hp => ?_
  have hmem : p.1 ∈ n.children := by
    rw [children, ← hfst, Kind.children_map]
    exact List.mem_map_of_mem hp
  simp [hn] at hmem

end Node

/-! ## Sessions -/

namespace Cursor

variable {m : Type → Type} [Monad m]

/-- What a session makes of the node at a cursor. -/
def edited (edit : Cursor → Node → m Node) (c : Cursor) : m Node :=
  c.node.editBelow edit c.ancestors c.index

variable [LawfulMonad m] {S : Type} [Watchable m S] {edit : Cursor → Node → m Node}

theorem edited_eq (edit : Cursor → Node → m Node) (c : Cursor) :
    c.edited edit =
      (c.node.kind.traverseIdx fun child i => edited edit ⟨child, c.path, i⟩) >>=
        fun kind => edit c (c.node.rebuild kind) := by
  rw [edited, Node.editBelow, Node.fold_eq, Kind.traverseIdx_map]
  rfl

theorem yields_edited {c : Cursor} {n' : Node} {s s' : S} :
    Yields (c.edited edit) s n' s' ↔
      ∃ (z : Kind (Node × Node)) (s₁ : S), z.map Prod.fst = c.node.kind ∧
        Passes (Kind.stepAt fun child i => edited edit ⟨child, c.path, i⟩) z.children.zipIdx s s₁ ∧
        Yields (edit c (c.node.rebuild (z.map Prod.snd))) s₁ n' s' := by
  rw [edited_eq, yields_bind]
  simp only [Kind.yields_traverseIdx]
  constructor
  · rintro ⟨_, s₁, ⟨z, hfst, rfl, hpass⟩, hedit⟩
    exact ⟨z, s₁, hfst, hpass, hedit⟩
  · rintro ⟨z, s₁, hfst, hpass, hedit⟩
    exact ⟨_, s₁, ⟨z, hfst, rfl, hpass⟩, hedit⟩

/-- The pairs of old and new children stand at the cursors of the children. -/
theorem mem_children_of_pairs {c : Cursor} {z : Kind (Node × Node)} {p : (Node × Node) × Nat}
    (hfst : z.map Prod.fst = c.node.kind) (hp : p ∈ z.children.zipIdx) :
    (⟨p.1.1, c.path, p.2⟩ : Cursor) ∈ c.children := by
  apply mem_children.mpr
  refine ⟨?_, rfl⟩
  rw [List.mem_zipIdx_iff_getElem?] at hp
  simp [Node.children, ← hfst, hp]

theorem exists_pair_of_mem_children {c d : Cursor} {z : Kind (Node × Node)}
    (hfst : z.map Prod.fst = c.node.kind) (hd : d ∈ c.children) :
    ∃ p ∈ z.children.zipIdx, d = ⟨p.1.1, c.path, p.2⟩ := by
  obtain ⟨hget, hanc⟩ := mem_children.mp hd
  rw [Node.children, ← hfst, Kind.children_map, List.getElem?_map, Option.map_eq_some_iff] at hget
  obtain ⟨q, hq, hnode⟩ := hget
  refine ⟨(q, d.index), List.mem_zipIdx_iff_getElem?.mpr hq, ?_⟩
  rw [hnode, ← hanc]

/-- Induction over a session that succeeds. The step gets the pairs of old and new children and
    the edit of the node that was rebuilt from them. -/
theorem edit_induct {P : Cursor → S → Node → S → Prop}
    (step : ∀ (c : Cursor) (z : Kind (Node × Node)) (n' : Node) (s s₁ s' : S),
      z.map Prod.fst = c.node.kind →
      Passes (fun p s s' => P ⟨p.1.1, c.path, p.2⟩ s p.1.2 s') z.children.zipIdx s s₁ →
      Yields (edit c (c.node.rebuild (z.map Prod.snd))) s₁ n' s' → P c s n' s')
    {c : Cursor} {n' : Node} {s s' : S} (h : Yields (c.edited edit) s n' s') : P c s n' s' := by
  induction c using induct generalizing n' s s' with
  | step c ih =>
    obtain ⟨z, s₁, hfst, hpass, hedit⟩ := yields_edited.mp h
    refine step c z n' s s₁ s' hfst ?_ hedit
    exact hpass.mono fun p hp s s' hstep => ih _ (mem_children_of_pairs hfst hp) hstep

/-- As `edit_induct`, for properties that do not look at the states of the session. -/
theorem edit_induct_pairs {P : Cursor → Node → Prop}
    (step : ∀ (c : Cursor) (z : Kind (Node × Node)) (n' : Node) (s₁ s' : S),
      z.map Prod.fst = c.node.kind →
      (∀ p ∈ z.children.zipIdx, P ⟨p.1.1, c.path, p.2⟩ p.1.2) →
      Yields (edit c (c.node.rebuild (z.map Prod.snd))) s₁ n' s' → P c n')
    {c : Cursor} {n' : Node} {s s' : S} (h : Yields (c.edited edit) s n' s') : P c n' := by
  refine edit_induct (P := fun c _ n' _ => P c n') ?_ h
  intro c z n' s s₁ s' hfst hpass hedit
  exact step c z n' s₁ s' hfst (hpass.forall_mem fun p _ _ _ hp => hp) hedit

/-- A session whose edits keep every node gives the tree back and stays where it started. -/
theorem yields_edited_self {c : Cursor} {s : S}
    (h : ∀ d ∈ c.below, Yields (edit d d.node) s d.node s) :
    Yields (c.edited edit) s c.node s := by
  induction c using induct with
  | step c ih =>
    let z : Kind (Node × Node) := c.node.kind.map fun n => (n, n)
    have hfst : z.map Prod.fst = c.node.kind := by
      rw [Kind.map_map]
      exact Kind.map_id _
    have hsnd : z.map Prod.snd = c.node.kind := by
      rw [Kind.map_map]
      exact Kind.map_id _
    refine yields_edited.mpr ⟨z, s, hfst, ?_, ?_⟩
    · have hall : ∀ p ∈ z.children.zipIdx,
          Yields (edited edit ⟨p.1.1, c.path, p.2⟩) s p.1.2 s := by
        intro p hp
        have hchild := mem_children_of_pairs hfst hp
        have hdiag : p.1.2 = p.1.1 := by
          obtain ⟨n, _, hn⟩ := List.mem_map.mp
            (show p.1 ∈ c.node.kind.children.map fun n => (n, n) by
              rw [← Kind.children_map]
              exact List.fst_mem_of_mem_zipIdx hp)
          rw [← hn]
        rw [hdiag]
        exact ih _ hchild fun d hd => h d (mem_below.mpr (.inr ⟨_, hchild, hd⟩))
      exact Passes.of_forall hall
    · rw [hsnd, Node.rebuild_self]
      exact h c c.mem_below_self

end Cursor

end Restyle
