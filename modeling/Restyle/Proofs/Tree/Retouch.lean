-- SUMMARY: Changes that go through a tree node by node, and when two of them can be swapped.
import Restyle.Proofs.Tree.Sharing
import Restyle.Proofs.Tree.Sketch

/-!
# Retouching

`Node.remake` changes a tree from the bottom up by a function of each node and of the node with its
new children. A session whose edits do the same gives the same tree (`Cursor.unshared_edited`).

The changes that rules make are of a special form (`Node.Retouches`): ids and kinds stay, the text
around a node changes in a way that depends on its id only, and all else changes at nodes of few
kinds. Two changes whose kinds differ can be made in either order, if one of them can be moved past
what the other one does to a single node (`Node.remake_comm_of_plain`, `Node.comm_of_step`).
-/

namespace Restyle

namespace Node

@[simp] theorem withFormatting_self (n : Node) : n.withFormatting n.formatting = n := by
  cases n
  rfl

/-! ## Trees without sharing -/

/-- No sketch shows which nodes are one. -/
@[simp] theorem sketch_unshared (σ : Sketch) (n : Node) : n.unshared.sketch σ = n.sketch σ := by
  have hkind (k : Kind Node) : σ.kind k.unshared = σ.kind k := by
    cases k <;> rfl
  induction n using induct with
  | step n ih =>
    have htag : n.unshared.tag = n.tag := by
      rw [tag, kind_unshared, Kind.tag_unshared, Kind.tag_map]
      rfl
    rw [sketch_eq, sketch_eq σ n, htag, id_unshared, formatting_unshared, kind_unshared,
      ← Kind.unshared_map, hkind, Kind.map_map]
    congr 2
    exact Kind.map_congr ih

@[simp] theorem tag_unshared (n : Node) : n.unshared.tag = n.tag := by
  rw [tag, kind_unshared, Kind.tag_unshared, Kind.tag_map]
  rfl

@[simp] theorem ids_unshared (n : Node) : n.unshared.ids = n.ids := by
  induction n using induct with
  | step n ih =>
    rw [ids_eq, ids_eq n, id_unshared, children_unshared, List.flatMap_map]
    congr 1
    exact List.flatMap_congr ih

/-! ## Bottom-up changes -/

/-- The tree in which every node was changed, children first. `touch` gets the old node and the node
    with its new children. -/
def remake (touch : Node → Node → Node) : Node → Node :=
  fold fun n kind => touch n (n.withKind kind)

theorem remake_eq (touch : Node → Node → Node) (n : Node) :
    n.remake touch = touch n (n.withKind (n.kind.map (remake touch))) := by
  rw [remake, fold_eq]

theorem unshared_kind_rebuild (n : Node) (kind : Kind Node) :
    (n.rebuild kind).kind.unshared = kind.unshared := by
  rcases n.kind_rebuild kind with h | ⟨params, repeats, repeats', hkind, h⟩
  · rw [h]
  · rw [h, hkind]
    rfl

theorem unshared_rebuild (n : Node) (kind : Kind Node) :
    (n.rebuild kind).unshared = ⟨n.id, n.formatting, (kind.map unshared).unshared⟩ := by
  rw [unshared_eq, id_rebuild, formatting_rebuild, Kind.unshared_map, unshared_kind_rebuild,
    ← Kind.unshared_map]

theorem unshared_rebuild_pairs {change : Node → Node} {n : Node} {z : Kind (Node × Node)}
    (hfst : z.map Prod.fst = n.kind) (hz : ∀ p ∈ z.children, p.2.unshared = change p.1.unshared) :
    (n.rebuild (z.map Prod.snd)).unshared = n.unshared.withKind (n.unshared.kind.map change) := by
  have hmap : (z.map Prod.snd).map unshared = (n.kind.map unshared).map change := by
    rw [← hfst, Kind.map_map, Kind.map_map, Kind.map_map]
    exact Kind.map_congr hz
  rw [unshared_rebuild, hmap, Kind.unshared_map, ← kind_unshared]
  rw [withKind, id_unshared, formatting_unshared]

/-- A node in which no two children are one stays so with new children of that kind. -/
theorem unshared_rebuild_of_unshared {n : Node} {z : Kind (Node × Node)}
    (hfst : z.map Prod.fst = n.kind) (hn : n.unshared = n)
    (hz : ∀ p ∈ z.children, p.2.unshared = p.2) :
    (n.rebuild (z.map Prod.snd)).unshared = n.rebuild (z.map Prod.snd) := by
  have hkind : (z.map Prod.fst).unshared = z.map Prod.fst := by
    rw [hfst]
    exact kind_unshared_of_unshared hn
  have hrebuild : n.rebuild (z.map Prod.snd) = n.withKind (z.map Prod.snd) := by
    cases z with
    | typeParameters params repeats =>
      obtain rfl : repeats = [] := by simpa [Kind.map, Kind.unshared, eq_comm] using hkind
      simp [rebuild, ← hfst, Kind.map]
    | _ => simp [rebuild, ← hfst, Kind.map]
  have hnew : ((z.map Prod.snd).map unshared).unshared = z.map Prod.snd := by
    have hchildren : (z.map Prod.snd).map unshared = z.map Prod.snd := by
      rw [Kind.map_map]
      exact Kind.map_congr hz
    rw [hchildren]
    cases z with
    | typeParameters params repeats =>
      obtain rfl : repeats = [] := by simpa [Kind.map, Kind.unshared, eq_comm] using hkind
      rfl
    | _ => rfl
  rw [unshared_rebuild, hnew, hrebuild]
  rfl

end Node

/-- A session whose edits touch every node as `touch` does. -/
theorem Cursor.unshared_edited {m : Type → Type} [Monad m] [LawfulMonad m] {S : Type}
    [Watchable m S] {edit : Cursor → Node → m Node} {touch : Node → Node → Node} {c : Cursor}
    (hedit : ∀ d ∈ c.below, ∀ (rebuilt n' : Node) (s s' : S), rebuilt.id = d.node.id →
      rebuilt.formatting = d.node.formatting → Yields (edit d rebuilt) s n' s' →
      n'.unshared = touch d.node.unshared rebuilt.unshared)
    {n' : Node} {s s' : S} (h : Yields (c.edited edit) s n' s') :
    n'.unshared = c.node.unshared.remake touch := by
  refine edit_induct_pairs (P := fun c n' => (∀ d ∈ c.below, ∀ (rebuilt n' : Node) (s s' : S),
    rebuilt.id = d.node.id → rebuilt.formatting = d.node.formatting →
      Yields (edit d rebuilt) s n' s' → n'.unshared = touch d.node.unshared rebuilt.unshared) →
    n'.unshared = c.node.unshared.remake touch) ?_ h hedit
  intro c z n' s₁ s' hfst hpairs hyields hedit
  have hz : ∀ p ∈ z.children, p.2.unshared = p.1.unshared.remake touch := by
    intro p hp
    obtain ⟨i, hi⟩ := List.getElem?_of_mem hp
    have hmem : (p, i) ∈ z.children.zipIdx := List.mem_zipIdx_iff_getElem?.mpr hi
    refine hpairs (p, i) hmem ?_
    intro d hd
    exact hedit d (mem_below.mpr (.inr ⟨_, mem_children_of_pairs hfst hmem, hd⟩))
  rw [hedit c c.mem_below_self _ n' s₁ s' (Node.id_rebuild _ _) (Node.formatting_rebuild _ _) hyields,
    Node.unshared_rebuild_pairs hfst hz, Node.remake_eq]

/-- A session whose edits make no two nodes one keeps a tree so. -/
theorem Cursor.unshared_edited_of_unshared {m : Type → Type} [Monad m] [LawfulMonad m] {S : Type}
    [Watchable m S] {edit : Cursor → Node → m Node} {c : Cursor}
    (hedit : ∀ (d : Cursor) (rebuilt n' : Node) (s s' : S), rebuilt.formatting = d.node.formatting →
      rebuilt.tag = d.node.tag → rebuilt.unshared = rebuilt → Yields (edit d rebuilt) s n' s' →
      n'.unshared = n')
    {n' : Node} {s s' : S} (h : Yields (c.edited edit) s n' s') (hc : c.node.unshared = c.node) :
    n'.unshared = n' := by
  refine edit_induct_pairs (P := fun c n' => c.node.unshared = c.node → n'.unshared = n') ?_ h hc
  intro c z n' s₁ s' hfst hpairs hyields hc
  have hz : ∀ p ∈ z.children, p.2.unshared = p.2 := by
    intro p hp
    obtain ⟨i, hi⟩ := List.getElem?_of_mem hp
    have hmem : (p, i) ∈ z.children.zipIdx := List.mem_zipIdx_iff_getElem?.mpr hi
    refine hpairs (p, i) hmem (Node.unshared_of_mem_children hc ?_)
    exact List.mem_of_getElem? (mem_children.mp (mem_children_of_pairs hfst hmem)).1
  exact hedit c _ n' s₁ s' (Node.formatting_rebuild _ _) (Node.tag_rebuild_pairs hfst)
    (Node.unshared_rebuild_of_unshared hfst hc hz) hyields

namespace Node

/-! ## Changes of a special form -/

/-- A change that keeps ids and kinds, changes the text around nodes by `text`, and is more than that
    only at nodes of special kinds. -/
structure Retouches (change : Node → Node) (text : NodeId → Formatting → Formatting)
    (special : Tag → Bool) : Prop where
  id_eq : ∀ n, (change n).id = n.id
  tag_eq : ∀ n, (change n).tag = n.tag
  withFormatting : ∀ n f, change (n.withFormatting f) = (change n).withFormatting (text n.id f)
  plain : ∀ n, special n.tag = false →
    change n = ⟨n.id, text n.id n.formatting, n.kind.map change⟩

variable {change change' : Node → Node} {text : NodeId → Formatting → Formatting}
variable {special : Tag → Bool} {touch : Node → Node → Node}

namespace Retouches

theorem formatting_eq (h : Retouches change text special) (n : Node) :
    (change n).formatting = text n.id n.formatting := by
  have hself := congrArg Node.formatting (h.withFormatting n n.formatting)
  rwa [withFormatting_self] at hself

theorem kind_eq (h : Retouches change text special) {n : Node} (hn : special n.tag = false) :
    (change n).kind = n.kind.map change := by
  rw [h.plain n hn]

/-- Text that the change does not touch. -/
theorem withLead (h : Retouches change text special) {n : Node} (hn : ∀ f, text n.id f = f)
    (lead : String) : change (n.withLead lead) = (change n).withLead lead := by
  rw [Node.withLead, h.withFormatting, hn, Node.withLead, h.formatting_eq, hn]

/-- A bottom-up change is of the special form if what it does to a single node is. -/
theorem remake (hid : ∀ n r, (touch n r).id = r.id) (htag : ∀ n r, (touch n r).tag = r.tag)
    (hformatting : ∀ n r f, touch (n.withFormatting f) (r.withFormatting f) =
      (touch n r).withFormatting (text r.id f))
    (hplain : ∀ n r, special r.tag = false → touch n r = r.withFormatting (text r.id r.formatting)) :
    Retouches (Node.remake touch) text special where
  id_eq n := by
    rw [remake_eq, hid]
    rfl
  tag_eq n := by
    rw [remake_eq, htag, tag, withKind, Kind.tag_map]
    rfl
  withFormatting n f := by
    rw [remake_eq, remake_eq touch n]
    exact hformatting n (n.withKind (n.kind.map (Node.remake touch))) f
  plain n hn := by
    rw [remake_eq, hplain]
    · rfl
    · rw [tag, withKind, Kind.tag_map]
      exact hn

end Retouches

/-- A change that goes through the tree can be swapped with a change that is plain at a node, if it
    can be swapped with what that change does to the node and with the changes of its children. -/
theorem remake_comm_of_plain {n : Node} (h' : Retouches change' text special)
    (hn : special n.tag = false) (htouch : touch (change' n) = touch n)
    (hpast : change' (touch n (n.withKind (n.kind.map (remake touch)))) =
      touch n (change' (n.withKind (n.kind.map (remake touch)))))
    (ih : ∀ child ∈ n.children, (change' child).remake touch = change' (child.remake touch)) :
    (change' n).remake touch = change' (n.remake touch) := by
  have hkinds : (n.kind.map change').map (remake touch) = (n.kind.map (remake touch)).map change' := by
    rw [Kind.map_map, Kind.map_map]
    exact Kind.map_congr ih
  have htag : special (n.withKind (n.kind.map (remake touch))).tag = false := by
    rw [tag, withKind, Kind.tag_map]
    exact hn
  rw [remake_eq, htouch, remake_eq touch n, hpast, h'.plain _ htag, h'.plain n hn]
  simp only [withKind, hkinds]

/-- Two changes of a tree can be swapped if they can be at each node, given that they can be at its
    children. -/
theorem comm_of_step {tree : Node}
    (step : ∀ n ∈ tree.nodes, (∀ child ∈ n.children, change (change' child) = change' (change child)) →
      change (change' n) = change' (change n)) :
    change (change' tree) = change' (change tree) := by
  induction tree using induct with
  | step tree ih =>
    refine step tree tree.self_mem_nodes ?_
    intro child hchild
    refine ih child hchild ?_
    intro n hn
    exact step n (mem_nodes_of_mem_children hchild hn)

/-- Leaving out which nodes are one is a change of its own. -/
theorem retouches_unshared : Retouches unshared (fun _ f => f) fun t => t == .typeParameters where
  id_eq := id_unshared
  tag_eq := tag_unshared
  withFormatting n f := by
    rw [unshared_eq, unshared_eq n]
    rfl
  plain n hn := by
    rw [unshared_eq]
    congr 1
    cases hkind : n.kind with
    | typeParameters params repeats => simp [tag, hkind, Kind.tag] at hn
    | _ => rfl

/-! ## Changes of text -/

/-- The tree with other text around its nodes. -/
def reformat (text : NodeId → Formatting → Formatting) : Node → Node :=
  remake fun _ r => r.withFormatting (text r.id r.formatting)

theorem retouches_reformat (text : NodeId → Formatting → Formatting) :
    Retouches (reformat text) text fun _ => false :=
  .remake (fun _ _ => rfl) (fun _ _ => rfl) (fun _ _ _ => rfl) fun _ _ _ => rfl

end Node

end Restyle
