-- SUMMARY: The cursors of a tree as paths from its root, and trees whose ids are pairwise distinct.
import Mathlib.Data.List.Forall2
import Mathlib.Data.List.Nodup
import Restyle.Proofs.Tree.Children
import Restyle.Tree.Cursor

/-!
# Cursors of a tree

`Cursor.below` lists the cursors at and below a cursor in pre-order; the cursors of a tree are those
below its root. A cursor of a tree is a path of the tree: its ancestors have cursors of their own,
and each of them holds the next one as a child (`exists_cursor_of_ancestors_eq`). If ids are
distinct, the id of a node determines its cursor (`DistinctIds.eq_of_id_eq`).
-/

namespace Restyle

namespace Cursor

/-- The cursors at and below a cursor, in pre-order. -/
def below (c : Cursor) : List Cursor :=
  c.node.cursorsWhere (fun _ => true) c.ancestors c.index

end Cursor

namespace Node

theorem cursorsWhere_eq (enter : Node → Bool) (n : Node) (ancestors : List Node) (index : Nat) :
    n.cursorsWhere enter ancestors index =
      ⟨n, ancestors, index⟩ ::
        if enter n then
          n.children.zipIdx.flatMap fun p => p.1.cursorsWhere enter (n :: ancestors) p.2
        else [] := by
  rw [cursorsWhere, fold_eq, Kind.children_map, List.zipIdx_map, List.flatMap_map]
  rfl

end Node

namespace Cursor

theorem below_eq (c : Cursor) : c.below = c :: c.children.flatMap below := by
  rw [below, Node.cursorsWhere_eq, children, List.flatMap_map]
  rfl

/-- What holds at a cursor whenever it holds at its children holds at all cursors. -/
theorem induct {P : Cursor → Prop} (step : ∀ c : Cursor, (∀ d ∈ c.children, P d) → P c)
    (c : Cursor) : P c := by
  obtain ⟨n, ancestors, index⟩ := c
  induction n using Node.induct generalizing ancestors index with
  | step n ih =>
    apply step
    intro d hd
    obtain ⟨⟨child, i⟩, hmem, rfl⟩ := List.mem_map.mp hd
    exact ih child (List.fst_mem_of_mem_zipIdx hmem) _ _

theorem mem_children {c d : Cursor} :
    d ∈ c.children ↔ c.node.children[d.index]? = some d.node ∧ d.ancestors = c.path := by
  simp only [children, List.mem_map, Prod.exists, List.mem_zipIdx_iff_getElem?, path]
  constructor
  · rintro ⟨n, i, hget, rfl⟩
    exact ⟨hget, rfl⟩
  · rintro ⟨hget, hanc⟩
    exact ⟨d.node, d.index, hget, by rw [← hanc]⟩

theorem map_node_children (c : Cursor) :
    c.children.map (fun d => d.node) = c.node.children := by
  simp [children, Function.comp_def]

theorem exists_mem_children {c : Cursor} {n : Node} (h : n ∈ c.node.children) :
    ∃ d ∈ c.children, d.node = n := by
  rw [← c.map_node_children] at h
  simpa using h

theorem mem_below {c d : Cursor} : d ∈ c.below ↔ d = c ∨ ∃ e ∈ c.children, d ∈ e.below := by
  rw [below_eq]
  simp

theorem mem_below_self (c : Cursor) : c ∈ c.below := mem_below.mpr (.inl rfl)

theorem below_trans {c d e : Cursor} (hd : d ∈ c.below) (he : e ∈ d.below) : e ∈ c.below := by
  induction c using induct with
  | step c ih =>
    rcases mem_below.mp hd with rfl | ⟨f, hf, hdf⟩
    · exact he
    · exact mem_below.mpr (.inr ⟨f, hf, ih f hf hdf⟩)

theorem mem_below_of_mem_children {c d : Cursor} (h : d ∈ c.children) : d ∈ c.below :=
  mem_below.mpr (.inr ⟨d, h, d.mem_below_self⟩)

theorem path_suffix_of_mem_below {c d : Cursor} (h : d ∈ c.below) : c.path <:+ d.path := by
  induction c using induct with
  | step c ih =>
    rcases mem_below.mp h with rfl | ⟨e, he, hde⟩
    · exact List.suffix_refl _
    · have hsuffix := ih e he hde
      have hanc := (mem_children.mp he).2
      rw [path, hanc] at hsuffix
      exact (List.suffix_cons _ _).trans hsuffix

theorem ancestors_suffix_of_mem_below {c d : Cursor} (h : d ∈ c.below) :
    c.ancestors <:+ d.ancestors := by
  rcases mem_below.mp h with rfl | ⟨e, he, hde⟩
  · exact List.suffix_refl _
  · have hsuffix := path_suffix_of_mem_below hde
    rw [path, (mem_children.mp he).2, path] at hsuffix
    obtain ⟨inner, hpath⟩ := hsuffix
    cases inner with
    | nil =>
      obtain ⟨_, hanc⟩ := List.cons_eq_cons.mp hpath
      exact ⟨[c.node], hanc⟩
    | cons n inner =>
      obtain ⟨_, hanc⟩ := List.cons_eq_cons.mp hpath
      exact ⟨inner ++ [e.node, c.node], by simpa using hanc⟩

/-- Between a cursor and one below it stands a chain of cursors, one for each node of the path. -/
theorem exists_cursor_of_path_eq {c d : Cursor} {inner outer : List Node} {a : Node}
    (h : d ∈ c.below) (hpath : d.path = inner ++ a :: outer)
    (hlen : c.ancestors.length ≤ outer.length) :
    ∃ e ∈ c.below, e.node = a ∧ e.ancestors = outer ∧ d ∈ e.below := by
  induction c using induct with
  | step c ih =>
    by_cases heq : c.ancestors.length = outer.length
    · have hsuffix := path_suffix_of_mem_below h
      rw [hpath] at hsuffix
      have htail : c.path = a :: outer := by
        apply List.IsSuffix.eq_of_length ?_ (by simp [path, heq])
        exact List.suffix_of_suffix_length_le hsuffix (List.suffix_append _ _)
          (by simp [path, heq])
      obtain ⟨hnode, hanc⟩ := List.cons_eq_cons.mp htail
      exact ⟨c, c.mem_below_self, hnode, hanc, h⟩
    · rcases mem_below.mp h with rfl | ⟨e, he, hde⟩
      · have := congrArg List.length hpath
        simp [path] at this
        omega
      · have hanc := (mem_children.mp he).2
        have hle : e.ancestors.length ≤ outer.length := by
          simp [hanc, path]
          omega
        obtain ⟨f, hf, hrest⟩ := ih e he hde hle
        exact ⟨f, mem_below.mpr (.inr ⟨e, he, hf⟩), hrest⟩

end Cursor

/-! ## The cursors of one tree -/

namespace Node

variable {tree : Node} {c d : Cursor}

theorem cursors_eq (tree : Node) : tree.cursors = (Cursor.root tree).below := rfl

theorem root_mem_cursors (tree : Node) : Cursor.root tree ∈ tree.cursors :=
  (Cursor.root tree).mem_below_self

theorem mem_cursors_of_mem_below (hc : c ∈ tree.cursors) (hd : d ∈ c.below) :
    d ∈ tree.cursors :=
  Cursor.below_trans (c := .root tree) hc hd

theorem mem_cursors_of_mem_children (hc : c ∈ tree.cursors) (hd : d ∈ c.children) :
    d ∈ tree.cursors :=
  mem_cursors_of_mem_below hc (Cursor.mem_below_of_mem_children hd)

/-- Every node on the path of a cursor has a cursor itself, with the cursor below it. -/
theorem exists_cursor_of_ancestors_eq {inner outer : List Node} {a : Node}
    (hd : d ∈ tree.cursors) (hanc : d.ancestors = inner ++ a :: outer) :
    ∃ e ∈ tree.cursors, e.node = a ∧ e.ancestors = outer ∧ d ∈ e.below := by
  have hpath : d.path = (d.node :: inner) ++ a :: outer := by simp [Cursor.path, hanc]
  exact Cursor.exists_cursor_of_path_eq (c := .root tree) hd hpath (Nat.zero_le _)

theorem exists_cursor_of_mem_ancestors {a : Node} (hd : d ∈ tree.cursors)
    (ha : a ∈ d.ancestors) : ∃ e ∈ tree.cursors, e.node = a ∧ d ∈ e.below := by
  obtain ⟨inner, outer, hanc⟩ := List.append_of_mem ha
  obtain ⟨e, he, hnode, _, hbelow⟩ := exists_cursor_of_ancestors_eq hd hanc
  exact ⟨e, he, hnode, hbelow⟩

/-- A cursor is the root or stands among the children of another cursor. -/
theorem eq_root_or_mem_children (hd : d ∈ tree.cursors) :
    d = Cursor.root tree ∨ ∃ c ∈ tree.cursors, d ∈ c.children := by
  suffices ∀ c, c ∈ tree.cursors → d ∈ c.below → d = c ∨ ∃ c ∈ tree.cursors, d ∈ c.children from
    this _ (root_mem_cursors tree) hd
  intro c hc hdc
  induction c using Cursor.induct with
  | step c ih =>
    rcases Cursor.mem_below.mp hdc with rfl | ⟨e, he, hde⟩
    · exact .inl rfl
    · rcases ih e he (mem_cursors_of_mem_children hc he) hde with rfl | hparent
      · exact .inr ⟨c, hc, he⟩
      · exact .inr hparent

/-! ## Nodes without their places -/

/-- The nodes of a tree in pre-order. -/
def nodes (tree : Node) : List Node := tree.cursors.map fun c => c.node

/-- The nodes below a cursor do not depend on what is above it. -/
theorem map_node_below (c : Cursor) : c.below.map (fun d => d.node) = c.node.nodes := by
  suffices ∀ (n : Node) (above above' : List Node) (i j : Nat),
      (Cursor.below ⟨n, above, i⟩).map (fun d => d.node) =
        (Cursor.below ⟨n, above', j⟩).map fun d => d.node from
    this c.node c.ancestors [] c.index 0
  intro n
  induction n using induct with
  | step n ih =>
    intro above above' i j
    rw [Cursor.below_eq, Cursor.below_eq]
    simp only [Cursor.children, List.map_cons, List.map_flatMap, List.flatMap_map]
    congr 1
    refine List.flatMap_congr fun p hp => ?_
    exact ih p.1 (List.fst_mem_of_mem_zipIdx hp) _ _ _ _

theorem nodes_eq (n : Node) : n.nodes = n :: n.children.flatMap nodes := by
  have hchildren : n.children = (Cursor.root n).children.map fun d => d.node :=
    (Cursor.root n).map_node_children.symm
  rw [nodes, cursors_eq, Cursor.below_eq, List.map_cons, List.map_flatMap, hchildren,
    List.flatMap_map]
  simp only [map_node_below]
  rfl

theorem mem_nodes_of_mem_cursors (hc : c ∈ tree.cursors) : c.node ∈ tree.nodes :=
  List.mem_map_of_mem hc

theorem self_mem_nodes (n : Node) : n ∈ n.nodes := by
  rw [nodes_eq]
  exact List.mem_cons_self

theorem mem_nodes_of_mem_children {n child m : Node} (hchild : child ∈ n.children)
    (hm : m ∈ child.nodes) : m ∈ n.nodes := by
  rw [nodes_eq]
  exact List.mem_cons_of_mem _ (List.mem_flatMap.mpr ⟨child, hchild, hm⟩)

/-! ## Distinct ids -/

/-- The ids of the nodes of a tree in pre-order. -/
def ids (tree : Node) : List NodeId := tree.cursors.map fun c => c.node.id

theorem ids_eq (n : Node) : n.ids = n.id :: n.children.flatMap ids := by
  have hids (m : Node) : m.ids = m.nodes.map Node.id := by simp [ids, nodes]
  rw [hids, nodes_eq, List.map_cons, List.map_flatMap]
  congr 1
  exact List.flatMap_congr fun m _ => (hids m).symm

theorem id_mem_ids (hc : c ∈ tree.cursors) : c.node.id ∈ tree.ids :=
  List.mem_map_of_mem hc

/-- No two nodes of the tree have the same id. -/
def DistinctIds (tree : Node) : Prop := tree.ids.Nodup

instance (tree : Node) : Decidable tree.DistinctIds := inferInstanceAs (Decidable tree.ids.Nodup)

theorem DistinctIds.eq_of_id_eq (h : tree.DistinctIds) (hc : c ∈ tree.cursors)
    (hd : d ∈ tree.cursors) (hid : c.node.id = d.node.id) : c = d :=
  List.inj_on_of_nodup_map h hc hd hid

/-- Two places among the children of a node hold different ids. -/
theorem DistinctIds.index_eq (h : tree.DistinctIds) (hc : c ∈ tree.cursors) {i j : Nat}
    {a b : Node} (ha : c.node.children[i]? = some a) (hb : c.node.children[j]? = some b)
    (hid : a.id = b.id) : i = j := by
  have hmem (k : Nat) (n : Node) (hk : c.node.children[k]? = some n) :
      (⟨n, c.path, k⟩ : Cursor) ∈ tree.cursors :=
    mem_cursors_of_mem_children hc (Cursor.mem_children.mpr ⟨hk, rfl⟩)
  have heq := h.eq_of_id_eq (hmem i a ha) (hmem j b hb) hid
  exact congrArg Cursor.index heq

end Node

end Restyle
