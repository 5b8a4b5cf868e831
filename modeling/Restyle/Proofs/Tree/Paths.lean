-- SUMMARY: Nodes at the ends of paths: looking them up, changing them, and the text around them.
import Restyle.Proofs.Tree.Postorder
import Restyle.Proofs.Tree.Retouch
import Restyle.Proofs.Tree.Success

/-!
# Paths

A path of child positions leads to a node of a tree (`Node.at?`). A node is changed in its place by
rebuilding its ancestors (`Node.changeAt`); their other children stay what they are
(`Node.getElem?_children_changeChildren`).

Some rules change nothing but the text around nodes. `Cursor.Reformatted` says of every path which
text stands around the node at its end then.
-/

namespace Restyle

/-! ## Looking up -/

/-- The node that a path of child positions leads to, if there is one. -/
def Node.at? (tree : Node) (path : List Nat) : Option Node :=
  ((Cursor.root tree).descend? path).map fun c => c.node

namespace Cursor

theorem getElem?_children (c : Cursor) (i : Nat) :
    c.children[i]? = c.node.children[i]?.map fun n => ⟨n, c.path, i⟩ := by
  simp [children, path, Function.comp_def]

theorem descend?_cons {c d : Cursor} {i : Nat} {path : List Nat} :
    c.descend? (i :: path) = some d ↔
      ∃ child, c.node.children[i]? = some child ∧
        descend? ⟨child, c.path, i⟩ path = some d := by
  simp [descend?, getElem?_children, Option.bind_eq_some_iff]

theorem descend?_append {c d : Cursor} {path path' : List Nat} :
    c.descend? (path ++ path') = some d ↔
      ∃ e, c.descend? path = some e ∧ e.descend? path' = some d := by
  induction path generalizing c with
  | nil => simp [descend?]
  | cons i path ih =>
    simp only [List.cons_append, descend?_cons, ih]
    constructor
    · rintro ⟨child, hchild, e, he, hd⟩
      exact ⟨e, ⟨child, hchild, he⟩, hd⟩
    · rintro ⟨e, ⟨child, hchild, he⟩, hd⟩
      exact ⟨child, hchild, e, he, hd⟩

/-- The node at the end of a path does not depend on what is above the start. -/
theorem map_node_descend? (c : Cursor) (path : List Nat) :
    (c.descend? path).map (fun d => d.node) = c.node.at? path := by
  suffices ∀ (n : Node) (above above' : List Node) (i j : Nat),
      (descend? ⟨n, above, i⟩ path).map (fun d => d.node) =
        (descend? ⟨n, above', j⟩ path).map fun d => d.node from
    this c.node c.ancestors [] c.index 0
  induction path with
  | nil => exact fun _ _ _ _ _ => rfl
  | cons k path ih =>
    intro n above above' i j
    simp only [descend?, getElem?_children]
    cases n.children[k]? with
    | none => rfl
    | some child => exact ih child _ _ _ _

theorem mem_below_of_descend? {c d : Cursor} {path : List Nat} (h : c.descend? path = some d) :
    d ∈ c.below := by
  induction path generalizing c with
  | nil =>
    obtain rfl := Option.some.inj h
    exact c.mem_below_self
  | cons i path ih =>
    obtain ⟨child, hchild, hd⟩ := descend?_cons.mp h
    exact mem_below.mpr (.inr ⟨_, mem_children.mpr ⟨hchild, rfl⟩, ih hd⟩)

theorem exists_descend?_of_mem_below {c d : Cursor} (h : d ∈ c.below) :
    ∃ path, c.descend? path = some d := by
  induction c using induct with
  | step c ih =>
    rcases mem_below.mp h with rfl | ⟨e, he, hde⟩
    · exact ⟨[], rfl⟩
    · obtain ⟨hget, hanc⟩ := mem_children.mp he
      obtain ⟨path, hd⟩ := ih e he hde
      refine ⟨e.index :: path, descend?_cons.mpr ⟨e.node, hget, ?_⟩⟩
      rw [← hanc]
      exact hd

end Cursor

namespace Node

theorem at?_eq_some {tree n : Node} {path : List Nat} :
    tree.at? path = some n ↔ ∃ c, (Cursor.root tree).descend? path = some c ∧ c.node = n := by
  rw [at?, Option.map_eq_some_iff]

theorem at?_cons (n : Node) (i : Nat) (path : List Nat) :
    n.at? (i :: path) = n.children[i]?.bind fun child => child.at? path := by
  have hnode : (Cursor.root n).node = n := rfl
  rw [at?, Cursor.descend?, Cursor.getElem?_children, hnode]
  cases n.children[i]? with
  | none => rfl
  | some child => exact Cursor.map_node_descend? ⟨child, _, i⟩ path

theorem at?_cons_eq_some {n m : Node} {i : Nat} {path : List Nat} :
    n.at? (i :: path) = some m ↔
      ∃ child, n.children[i]? = some child ∧ child.at? path = some m := by
  rw [at?_cons, Option.bind_eq_some_iff]

/-! ## Changing -/

/-- The node with its children changed, each by its place. -/
def changeChildren (change : Nat → Node → Node) (n : Node) : Node :=
  n.rebuild (Id.run (n.kind.traverseIdx fun child i => pure (change i child)))

/-- The tree with the node at the end of a path changed. -/
def changeAt : List Nat → (Node → Node) → Node → Node
  | [], change => change
  | i :: path, change =>
    changeChildren fun j child => if j = i then changeAt path change child else child

/-- The tree with another node at the end of a path. -/
def replaceAt (path : List Nat) (tree new : Node) : Node := tree.changeAt path fun _ => new

section Change

variable {change : Nat → Node → Node} {n : Node} {z : Kind (Node × Node)}

/-- A change of children, given by the pairs of old and new ones. -/
theorem changeChildren_eq (hfst : z.map Prod.fst = n.kind)
    (hz : ∀ p ∈ z.children.zipIdx, p.1.2 = change p.2 p.1.1) :
    n.changeChildren change = n.rebuild (z.map Prod.snd) := by
  have hpass : Passes (Kind.stepAt fun child i => (pure (change i child) : Id Node))
      z.children.zipIdx () () :=
    Passes.of_forall fun p hp => (hz p hp).symm
  have hrun : Yields (n.kind.traverseIdx fun child i => (pure (change i child) : Id Node)) ()
      (z.map Prod.snd) () :=
    Kind.yields_traverseIdx.mpr ⟨z, hfst, rfl, hpass⟩
  exact congrArg n.rebuild hrun

theorem exists_pairs_changeChildren (change : Nat → Node → Node) (n : Node) :
    ∃ z : Kind (Node × Node), z.map Prod.fst = n.kind ∧
      ∀ p ∈ z.children.zipIdx, p.1.2 = change p.2 p.1.1 := by
  have hfirst : (n.children.zipIdx.map fun p => (p.1, change p.2 p.1)).map Prod.fst =
      n.kind.children := by
    rw [List.map_map]
    exact List.zipIdx_map_fst 0 _
  obtain ⟨z, hfst, hchildren⟩ := n.kind.exists_pairs hfirst
  refine ⟨z, hfst, fun p hp => ?_⟩
  rw [hchildren, List.mem_zipIdx_iff_getElem?, List.getElem?_map, List.getElem?_zipIdx] at hp
  simp only [Option.map_map, Option.map_eq_some_iff] at hp
  obtain ⟨child, _, hpair⟩ := hp
  simp [← hpair]

theorem getElem?_children_changeChildren (change : Nat → Node → Node) (n : Node) (i : Nat) :
    (n.changeChildren change).children[i]? = n.children[i]?.map (change i) := by
  obtain ⟨z, hfst, hz⟩ := n.exists_pairs_changeChildren change
  rw [changeChildren_eq hfst hz, children_rebuild, children, ← hfst, Kind.children_map,
    Kind.children_map, List.getElem?_map, List.getElem?_map, Option.map_map]
  cases hp : z.children[i]? with
  | none => rfl
  | some p => exact congrArg some (hz (p, i) (List.mem_zipIdx_iff_getElem?.mpr hp))

@[simp] theorem id_changeChildren (change : Nat → Node → Node) (n : Node) :
    (n.changeChildren change).id = n.id :=
  id_rebuild n _

theorem id_changeAt {change : Node → Node} (h : ∀ m, (change m).id = m.id) (path : List Nat)
    (tree : Node) : (tree.changeAt path change).id = tree.id := by
  cases path with
  | nil => exact h tree
  | cons i path => exact id_changeChildren _ tree

@[simp] theorem tag_changeChildren (change : Nat → Node → Node) (n : Node) :
    (n.changeChildren change).tag = n.tag := by
  obtain ⟨z, hfst, hz⟩ := n.exists_pairs_changeChildren change
  rw [changeChildren_eq hfst hz, tag_rebuild_pairs hfst]

@[simp] theorem formatting_changeChildren (change : Nat → Node → Node) (n : Node) :
    (n.changeChildren change).formatting = n.formatting :=
  formatting_rebuild n _

/-- A change at the first child, given by the pairs of old and new children. -/
theorem changeAt_zero_eq {x : Node} {rest : List Node} {path : List Nat} {change : Node → Node}
    (hfst : z.map Prod.fst = n.kind)
    (hz : z.children = (x, x.changeAt path change) :: rest.map fun m => (m, m)) :
    n.changeAt (0 :: path) change = n.rebuild (z.map Prod.snd) := by
  refine changeChildren_eq hfst fun p hp => ?_
  rw [hz, List.zipIdx_cons, List.mem_cons] at hp
  rcases hp with rfl | hp
  · simp
  · have hne : p.2 ≠ 0 := by
      have hle := List.le_snd_of_mem_zipIdx hp
      omega
    obtain ⟨m, _, hm⟩ := List.mem_map.mp (List.fst_mem_of_mem_zipIdx hp)
    rw [if_neg hne, ← hm]

end Change

end Node

/-! ## Text around nodes -/

namespace Node

/-- Nodes that hold the same: they have one id, and are of the same kind around children with the
    same ids. -/
structure SameContents (n n' : Node) : Prop where
  id_eq : n'.id = n.id
  kind_eq : n'.kind.unshared.map id = n.kind.unshared.map id

namespace SameContents

variable {n n' : Node}

theorem withFormatting (h : n.SameContents n') (f : Formatting) :
    n.SameContents (n'.withFormatting f) := ⟨h.id_eq, h.kind_eq⟩

theorem tag_eq (h : n.SameContents n') : n'.tag = n.tag := by
  have htag := congrArg Kind.tag h.kind_eq
  rwa [Kind.tag_map, Kind.tag_map, Kind.tag_unshared, Kind.tag_unshared] at htag

theorem map_id_children (h : n.SameContents n') : n'.children.map id = n.children.map id := by
  have hids := congrArg Kind.children h.kind_eq
  rwa [Kind.children_map, Kind.children_map, Kind.children_unshared, Kind.children_unshared] at hids

theorem length_children (h : n.SameContents n') : n'.children.length = n.children.length := by
  simpa using congrArg List.length h.map_id_children

theorem symm (h : n.SameContents n') : n'.SameContents n := ⟨h.id_eq.symm, h.kind_eq.symm⟩

theorem trans {n'' : Node} (h : n.SameContents n') (h' : n'.SameContents n'') :
    n.SameContents n'' :=
  ⟨h'.id_eq.trans h.id_eq, h'.kind_eq.trans h.kind_eq⟩

theorem rebuild {z : Kind (Node × Node)} (hfst : z.map Prod.fst = n.kind)
    (hz : ∀ p ∈ z.children, p.2.id = p.1.id) :
    n.SameContents (n.rebuild (z.map Prod.snd)) where
  id_eq := id_rebuild n _
  kind_eq := by
    rw [unshared_kind_rebuild, ← hfst, ← Kind.unshared_map, ← Kind.unshared_map, Kind.map_map,
      Kind.map_map]
    exact congrArg Kind.unshared (Kind.map_congr hz)

theorem changeChildren {change : Nat → Node → Node} (h : ∀ i child, (change i child).id = child.id)
    (n : Node) : n.SameContents (n.changeChildren change) := by
  obtain ⟨z, hfst, hz⟩ := n.exists_pairs_changeChildren change
  rw [changeChildren_eq hfst hz]
  refine rebuild hfst fun p hp => ?_
  obtain ⟨i, hi⟩ := List.getElem?_of_mem hp
  rw [hz (p, i) (List.mem_zipIdx_iff_getElem?.mpr hi), h]

end SameContents

end Node

namespace Cursor

/-- A tree in which only the text around nodes is another one: at the end of every path stands a
    node that holds the same, with the given text around it. -/
def Reformatted (text : List Nat → Cursor → Formatting) (c : Cursor) (n' : Node) : Prop :=
  ∀ path d, c.descend? path = some d →
    ∃ m, n'.at? path = some m ∧ d.node.SameContents m ∧ m.formatting = text path d

namespace Reformatted

variable {text : List Nat → Cursor → Formatting} {c : Cursor} {n' : Node}

theorem sameContents (h : Reformatted text c n') : c.node.SameContents n' := by
  obtain ⟨m, hm, hsame, _⟩ := h [] c rfl
  obtain rfl : n' = m := Option.some.inj hm
  exact hsame

theorem formatting_eq (h : Reformatted text c n') : n'.formatting = text [] c := by
  obtain ⟨m, hm, _, hformatting⟩ := h [] c rfl
  obtain rfl : n' = m := Option.some.inj hm
  exact hformatting

theorem congr {text' : List Nat → Cursor → Formatting} (h : Reformatted text c n')
    (htext : ∀ path d, c.descend? path = some d → text path d = text' path d) :
    Reformatted text' c n' := by
  intro path d hd
  obtain ⟨m, hm, hsame, hformatting⟩ := h path d hd
  exact ⟨m, hm, hsame, hformatting.trans (htext path d hd)⟩

/-- Text stands around a node and around what is below each of its children. -/
theorem mk_children (hsame : c.node.SameContents n') (hformatting : n'.formatting = text [] c)
    (hbelow : ∀ i child, c.node.children[i]? = some child → ∃ child',
      n'.children[i]? = some child' ∧
        Reformatted (fun path => text (i :: path)) ⟨child, c.path, i⟩ child') :
    Reformatted text c n' := by
  intro path d hd
  cases path with
  | nil =>
    obtain rfl := Option.some.inj hd
    exact ⟨n', rfl, hsame, hformatting⟩
  | cons i path =>
    obtain ⟨child, hchild, hd⟩ := descend?_cons.mp hd
    obtain ⟨child', hchild', hreformatted⟩ := hbelow i child hchild
    obtain ⟨m, hm, hmd⟩ := hreformatted path d hd
    exact ⟨m, Node.at?_cons_eq_some.mpr ⟨child', hchild', hm⟩, hmd⟩

theorem child (h : Reformatted text c n') {i : Nat} {child : Node}
    (hchild : c.node.children[i]? = some child) :
    ∃ child', n'.children[i]? = some child' ∧
      Reformatted (fun path => text (i :: path)) ⟨child, c.path, i⟩ child' := by
  have hlength := h.sameContents.length_children
  have hlt := (List.getElem?_eq_some_iff.mp hchild).1
  have hchild' : n'.children[i]? = some n'.children[i] := List.getElem?_eq_getElem (by omega)
  refine ⟨_, hchild', fun path d hd => ?_⟩
  obtain ⟨m, hm, hmd⟩ := h (i :: path) d (descend?_cons.mpr ⟨child, hchild, hd⟩)
  obtain ⟨child', hget, hm⟩ := Node.at?_cons_eq_some.mp hm
  obtain rfl := Option.some.inj (hchild'.symm.trans hget)
  exact ⟨m, hm, hmd⟩

/-- A node rebuilt from reformatted children is reformatted itself. -/
theorem rebuild {z : Kind (Node × Node)} (hfst : z.map Prod.fst = c.node.kind)
    (hz : ∀ p ∈ z.children.zipIdx,
      Reformatted (fun path => text (p.2 :: path)) ⟨p.1.1, c.path, p.2⟩ p.1.2) :
    Reformatted text c ((c.node.rebuild (z.map Prod.snd)).withFormatting (text [] c)) := by
  refine mk_children ?_ rfl fun i child hchild => ?_
  · refine (Node.SameContents.rebuild hfst fun p hp => ?_).withFormatting _
    obtain ⟨i, hi⟩ := List.getElem?_of_mem hp
    exact (hz (p, i) (List.mem_zipIdx_iff_getElem?.mpr hi)).sameContents.id_eq
  · rw [Node.children, ← hfst, Kind.children_map, List.getElem?_map, Option.map_eq_some_iff] at hchild
    obtain ⟨p, hp, rfl⟩ := hchild
    refine ⟨p.2, ?_, hz (p, i) (List.mem_zipIdx_iff_getElem?.mpr hp)⟩
    change (c.node.rebuild (z.map Prod.snd)).children[i]? = some p.2
    rw [Node.children_rebuild, Kind.children_map, List.getElem?_map, hp]
    rfl

/-- What is below a place is reformatted as it is from the start. -/
theorem descend {path : List Nat} {d : Cursor} {m : Node} (h : Reformatted text c n')
    (hd : c.descend? path = some d) (hm : n'.at? path = some m) :
    Reformatted (fun path' => text (path ++ path')) d m := by
  induction path generalizing text c n' with
  | nil =>
    obtain rfl := Option.some.inj hd
    obtain rfl : n' = m := Option.some.inj hm
    exact h
  | cons i path ih =>
    obtain ⟨child, hchild, hd⟩ := descend?_cons.mp hd
    obtain ⟨child', hchild', hm⟩ := Node.at?_cons_eq_some.mp hm
    obtain ⟨other, hother, hreformatted⟩ := h.child hchild
    obtain rfl := Option.some.inj (hchild'.symm.trans hother)
    exact ih hreformatted hd hm

/-- A change of the text around one node. -/
theorem changeAt (h : Reformatted text c n') (path : List Nat) (g : Formatting → Formatting) :
    Reformatted (fun path' d => if path' = path then g (text path' d) else text path' d) c
      (n'.changeAt path fun m => m.withFormatting (g m.formatting)) := by
  induction path generalizing text c n' with
  | nil =>
    refine mk_children (h.sameContents.withFormatting _) ?_ fun i child hchild => ?_
    · exact congrArg g h.formatting_eq
    · exact h.child hchild
  | cons k path ih =>
    have hid (j : Nat) (m : Node) : (if j = k then
        m.changeAt path fun m => m.withFormatting (g m.formatting) else m).id = m.id := by
      split
      · rw [Node.id_changeAt]
        exact fun _ => rfl
      · rfl
    have hsame := h.sameContents.trans (Node.SameContents.changeChildren hid n')
    refine mk_children hsame ?_ fun i child hchild => ?_
    · exact (Node.formatting_changeChildren _ n').trans h.formatting_eq
    · obtain ⟨child', hchild', hreformatted⟩ := h.child hchild
      refine ⟨_, by rw [Node.changeAt, Node.getElem?_children_changeChildren, hchild']; rfl, ?_⟩
      by_cases hi : i = k
      · subst hi
        simpa using ih hreformatted
      · simpa [hi] using hreformatted

/-- The nodes of both trees correspond in the order in which a session leaves them. -/
theorem forall₂_postorder (h : Reformatted text c n') :
    List.Forall₂ (fun d m => ∃ path, c.descend? path = some d ∧ n'.at? path = some m)
      c.postorder n'.postorder := by
  induction c using induct generalizing text n' with
  | step c ih =>
    have hlength : c.children.length = n'.children.length := by
      rw [h.sameContents.length_children, ← c.map_node_children, List.length_map]
    have hkids : List.Forall₂ (fun d m => ∃ i, c.children[i]? = some d ∧ n'.children[i]? = some m)
        c.children n'.children :=
      List.forall₂_iff_get.mpr ⟨hlength, fun i hi hi' =>
        ⟨i, List.getElem?_eq_getElem hi, List.getElem?_eq_getElem hi'⟩⟩
    rw [postorder_eq, Node.postorder_eq]
    refine List.rel_append ?_ (.cons ⟨[], rfl, rfl⟩ .nil)
    refine List.rel_flatMap hkids fun d m hdm => ?_
    obtain ⟨i, hd, hm⟩ := hdm
    obtain ⟨child, hchild, rfl⟩ := Option.map_eq_some_iff.mp (c.getElem?_children i ▸ hd)
    obtain ⟨child', hchild', hreformatted⟩ := h.child hchild
    obtain rfl := Option.some.inj (hm.symm.trans hchild')
    refine (ih _ (List.mem_of_getElem? hd) hreformatted).imp fun e m hem => ?_
    obtain ⟨path, he, hm⟩ := hem
    exact ⟨i :: path, descend?_cons.mpr ⟨child, hchild, he⟩,
      Node.at?_cons_eq_some.mpr ⟨_, hchild', hm⟩⟩

end Reformatted

end Cursor

end Restyle
