-- SUMMARY: All rules keep the ids of a tree distinct.
import Mathlib.Data.List.Perm.Basic
import Restyle.Proofs.Rule.Run

/-!
# Ids

Padding, type parameter lists and renamings keep the ids of a tree in order. `final` adds nodes, with
ids from a counter that starts above the largest id of the tree (`AddFinal.exists_fresh`), so the
ids of the new tree are distinct if those of the old one were, and there is still room above them.
-/

namespace Restyle

/-! ## Ids of sketches -/

/-- The sketch that shows which nodes there are and no text. -/
def Sketch.bones : Sketch := ⟨fun _ => false, false, true⟩

/-- The sketch that shows only what no rule changes. -/
def Sketch.skeleton : Sketch := ⟨fun _ => false, false, false⟩

namespace Node

theorem ids_sketch {σ : Sketch} (hσ : σ.modifiers = true) (n : Node) :
    (n.sketch σ).ids = n.ids := by
  induction n using induct with
  | step n ih =>
    rw [ids_eq, ids_eq n, id_sketch, children_sketch (.inl hσ), List.flatMap_map]
    congr 1
    exact List.flatMap_congr ih

theorem ids_eq_of_sketch_eq {σ : Sketch} (hσ : σ.modifiers = true) {n n' : Node}
    (h : n'.sketch σ = n.sketch σ) : n'.ids = n.ids := by
  rw [← ids_sketch hσ n', h, ids_sketch hσ]

/-! ## The largest id -/

theorem maxId_eq (n : Node) : n.maxId = (n.children.map maxId).foldl max n.id := by
  rw [maxId, fold_eq, Kind.children_map]
  rfl

theorem foldl_max_bounds (l : List NodeId) (start : NodeId) :
    (∀ i, i = start ∨ i ∈ l → i ≤ l.foldl max start) ∧
      (l.foldl max start = start ∨ l.foldl max start ∈ l) := by
  induction l generalizing start with
  | nil =>
    refine ⟨fun i hi => ?_, .inl rfl⟩
    rcases hi with rfl | hi
    · exact UInt32.le_refl _
    · simp at hi
  | cons j l ih =>
    obtain ⟨hle, hmem⟩ := ih (max start j)
    have hmax : max start j = if start ≤ j then j else start := rfl
    have hstart : start ≤ max start j ∧ j ≤ max start j := by
      rw [hmax]
      split
      · exact ⟨‹_›, UInt32.le_refl j⟩
      · rename_i hlt
        exact ⟨UInt32.le_refl start, (UInt32.le_total start j).resolve_left hlt⟩
    have hfold := hle _ (.inl rfl)
    simp only [List.foldl_cons, List.mem_cons]
    constructor
    · rintro i (rfl | rfl | hi)
      · exact UInt32.le_trans hstart.1 hfold
      · exact UInt32.le_trans hstart.2 hfold
      · exact hle i (.inr hi)
    · rcases hmem with heq | hmem
      · rw [heq, hmax]
        split
        · exact .inr (.inl rfl)
        · exact .inl rfl
      · exact .inr (.inr hmem)

theorem le_maxId {n : Node} {i : NodeId} (h : i ∈ n.ids) : i ≤ n.maxId := by
  induction n using induct with
  | step n ih =>
    have hle := (foldl_max_bounds (n.children.map maxId) n.id).1
    rw [ids_eq] at h
    rw [maxId_eq]
    rcases List.mem_cons.mp h with rfl | h
    · exact hle _ (.inl rfl)
    · obtain ⟨child, hchild, hi⟩ := List.mem_flatMap.mp h
      exact UInt32.le_trans (ih child hchild hi) (hle _ (.inr (List.mem_map_of_mem hchild)))

theorem maxId_mem_ids (n : Node) : n.maxId ∈ n.ids := by
  induction n using induct with
  | step n ih =>
    rw [ids_eq, maxId_eq]
    rcases (foldl_max_bounds (n.children.map maxId) n.id).2 with heq | hmem
    · rw [heq]
      exact List.mem_cons_self
    · obtain ⟨child, hchild, heq⟩ := List.mem_map.mp hmem
      rw [← heq]
      exact List.mem_cons_of_mem _ (List.mem_flatMap.mpr ⟨child, hchild, ih child hchild⟩)

theorem maxId_eq_of_ids_eq {n n' : Node} (h : n.ids = n'.ids) : n.maxId = n'.maxId := by
  apply UInt32.le_antisymm
  · exact le_maxId (h ▸ n.maxId_mem_ids)
  · exact le_maxId (h ▸ n'.maxId_mem_ids)

end Node

/-! ## Fresh ids -/

theorem NodeId.toNat_of_next? {id next : NodeId} (h : NodeId.next? id = some next) :
    next.toNat = id.toNat + 1 := by
  unfold NodeId.next? at h
  split at h
  · cases h
  · rename_i hlast
    obtain rfl := Option.some.inj h
    have hlt := id.toNat_lt
    have hne : id.toNat ≠ 4294967295 := fun heq =>
      hlast (by rw [beq_iff_eq, ← UInt32.toNat_inj, heq]; rfl)
    rw [UInt32.toNat_add]
    simp only [UInt32.toNat_one]
    omega

namespace AddFinal

/-- The new ids are the old ones and, beside them, ids that a counter has handed out on its way
    from one value to another. -/
def Extends (first next : NodeId) (old new : List NodeId) : Prop :=
  first.toNat ≤ next.toNat ∧
    ∃ fresh : List NodeId, new.Perm (fresh ++ old) ∧ fresh.Nodup ∧
      ∀ i ∈ fresh, first.toNat ≤ i.toNat ∧ i.toNat < next.toNat

namespace Extends

variable {a b c : NodeId} {old new old' new' : List NodeId}

theorem refl (a : NodeId) (ids : List NodeId) : Extends a a ids ids :=
  ⟨Nat.le_refl _, [], by simp⟩

theorem append (h : Extends a b old new) (h' : Extends b c old' new') :
    Extends a c (old ++ old') (new ++ new') := by
  obtain ⟨hle, fresh, hperm, hnodup, hrange⟩ := h
  obtain ⟨hle', fresh', hperm', hnodup', hrange'⟩ := h'
  refine ⟨Nat.le_trans hle hle', fresh ++ fresh', ?_, ?_, ?_⟩
  · refine (hperm.append hperm').trans ?_
    simp only [List.append_assoc]
    exact List.Perm.append_left _ (List.perm_append_comm_assoc _ _ _)
  · refine List.Nodup.append hnodup hnodup' fun i hi hi' => ?_
    have := hrange i hi
    have := hrange' i hi'
    omega
  · intro i hi
    rcases List.mem_append.mp hi with hi | hi
    · have := hrange i hi
      omega
    · have := hrange' i hi
      omega

theorem cons (i : NodeId) (h : Extends a b old new) : Extends a b (i :: old) (i :: new) :=
  (refl a [i]).append h

/-- The counter hands out one more id. -/
theorem next (h : Extends a b old new) (hnext : NodeId.next? b = some c) :
    Extends a c old (b :: new) := by
  obtain ⟨hle, fresh, hperm, hnodup, hrange⟩ := h
  have hc := NodeId.toNat_of_next? hnext
  refine ⟨by omega, b :: fresh, hperm.cons b, ?_, ?_⟩
  · refine List.nodup_cons.mpr ⟨fun hmem => ?_, hnodup⟩
    have := hrange b hmem
    omega
  · intro i hi
    rcases List.mem_cons.mp hi with rfl | hi
    · omega
    · have := hrange i hi
      omega

theorem flatMap {γ : Type} {old new : γ → List NodeId} {xs : List γ} {s s' : Session NodeId}
    (h : Passes (fun x s s' => Extends s.state s'.state (old x) (new x)) xs s s') :
    Extends s.state s'.state (xs.flatMap old) (xs.flatMap new) := by
  induction h with
  | nil s => exact refl _ _
  | cons hx _ ih => exact hx.append ih

end Extends

theorem ids_withModifier {modifier decl : Node} (hmodifier : modifier.children = [])
    (hdecl : decl.tag = .variableDecls) :
    (withModifier modifier decl).ids.Perm (modifier.id :: decl.ids) := by
  have hlead (n : Node) (text : String) : (n.withLead text).ids = n.ids := by
    rw [Node.ids_eq, Node.ids_eq n]
    rfl
  have hmodifier : modifier.ids = [modifier.id] := by rw [Node.ids_eq, hmodifier]; rfl
  have hids (kind : Kind Node) :
      (decl.withKind kind).ids = decl.id :: kind.children.flatMap Node.ids := Node.ids_eq _
  cases hkind : decl.kind with
  | variableDecls modifiers typeExpr vars =>
    -- The new modifier stands right behind the declaration in pre-order.
    have hnew : (withModifier modifier decl).ids =
        decl.id :: modifier.id :: decl.children.flatMap Node.ids := by
      cases modifiers with
      | cons first others =>
        simp [withModifier, hkind, hids, Kind.children, hlead, hmodifier, Node.children]
      | nil =>
        cases typeExpr <;>
          simp [withModifier, hkind, hids, Kind.children, hlead, hmodifier, Node.children]
    rw [hnew, Node.ids_eq decl]
    exact List.Perm.swap _ _ _
  | _ => simp [Node.tag, hkind, Kind.tag] at hdecl

/-- A session adds ids that its counter hands out. -/
theorem extends_of_yields {c : Cursor} {n' : Node} {s s' : Session NodeId}
    (h : Yields (c.edited edit) s n' s') : Extends s.state s'.state c.node.ids n'.ids := by
  refine Cursor.edit_induct (P := fun c s n' s' => Extends s.state s'.state c.node.ids n'.ids) ?_ h
  intro c z n' s s₁ s' hfst hpass hedit
  have hrebuilt : Extends s.state s₁.state c.node.ids (c.node.rebuild (z.map Prod.snd)).ids := by
    rw [Node.ids_eq, Node.ids_eq (c.node.rebuild _), Node.id_rebuild, Node.children_rebuild]
    refine Extends.cons _ ?_
    have hpairs (f : Node × Node → Node) : (z.map f).children.flatMap Node.ids =
        z.children.zipIdx.flatMap fun p => (f p.1).ids := by
      have hfst : z.children = z.children.zipIdx.map Prod.fst := by simp
      rw [Kind.children_map, List.flatMap_map, hfst, List.flatMap_map, ← hfst]
    rw [Node.children, ← hfst, hpairs, hpairs]
    exact Extends.flatMap hpass
  rcases yields_edit.mp hedit with ⟨_, rfl, rfl⟩ | ⟨next, hqualifies, hnext, rfl, rfl⟩
  · exact hrebuilt
  · have hdecl : (c.node.rebuild (z.map Prod.snd)).tag = .variableDecls := by
      rw [Node.tag_rebuild, Kind.tag_map, ← Kind.tag_map Prod.fst, hfst]
      cases hkind : c.node.kind <;> simp_all [qualifies, Kind.tag]
    obtain ⟨hle, fresh, hperm, hrest⟩ := hrebuilt.next hnext
    exact ⟨hle, fresh, (ids_withModifier rfl hdecl).trans hperm, hrest⟩

variable {R : Type} {tree : Node} {out : RuleOutput R}

theorem exists_extends (h : apply tree = .ok out) :
    ∃ first next : NodeId, tree.maxId.toNat < first.toNat ∧
      Extends first next tree.ids out.tree.ids := by
  obtain ⟨first, s, hfirst, hrun, _, _⟩ := apply_eq_ok h
  have hlt := NodeId.toNat_of_next? hfirst
  exact ⟨first, s.state, by omega, extends_of_yields hrun⟩

/-- New modifiers get ids of their own. -/
theorem distinctIds_of_apply (h : apply tree = .ok out) (hids : tree.DistinctIds) :
    out.tree.DistinctIds := by
  obtain ⟨first, next, hfirst, _, fresh, hperm, hnodup, hrange⟩ := exists_extends h
  refine hperm.nodup_iff.mpr (List.Nodup.append hnodup hids fun i hi hold => ?_)
  have hmax : i.toNat ≤ tree.maxId.toNat := Node.le_maxId hold
  have := hrange i hi
  omega

/-- There is an id left above those of the new tree. -/
theorem exists_next_of_apply (h : apply tree = .ok out) :
    ∃ next, NodeId.next? out.tree.maxId = some next := by
  obtain ⟨first, next, hfirst, hle, fresh, hperm, _, hrange⟩ := exists_extends h
  have hmax : out.tree.maxId.toNat < next.toNat := by
    rcases List.mem_append.mp (hperm.mem_iff.mp out.tree.maxId_mem_ids) with hmem | hmem
    · exact (hrange _ hmem).2
    · have hmax : out.tree.maxId.toNat ≤ tree.maxId.toNat := Node.le_maxId hmem
      omega
  have hne : out.tree.maxId ≠ NodeId.last := by
    intro heq
    have hlast : NodeId.last.toNat = 4294967295 := rfl
    have hlt := next.toNat_lt
    rw [heq, hlast] at hmax
    omega
  exact ⟨out.tree.maxId + 1, by simp [NodeId.next?, hne]⟩

end AddFinal

/-! ## Rules -/

/-- A rule that adds no nodes keeps the ids of the tree as they are. -/
theorem Rule.Steps.ids_eq {rule : Rule} {tree tree' : Node} (h : rule.Steps tree tree')
    (hrule : rule ≠ .addFinal) : tree'.ids = tree.ids := by
  refine Node.ids_eq_of_sketch_eq (σ := .bones) rfl (h.sketch_eq ?_)
  cases rule with
  | addFinal => exact absurd rfl hrule
  | typeParameterList => exact ⟨rfl, rfl⟩
  | hiddenField _ | rename _ | forHeader _ => rfl

theorem Rule.Steps.distinctIds {rule : Rule} {tree tree' : Node} (h : rule.Steps tree tree')
    (hids : tree.DistinctIds) : tree'.DistinctIds := by
  by_cases hrule : rule = .addFinal
  · obtain ⟨out, hout, rfl⟩ := h
    subst hrule
    exact AddFinal.distinctIds_of_apply hout hids
  · rw [Node.DistinctIds, h.ids_eq hrule]
    exact hids

/-- Every rule keeps the skeleton of the tree. -/
theorem Rule.spares_skeleton (rule : Rule) : rule.Spares .skeleton := by
  cases rule with
  | typeParameterList => exact ⟨rfl, rfl⟩
  | hiddenField _ | rename _ | forHeader _ | addFinal => rfl

theorem Rule.Steps.alike {rule : Rule} {tree tree' : Node} (h : rule.Steps tree tree') :
    tree.Alike .skeleton tree' :=
  Node.alike_of_sketch_eq (h.sketch_eq rule.spares_skeleton).symm

end Restyle
