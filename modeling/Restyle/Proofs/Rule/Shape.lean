-- SUMMARY: A run keeps every node and adds nothing but modifiers.
import Restyle.Proofs.Rule.Log
import Restyle.Proofs.Tree.Growth

/-!
# The shape of the tree

Every rule lets the tree grow by modifiers `final` at most (`Rule.Steps.grown`): the rules that
change text keep all nodes, and marking a variable adds one node with an id that no node had. Along a
run the tree grows out of the first one, and only nodes of the first tree are recorded
(`Pipeline.Stems.passes`). `Pipeline.run_keeps_shape` says the same of the nodes one by one.
-/

namespace Restyle

namespace Node

theorem keeps_rebuild {n : Node} {z : Kind (Node × Node)} (hfst : z.map Prod.fst = n.kind) :
    n.Keeps (n.rebuild (z.map Prod.snd)) where
  id_eq := id_rebuild n _
  tag_eq := tag_rebuild_pairs hfst
  ident := by
    intro name ty declaration hkind
    refine ⟨name, ?_⟩
    rw [rebuild_pairs_of_children_eq_nil hfst (by rw [children, hkind]; rfl), hkind]
  modifier := by
    intro keyword hkind
    rw [rebuild_pairs_of_children_eq_nil hfst (by rw [children, hkind]; rfl), hkind]

theorem markers_rebuild (n : Node) (kind : Kind Node) :
    (n.rebuild kind).kind.markers = kind.markers := by
  rcases n.kind_rebuild kind with h | ⟨params, repeats, repeats', hkind, h⟩
  · rw [h]
  · rw [h, hkind]
    rfl

theorem parts_rebuild (n : Node) (kind : Kind Node) :
    (n.rebuild kind).kind.parts = kind.parts := by
  rcases n.kind_rebuild kind with h | ⟨params, repeats, repeats', hkind, h⟩
  · rw [h]
  · rw [h, hkind]
    rfl

end Node

namespace AddFinal

variable {fresh : NodeId → Prop}

/-- A node that is rebuilt from children that have grown has grown. -/
theorem forall₂_pairs {l : List (Node × Node)} (h : ∀ p ∈ l, p.1.Grown fresh p.2) :
    List.Forall₂ (Node.Grown fresh) (l.map Prod.fst) (l.map Prod.snd) := by
  rw [List.forall₂_map_left_iff, List.forall₂_map_right_iff, List.forall₂_same]
  exact h

theorem forall₂_markers {n : Node} {z : Kind (Node × Node)} (hfst : z.map Prod.fst = n.kind)
    (h : ∀ p ∈ z.children, p.1.Grown fresh p.2) :
    List.Forall₂ (Node.Grown fresh) n.kind.markers (n.rebuild (z.map Prod.snd)).kind.markers := by
  rw [Node.markers_rebuild, ← hfst, Kind.markers_map, Kind.markers_map]
  exact forall₂_pairs fun p hp => h p (Kind.mem_children_of_mem_markers hp)

theorem forall₂_parts {n : Node} {z : Kind (Node × Node)} (hfst : z.map Prod.fst = n.kind)
    (h : ∀ p ∈ z.children, p.1.Grown fresh p.2) :
    List.Forall₂ (Node.Grown fresh) n.kind.parts (n.rebuild (z.map Prod.snd)).kind.parts := by
  rw [Node.parts_rebuild, ← hfst, Kind.parts_map, Kind.parts_map]
  exact forall₂_pairs fun p hp => h p (Kind.mem_children_of_mem_parts hp)

/-- A declaration without `final` grows by the modifier that is put in front. -/
theorem grown_withModifier {n decl m : Node} (hkeeps : n.Keeps decl) (hn : n.tag = .variableDecls)
    (hfinal : n.hasFinal = false) (hm : m.kind = .modifier "final") (hid : fresh m.id)
    (hmarkers : List.Forall₂ (Node.Grown fresh) n.kind.markers decl.kind.markers)
    (hparts : List.Forall₂ (Node.Grown fresh) n.kind.parts decl.kind.parts) :
    n.Grown fresh (withModifier m decl) := by
  have hkept (k : Kind Node) (hk : k.tag = .variableDecls) : n.Keeps (decl.withKind k) :=
    ⟨hkeeps.id_eq, hk.trans hn.symm, fun h => by simp [Node.tag, h, Kind.tag] at hn,
      fun h => by simp [Node.tag, h, Kind.tag] at hn⟩
  have hdecl : decl.kind.tag = .variableDecls := hkeeps.tag_eq.trans hn
  unfold withModifier
  cases hkind : decl.kind with
  | variableDecls modifiers typeExpr vars =>
    rw [hkind] at hmarkers hparts
    cases modifiers with
    | cons first others =>
      obtain ⟨a, rest, ha, hrest, hcons⟩ := List.forall₂_cons_right_iff.mp hmarkers
      refine .marked (hkept _ rfl) hn hfinal rfl hm hid ?_ hparts
      rw [hcons]
      exact .cons (ha.withFormatting _) hrest
    | nil =>
      cases typeExpr with
      | some typeExpr =>
        obtain ⟨a, rest, ha, hrest, hcons⟩ := List.forall₂_cons_right_iff.mp hparts
        refine .marked (hkept _ rfl) hn hfinal rfl hm hid hmarkers ?_
        rw [hcons]
        exact .cons (ha.withFormatting _) hrest
      | none => exact .marked (hkept _ rfl) hn hfinal rfl hm hid hmarkers hparts
  | _ => simp [hkind, Kind.tag] at hdecl

theorem hasFinal_of_qualifies {c : Cursor} (h : qualifies c = true) :
    c.node.tag = .variableDecls ∧ c.node.hasFinal = false := by
  unfold qualifies at h
  split at h
  · rename_i modifiers typeExpr vars hkind
    simp only [Bool.and_eq_true, Bool.not_eq_true'] at h
    exact ⟨by rw [Node.tag, hkind]; rfl, by rw [Node.hasFinal, hkind]; exact h.1.2⟩
  · cases h

/-- The session lets the tree grow by modifiers that take their ids from the counter. -/
theorem grown_of_yields {c : Cursor} {n' : Node} {s s' : Session NodeId}
    (h : Yields (c.edited edit) s n' s') :
    s.state.toNat ≤ s'.state.toNat ∧ c.node.Grown (fun i => s.state.toNat ≤ i.toNat) n' := by
  refine Cursor.edit_induct (P := fun c s n' s' => s.state.toNat ≤ s'.state.toNat ∧
    c.node.Grown (fun i => s.state.toNat ≤ i.toNat) n') ?_ h
  intro c z n' s s₁ s' hfst hpass hyields
  obtain ⟨hle, hsteps⟩ := hpass.exists_step
    (R := fun s s' : Session NodeId => s.state.toNat ≤ s'.state.toNat) (fun _ => Nat.le_refl _)
    (fun _ _ _ => Nat.le_trans) fun _ _ _ h => h.1
  have hpairs : ∀ p ∈ z.children, p.1.Grown (fun i => s.state.toNat ≤ i.toNat) p.2 := by
    intro p hp
    obtain ⟨i, hget⟩ := List.mem_iff_getElem?.mp hp
    obtain ⟨t, t', hst, ⟨_, hgrown⟩, _⟩ :=
      hsteps (p, i) (List.mem_zipIdx_iff_getElem?.mpr hget)
    exact hgrown.mono fun j hj => Nat.le_trans hst hj
  rcases yields_edit.mp hyields with ⟨_, rfl, rfl⟩ | ⟨next, hqualifies, hnext, rfl, rfl⟩
  · exact ⟨hle, .kept (Node.keeps_rebuild hfst) (forall₂_markers hfst hpairs)
      (forall₂_parts hfst hpairs)⟩
  · obtain ⟨hdecl, hfinal⟩ := hasFinal_of_qualifies hqualifies
    have hcounter := NodeId.toNat_of_next? hnext
    refine ⟨show s.state.toNat ≤ next.toNat by omega, ?_⟩
    exact grown_withModifier (Node.keeps_rebuild hfst) hdecl hfinal rfl hle
      (forall₂_markers hfst hpairs) (forall₂_parts hfst hpairs)

end AddFinal

/-! ## Rules -/

/-- The ids above all ids of a tree. -/
def Node.Above (tree : Node) (i : NodeId) : Prop := ∀ j ∈ tree.ids, j < i

/-- Every rule lets the tree grow, by nodes with ids above those that it has. -/
theorem Rule.Steps.grown {rule : Rule} {tree tree' : Node} (h : rule.Steps tree tree') :
    tree.Grown tree.Above tree' := by
  by_cases hrule : rule = .addFinal
  · subst hrule
    obtain ⟨out, hout, rfl⟩ := h
    obtain ⟨first, s, hfirst, hrun, _, _⟩ := AddFinal.apply_eq_ok hout
    refine (AddFinal.grown_of_yields hrun).2.mono ?_
    intro i hi j hj
    have hle : j.toNat ≤ tree.maxId.toNat := Node.le_maxId hj
    have hcounter := NodeId.toNat_of_next? hfirst
    have hi : first.toNat ≤ i.toNat := hi
    exact UInt32.lt_iff_toNat_lt.mpr (by omega)
  · refine .of_sketch_eq (σ := .bones) rfl (h.sketch_eq ?_)
    cases rule with
    | addFinal => exact absurd rfl hrule
    | typeParameterList => exact ⟨rfl, rfl⟩
    | hiddenField _ | rename _ | forHeader _ => rfl

/-! ## Runs -/

namespace Pipeline

variable {rules : List Rule} {tree : Node} {outcome : Outcome} {p p' : Progress}

/-- What a run has made of a tree: it has grown, and only its nodes were recorded. -/
structure Stems (tree : Node) (p : Progress) : Prop where
  grown : tree.Grown tree.Above p.tree
  recorded : p.recorded ⊆ tree.ids

/-- A node that is more than a modifier is one of the nodes that were there from the start. -/
theorem Stems.mem_ids {tree : Node} {p : Progress} (h : Stems tree p) {d : Cursor}
    (hd : d ∈ p.tree.cursors) (hplace : d.node.isPlace = true) : d.node.id ∈ tree.ids := by
  rcases h.grown.cursor_cases hd with ⟨c, hc, hgrown⟩ | ⟨_, _, _, _, _, hadded⟩
  · rw [hgrown.node.keeps.id_eq]
    exact Node.id_mem_ids hc
  · simp [Node.isPlace, Node.tag, hadded.final, Kind.tag] at hplace

theorem Stems.applies {rule : Rule} (h : Stems tree p) (hrule : rule.Applies p p') :
    Stems tree p' := by
  refine ⟨?_, ?_⟩
  · refine h.grown.trans (hrule.steps.grown.mono ?_)
    intro i hi j hj
    exact hi j (h.grown.ids_subset hj)
  · obtain ⟨out, hout, rfl⟩ := hrule
    intro i hi
    simp only [Progress.recorded, List.map_append, List.map_reverse, List.mem_append,
      List.mem_reverse] at hi
    rcases hi with hi | hi
    · obtain ⟨t, ht, rfl⟩ := List.mem_map.mp hi
      obtain ⟨d, hd, hplace, hid⟩ := Rule.exists_place_of_mem_transforms hout ht
      exact hid ▸ h.mem_ids hd hplace
    · exact h.recorded hi

theorem Stems.passes {applied : List Rule} (h : Stems tree p)
    (hrun : Passes Rule.Applies applied p p') : Stems tree p' := by
  induction hrun with
  | nil p => exact h
  | cons hrule _ ih => exact ih (h.applies hrule)

theorem stems_of_run (h : run rules tree = .ok outcome) :
    Stems tree ⟨outcome.tree, outcome.transforms.reverse⟩ := by
  obtain ⟨applied, happlied⟩ := exists_applies_of_run h
  have hstart : Stems tree ⟨tree, []⟩ :=
    ⟨.of_sketch_eq (σ := .bones) rfl rfl, by simp [Progress.recorded]⟩
  exact hstart.passes happlied

/-- Of the children of a node that has grown, those that were there before stand in their order. -/
theorem filter_children_eq {c c' : Cursor} (h : c.Grown tree.Above c') (hc : c ∈ tree.cursors) :
    (c'.node.children.map Node.id).filter (· ∈ tree.ids) = c.node.children.map Node.id := by
  obtain ⟨added, kids, hchildren, hkids, hadded⟩ := h.node.exists_children
  have hold : (c.node.children.map Node.id).filter (· ∈ tree.ids) = c.node.children.map Node.id := by
    rw [List.filter_eq_self]
    intro i hi
    obtain ⟨n, hn, rfl⟩ := List.mem_map.mp hi
    obtain ⟨d, hd, rfl⟩ := Cursor.exists_mem_children hn
    exact decide_eq_true (Node.id_mem_ids (Node.mem_cursors_of_mem_children hc hd))
  have hnew : (added.map Node.id).filter (· ∈ tree.ids) = [] := by
    rcases hadded with rfl | ⟨m, rfl, hm⟩
    · rfl
    · have hmem : m.id ∉ tree.ids := fun hmem => UInt32.lt_irrefl _ (hm.isFresh _ hmem)
      simp [hmem]
  rw [hchildren, List.map_append, List.filter_append, hnew, Node.Grown.map_id_eq hkids, hold]
  rfl

/-- A run keeps the nodes of the tree: each is there with its id and its kind, under the same ids,
    with its children in their order, and a name with its declaration. The only other nodes are
    modifiers `final` with ids above all ids of the tree, each the first modifier of a declaration
    that had none. Only nodes of the tree are recorded. -/
theorem run_keeps_shape (hids : tree.DistinctIds) (hrun : run rules tree = .ok outcome) :
    outcome.tree.DistinctIds ∧
      (∀ c ∈ tree.cursors, ∃ c' ∈ outcome.tree.cursors,
        c'.node.id = c.node.id ∧ c'.node.tag = c.node.tag ∧
          c'.ancestors.map Node.id = c.ancestors.map Node.id ∧
          (c'.node.children.map Node.id).filter (· ∈ tree.ids) = c.node.children.map Node.id ∧
          ∀ name ty declaration, c.node.kind = .ident name ty declaration →
            ∃ name', c'.node.kind = .ident name' ty declaration) ∧
      (∀ c' ∈ outcome.tree.cursors, c'.node.id ∉ tree.ids →
        c'.node.kind = .modifier "final" ∧ (∀ i ∈ tree.ids, i < c'.node.id) ∧
          ∃ c ∈ tree.cursors, ∃ decl : Node, c'.parent? = some decl ∧ decl.id = c.node.id ∧
            (∃ others typeExpr vars, decl.kind = .variableDecls (c'.node :: others) typeExpr vars) ∧
            ∃ modifiers typeExpr vars, c.node.kind = .variableDecls modifiers typeExpr vars ∧
              modifiers.any (Node.isModifier "final") = false) ∧
      ∀ t ∈ outcome.transforms, t.node ∈ tree.ids := by
  have hstems := stems_of_run hrun
  refine ⟨distinctIds_of_run hrun hids, ?_, ?_, ?_⟩
  · intro c hc
    obtain ⟨c', hc', hgrown⟩ := hstems.grown.exists_cursor hc
    have hkeeps := hgrown.node.keeps
    exact ⟨c', hc', hkeeps.id_eq, hkeeps.tag_eq, hgrown.above, filter_children_eq hgrown hc,
      fun _ _ _ => hkeeps.ident⟩
  · intro c' hc' hnew
    rcases hstems.grown.cursor_cases hc' with ⟨c, hc, hgrown⟩ | ⟨c, hc, d', hgrown, hchild, hadded⟩
    · refine absurd ?_ hnew
      rw [hgrown.node.keeps.id_eq]
      exact Node.id_mem_ids hc
    · refine ⟨hadded.final, hadded.isFresh, c, hc, d'.node, ?_, hgrown.node.keeps.id_eq, ?_, ?_⟩
      · rw [Cursor.parent?, (Cursor.mem_children.mp hchild).2]
        rfl
      · obtain ⟨others, hothers⟩ := hadded.first
        exact ⟨others, Kind.exists_of_markers_eq_cons hothers⟩
      · have hdecl := hadded.decl
        have hunmarked := hadded.unmarked
        cases hkind : c.node.kind with
        | variableDecls modifiers typeExpr vars =>
          rw [Node.hasFinal, hkind] at hunmarked
          exact ⟨modifiers, typeExpr, vars, rfl, hunmarked⟩
        | _ => simp [Node.tag, hkind, Kind.tag] at hdecl
  · intro t ht
    refine hstems.recorded ?_
    simp only [Progress.recorded, List.map_reverse, List.mem_reverse]
    exact List.mem_map_of_mem ht

/-- In `hidingLocal` the local variable becomes `final`, and the new modifier is the only new node. -/
theorem run_keeps_shape_hidingLocal :
    ∃ outcome, run [Rule.addFinal, .hiddenField ⟨.default, none⟩] hidingLocal = .ok outcome ∧
      outcome.tree.ids.length = hidingLocal.ids.length + 1 ∧ outcome.tree.DistinctIds ∧
      (∀ c' ∈ outcome.tree.cursors, c'.node.id ∉ hidingLocal.ids →
        c'.node.kind = .modifier "final") ∧
      ∀ t ∈ outcome.transforms, t.node ∈ hidingLocal.ids := by
  have hlength : (run [Rule.addFinal, .hiddenField ⟨.default, none⟩] hidingLocal).toOption.map
      (fun o => o.tree.ids.length) = some (hidingLocal.ids.length + 1) := by
    decide +kernel
  cases hrun : run [Rule.addFinal, .hiddenField ⟨.default, none⟩] hidingLocal with
  | error e =>
    rw [hrun] at hlength
    cases hlength
  | ok outcome =>
    rw [hrun] at hlength
    obtain ⟨hids, _, hnew, hlog⟩ := run_keeps_shape hidingLocal_distinctIds hrun
    exact ⟨outcome, rfl, Option.some.inj hlength, hids,
      fun c' hc' hmem => (hnew c' hc' hmem).1, hlog⟩

end Pipeline

end Restyle
