-- SUMMARY: Trees in which declarations of variables have got a `final` and nothing else was added.
import Mathlib.Data.List.Forall2
import Restyle.Proofs.Tree.Sketch

/-!
# Growth

`Node.Grown` relates a tree to one that was made of it: every node has kept its id and its kind, its
children stand in their old order, and the only new nodes are modifiers `final`, each in front of a
declaration of variables that had none. Growth goes on from tree to tree (`Grown.trans`), since a
declaration that has got its modifier does not get another one. Seen from the cursors, every old
node is found again (`Grown.exists_cursor`), and every other node is a new modifier
(`Grown.cursor_cases`).
-/

namespace Restyle

/-! ## The modifiers of variables -/

namespace Kind

variable {α β : Type}

/-- The modifiers of a declaration of variables. No other kind has any that count here. -/
def markers : Kind α → List α
  | variableDecls modifiers _ _ => modifiers
  | _ => []

/-- The children that are not among the markers. -/
def parts : Kind α → List α
  | variableDecls _ typeExpr vars => typeExpr.toList ++ vars
  | kind => kind.children

theorem children_eq_markers_append (k : Kind α) : k.children = k.markers ++ k.parts := by
  cases k <;> rfl

theorem markers_map (f : α → β) (k : Kind α) : (k.map f).markers = k.markers.map f := by
  cases k <;> rfl

theorem parts_map (f : α → β) (k : Kind α) : (k.map f).parts = k.parts.map f := by
  have h := children_map f k
  rw [children_eq_markers_append, children_eq_markers_append k, List.map_append, markers_map] at h
  exact List.append_cancel_left h

theorem exists_of_markers_eq_cons {k : Kind α} {m : α} {others : List α}
    (h : k.markers = m :: others) :
    ∃ typeExpr vars, k = variableDecls (m :: others) typeExpr vars := by
  cases k with
  | variableDecls modifiers typeExpr vars =>
    obtain rfl : modifiers = m :: others := h
    exact ⟨typeExpr, vars, rfl⟩
  | _ => cases h

theorem mem_children_of_mem_markers {k : Kind α} {a : α} (h : a ∈ k.markers) : a ∈ k.children := by
  rw [children_eq_markers_append]
  exact List.mem_append_left _ h

theorem mem_children_of_mem_parts {k : Kind α} {a : α} (h : a ∈ k.parts) : a ∈ k.children := by
  rw [children_eq_markers_append]
  exact List.mem_append_right _ h

end Kind

namespace Sketch

variable {σ : Sketch}

theorem markers_kind (hσ : σ.modifiers = true) (k : Kind Node) :
    (σ.kind k).markers = k.markers := by
  cases k <;> simp [kind, Kind.markers, hσ]

theorem parts_kind (hσ : σ.modifiers = true) (k : Kind Node) : (σ.kind k).parts = k.parts := by
  cases k <;> simp [kind, Kind.parts, Kind.children, hσ]

end Sketch

namespace Node

/-- Whether a declaration of variables is `final`. -/
def hasFinal (n : Node) : Bool := n.kind.markers.any (isModifier "final")

/-! ## Nodes that have kept what they are -/

/-- A node and what became of it: the id and the kind stay, a name refers to what it referred to,
    and a modifier has its keyword. -/
structure Keeps (n n' : Node) : Prop where
  id_eq : n'.id = n.id
  tag_eq : n'.tag = n.tag
  ident : ∀ {name : String} {ty : Ty} {declaration : Option NodeId},
    n.kind = .ident name ty declaration → ∃ name', n'.kind = .ident name' ty declaration
  modifier : ∀ {keyword : String}, n.kind = .modifier keyword → n'.kind = .modifier keyword

theorem Keeps.trans {n n' n'' : Node} (h : n.Keeps n') (h' : n'.Keeps n'') : n.Keeps n'' where
  id_eq := h'.id_eq.trans h.id_eq
  tag_eq := h'.tag_eq.trans h.tag_eq
  ident := by
    intro name ty declaration hkind
    obtain ⟨name', hkind'⟩ := h.ident hkind
    exact h'.ident hkind'
  modifier := fun hkind => h'.modifier (h.modifier hkind)

/-! ## Growth -/

/-- A tree that has grown out of another one by modifiers `final` with fresh ids. -/
inductive Grown (fresh : NodeId → Prop) : Node → Node → Prop
  | kept {n n' : Node} : n.Keeps n' →
    List.Forall₂ (Grown fresh) n.kind.markers n'.kind.markers →
    List.Forall₂ (Grown fresh) n.kind.parts n'.kind.parts → Grown fresh n n'
  | marked {n n' m : Node} {others : List Node} : n.Keeps n' →
    n.tag = .variableDecls → n.hasFinal = false →
    n'.kind.markers = m :: others → m.kind = .modifier "final" → fresh m.id →
    List.Forall₂ (Grown fresh) n.kind.markers others →
    List.Forall₂ (Grown fresh) n.kind.parts n'.kind.parts → Grown fresh n n'

end Node

namespace Node.Grown

variable {fresh fresh' : NodeId → Prop} {n n' n'' : Node}

theorem keeps (h : n.Grown fresh n') : n.Keeps n' := by
  cases h with
  | kept hkeeps _ _ => exact hkeeps
  | marked hkeeps _ _ _ _ _ _ _ => exact hkeeps

/-- The text around the new tree does not matter. -/
theorem withFormatting (h : n.Grown fresh n') (f : Formatting) :
    n.Grown fresh (n'.withFormatting f) := by
  cases h with
  | kept hkeeps hmarkers hparts =>
    exact .kept ⟨hkeeps.id_eq, hkeeps.tag_eq, hkeeps.ident, hkeeps.modifier⟩ hmarkers hparts
  | marked hkeeps hdecl hfinal hcons hm hfresh hmarkers hparts =>
    exact .marked ⟨hkeeps.id_eq, hkeeps.tag_eq, hkeeps.ident, hkeeps.modifier⟩ hdecl hfinal hcons hm
      hfresh hmarkers hparts

theorem mono (hfresh : ∀ i, fresh i → fresh' i) (h : n.Grown fresh n') : n.Grown fresh' n' := by
  induction n using induct generalizing n' with
  | step n ih =>
    have himp (l l' : List Node) (hl : ∀ a ∈ l, a ∈ n.children)
        (h : List.Forall₂ (Grown fresh) l l') : List.Forall₂ (Grown fresh') l l' := by
      have hboth := (List.forall₂_and_left _ _).mpr ⟨hl, h⟩
      exact hboth.imp fun a b hab => ih a hab.1 hab.2
    cases h with
    | kept hkeeps hmarkers hparts =>
      exact .kept hkeeps (himp _ _ (fun _ => Kind.mem_children_of_mem_markers) hmarkers)
        (himp _ _ (fun _ => Kind.mem_children_of_mem_parts) hparts)
    | marked hkeeps hdecl hfinal hcons hm hid hmarkers hparts =>
      exact .marked hkeeps hdecl hfinal hcons hm (hfresh _ hid)
        (himp _ _ (fun _ => Kind.mem_children_of_mem_markers) hmarkers)
        (himp _ _ (fun _ => Kind.mem_children_of_mem_parts) hparts)

/-- A modifier `final` is still there in what became of the declaration. -/
theorem hasFinal_of_forall₂ {l l' : List Node} (h : List.Forall₂ (Grown fresh) l l')
    (hl : l.any (isModifier "final") = true) : l'.any (isModifier "final") = true := by
  induction h with
  | nil => exact hl
  | cons hab _ ih =>
    rw [List.any_cons, Bool.or_eq_true] at hl ⊢
    rcases hl with ha | hl
    · exact .inl (isModifier_iff.mpr (hab.keeps.modifier (isModifier_iff.mp ha)))
    · exact .inr (ih hl)

/-- Steps between corresponding elements of three lists, composed where that is possible. -/
theorem forall₂_comp {α : Type} {R : α → α → Prop} {l l' l'' : List α}
    (h : List.Forall₂ R l l') (h' : List.Forall₂ R l' l'')
    (htrans : ∀ a ∈ l, ∀ b c, R a b → R b c → R a c) : List.Forall₂ R l l'' := by
  induction h generalizing l'' with
  | nil =>
    cases h'
    exact .nil
  | cons hab _ ih =>
    cases h' with
    | cons hbc hrest =>
      exact .cons (htrans _ (by simp) _ _ hab hbc) (ih hrest fun a ha => htrans a (by simp [ha]))

/-- What has grown and grows again has grown. -/
theorem trans (h : n.Grown fresh n') (h' : n'.Grown fresh n'') : n.Grown fresh n'' := by
  induction n using induct generalizing n' n'' with
  | step n ih =>
    have hmarkers_comp {l l' : List Node} (h₁ : List.Forall₂ (Grown fresh) n.kind.markers l)
        (h₂ : List.Forall₂ (Grown fresh) l l') : List.Forall₂ (Grown fresh) n.kind.markers l' :=
      forall₂_comp h₁ h₂ fun a ha _ _ hab hbc => ih a (Kind.mem_children_of_mem_markers ha) hab hbc
    have hparts_comp {l l' : List Node} (h₁ : List.Forall₂ (Grown fresh) n.kind.parts l)
        (h₂ : List.Forall₂ (Grown fresh) l l') : List.Forall₂ (Grown fresh) n.kind.parts l' :=
      forall₂_comp h₁ h₂ fun a ha _ _ hab hbc => ih a (Kind.mem_children_of_mem_parts ha) hab hbc
    cases h with
    | kept hkeeps hmarkers hparts =>
      cases h' with
      | kept hkeeps' hmarkers' hparts' =>
        exact .kept (hkeeps.trans hkeeps') (hmarkers_comp hmarkers hmarkers')
          (hparts_comp hparts hparts')
      | marked hkeeps' hdecl hfinal hcons hm hid hmarkers' hparts' =>
        refine .marked (hkeeps.trans hkeeps') (hkeeps.tag_eq ▸ hdecl) ?_ hcons hm hid
          (hmarkers_comp hmarkers hmarkers') (hparts_comp hparts hparts')
        -- A modifier of the old declaration would still stand in the one that had none.
        by_contra hold
        have := hasFinal_of_forall₂ hmarkers (by simpa [hasFinal] using hold)
        simp [hasFinal, this] at hfinal
    | marked hkeeps hdecl hfinal hcons hm hid hmarkers hparts =>
      cases h' with
      | kept hkeeps' hmarkers' hparts' =>
        rw [hcons] at hmarkers'
        cases hcons' : n''.kind.markers with
        | nil =>
          rw [hcons'] at hmarkers'
          cases hmarkers'
        | cons m' others' =>
          rw [hcons'] at hmarkers'
          obtain ⟨hmm', hothers⟩ := List.forall₂_cons.mp hmarkers'
          exact .marked (hkeeps.trans hkeeps') hdecl hfinal hcons' (hmm'.keeps.modifier hm)
            (hmm'.keeps.id_eq ▸ hid) (hmarkers_comp hmarkers hothers) (hparts_comp hparts hparts')
      | marked _ _ hfinal' _ _ _ _ _ =>
        simp [hasFinal, hcons, isModifier, hm] at hfinal'

/-- Trees that look alike with all their modifiers have grown by nothing. -/
theorem of_sketch_eq {σ : Sketch} (hσ : σ.modifiers = true) (h : n'.sketch σ = n.sketch σ) :
    n.Grown fresh n' := by
  induction n using induct generalizing n' with
  | step n ih =>
    have halike : n.Alike σ n' := alike_of_sketch_eq h.symm
    have hkind := halike.kind_eq
    have hcorrespond {l l' : List Node} (hl : ∀ a ∈ l, a ∈ n.children)
        (heq : l.map (sketch σ) = l'.map (sketch σ)) : List.Forall₂ (Grown fresh) l l' := by
      rw [← List.forall₂_eq_eq_eq, List.forall₂_map_left_iff, List.forall₂_map_right_iff] at heq
      have hboth := (List.forall₂_and_left _ _).mpr ⟨hl, heq⟩
      exact hboth.imp fun a b hab => ih a hab.1 hab.2.symm
    refine .kept ⟨halike.id_eq.symm, halike.tag_eq.symm, halike.exists_ident, ?_⟩ ?_ ?_
    · intro keyword hn
      rw [← isModifier_iff, ← isModifier_sketch (σ := σ), ← h, isModifier_sketch, isModifier_iff] at hn
      exact hn
    · refine hcorrespond (fun _ => Kind.mem_children_of_mem_markers) ?_
      have := congrArg Kind.markers hkind
      rwa [Sketch.markers_kind hσ, Sketch.markers_kind hσ, Kind.markers_map, Kind.markers_map] at this
    · refine hcorrespond (fun _ => Kind.mem_children_of_mem_parts) ?_
      have := congrArg Kind.parts hkind
      rwa [Sketch.parts_kind hσ, Sketch.parts_kind hσ, Kind.parts_map, Kind.parts_map] at this

/-! ## Children -/

/-- A new node: the `final` in front of a declaration that had none. -/
structure Added (fresh : NodeId → Prop) (n n' m : Node) : Prop where
  decl : n.tag = .variableDecls
  unmarked : n.hasFinal = false
  first : ∃ others, n'.kind.markers = m :: others
  final : m.kind = .modifier "final"
  isFresh : fresh m.id

/-- The children are the old ones in their order, behind at most one new node. -/
theorem exists_children (h : n.Grown fresh n') :
    ∃ added kids, n'.children = added ++ kids ∧ List.Forall₂ (Grown fresh) n.children kids ∧
      (added = [] ∨ ∃ m, added = [m] ∧ Added fresh n n' m) := by
  have hchildren (k : Node) : k.children = k.kind.markers ++ k.kind.parts :=
    Kind.children_eq_markers_append k.kind
  rw [hchildren n, hchildren n']
  cases h with
  | kept _ hmarkers hparts =>
    exact ⟨[], _, rfl, List.rel_append hmarkers hparts, .inl rfl⟩
  | @marked _ _ m others _ hdecl hfinal hcons hm hfresh hmarkers hparts =>
    refine ⟨[m], others ++ n'.kind.parts, by rw [hcons]; rfl, List.rel_append hmarkers hparts,
      .inr ⟨m, rfl, hdecl, hfinal, ⟨others, hcons⟩, hm, hfresh⟩⟩

theorem map_id_eq {l l' : List Node} (h : List.Forall₂ (Grown fresh) l l') :
    l'.map Node.id = l.map Node.id := by
  induction h with
  | nil => rfl
  | cons hab _ ih => rw [List.map_cons, List.map_cons, hab.keeps.id_eq, ih]

end Node.Grown

/-! ## Cursors -/

namespace Cursor

variable {fresh : NodeId → Prop}

/-- A cursor and what became of it: the node has grown, and the same ids stand above it. -/
structure Grown (fresh : NodeId → Prop) (c c' : Cursor) : Prop where
  node : c.node.Grown fresh c'.node
  above : c'.ancestors.map Node.id = c.ancestors.map Node.id

theorem node_mem_of_mem_children {c d : Cursor} (h : d ∈ c.children) : d.node ∈ c.node.children :=
  List.mem_of_getElem? (mem_children.mp h).1

theorem Grown.child {c c' d d' : Cursor} (h : c.Grown fresh c') (hd : d ∈ c.children)
    (hd' : d' ∈ c'.children) (hnode : d.node.Grown fresh d'.node) : d.Grown fresh d' := by
  refine ⟨hnode, ?_⟩
  rw [(mem_children.mp hd).2, (mem_children.mp hd').2, path, path, List.map_cons, List.map_cons,
    h.above, h.node.keeps.id_eq]

/-- Every old node is found again. -/
theorem Grown.exists_below {c c' d : Cursor} (h : c.Grown fresh c') (hd : d ∈ c.below) :
    ∃ d' ∈ c'.below, d.Grown fresh d' := by
  induction c using induct generalizing c' with
  | step c ih =>
    rcases mem_below.mp hd with rfl | ⟨e, he, hde⟩
    · exact ⟨c', c'.mem_below_self, h⟩
    · obtain ⟨added, kids, hchildren, hkids, _⟩ := h.node.exists_children
      obtain ⟨kid, hkid, hgrown⟩ := exists_right_of_forall₂ hkids (node_mem_of_mem_children he)
      obtain ⟨e', he', rfl⟩ :=
        exists_mem_children (c := c') (hchildren ▸ List.mem_append_right added hkid)
      obtain ⟨d', hd', hsame⟩ := ih e he (h.child he he' hgrown) hde
      exact ⟨d', mem_below.mpr (.inr ⟨e', he', hd'⟩), hsame⟩

/-- Every node is an old one or was added to one. -/
theorem Grown.below_cases {c c' d' : Cursor} (h : c.Grown fresh c') (hd' : d' ∈ c'.below) :
    (∃ d ∈ c.below, d.Grown fresh d') ∨
      ∃ e ∈ c.below, ∃ e' : Cursor, e.Grown fresh e' ∧ d' ∈ e'.children ∧
        Node.Grown.Added fresh e.node e'.node d'.node := by
  induction c using induct generalizing c' with
  | step c ih =>
    rcases mem_below.mp hd' with rfl | ⟨e', he', hde'⟩
    · exact .inl ⟨c, c.mem_below_self, h⟩
    · obtain ⟨added, kids, hchildren, hkids, hadded⟩ := h.node.exists_children
      rcases List.mem_append.mp (hchildren ▸ node_mem_of_mem_children he') with hmem | hmem
      · rcases hadded with rfl | ⟨m, rfl, hm⟩
        · cases hmem
        · obtain rfl := List.mem_singleton.mp hmem
          -- A modifier has nothing below it.
          have hleaf : e'.children = [] := by
            rw [children, Node.children, hm.final]
            rfl
          rw [below_eq, hleaf, List.flatMap_nil, List.mem_singleton] at hde'
          subst hde'
          exact .inr ⟨c, c.mem_below_self, c', h, he', hm⟩
      · obtain ⟨old, hold, hgrown⟩ := exists_left_of_forall₂ hkids hmem
        obtain ⟨e, he, rfl⟩ := exists_mem_children hold
        have hbelow {f : Cursor} (hf : f ∈ e.below) : f ∈ c.below :=
          mem_below.mpr (.inr ⟨e, he, hf⟩)
        rcases ih e he (h.child he he' hgrown) hde' with ⟨d, hd, hsame⟩ | ⟨f, hf, hrest⟩
        · exact .inl ⟨d, hbelow hd, hsame⟩
        · exact .inr ⟨f, hbelow hf, hrest⟩

end Cursor

namespace Node.Grown

variable {fresh : NodeId → Prop} {tree tree' : Node}

theorem root (h : tree.Grown fresh tree') : (Cursor.root tree).Grown fresh (Cursor.root tree') :=
  ⟨h, rfl⟩

theorem exists_cursor (h : tree.Grown fresh tree') {c : Cursor} (hc : c ∈ tree.cursors) :
    ∃ c' ∈ tree'.cursors, c.Grown fresh c' :=
  h.root.exists_below hc

theorem cursor_cases (h : tree.Grown fresh tree') {c' : Cursor} (hc' : c' ∈ tree'.cursors) :
    (∃ c ∈ tree.cursors, c.Grown fresh c') ∨
      ∃ d ∈ tree.cursors, ∃ d' : Cursor, d.Grown fresh d' ∧ c' ∈ d'.children ∧
        Added fresh d.node d'.node c'.node :=
  h.root.below_cases hc'

theorem ids_subset (h : tree.Grown fresh tree') : tree.ids ⊆ tree'.ids := by
  intro i hi
  obtain ⟨c, hc, rfl⟩ := List.mem_map.mp hi
  obtain ⟨c', hc', hgrown⟩ := h.exists_cursor hc
  rw [← hgrown.node.keeps.id_eq]
  exact id_mem_ids hc'

end Node.Grown

end Restyle
