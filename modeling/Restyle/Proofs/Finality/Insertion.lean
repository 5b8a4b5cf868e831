-- SUMMARY: Where modifiers are inserted into a tree, and the ids that they get.
import Restyle.Proofs.Finality.Decision
import Restyle.Proofs.Finality.Marked
import Restyle.Proofs.Tree.Growth
import Restyle.Proofs.Tree.Postorder

/-!
# Insertion

Marking goes through a tree with a counter. What it makes of a node is said here place by place
(`AddFinal.Becomes`), so that ids may occur more than once: the children of a node become its
children in turn, each started with the number at which the one before it has stopped, and a node
that is due for it gets one more child in front, with the number that is reached by then
(`AddFinal.Becomes.step`). From this one step follow, by induction over the tree, where the new
modifiers are (`AddFinal.apply_marks_exactly`) and how they are numbered
(`AddFinal.apply_numbers_modifiers`).
-/

namespace Restyle

/-! ## Lists that are numbered together -/

/-- Elements of two lists correspond, each for the number at which it starts. An element moves the
    number on by its size. -/
inductive InTurn {α β : Type} (size : α → Nat) (R : Nat → α → β → Prop) :
    Nat → List α → List β → Prop
  | nil {start : Nat} : InTurn size R start [] []
  | cons {start : Nat} {a : α} {b : β} {as : List α} {bs : List β} :
    R start a b → InTurn size R (start + size a) as bs → InTurn size R start (a :: as) (b :: bs)

namespace InTurn

variable {α β γ δ : Type} {size : α → Nat} {R : Nat → α → β → Prop} {start : Nat} {as : List α}
variable {bs : List β}

/-- Every element starts at the first number or at a later one. -/
theorem forall₂ (h : InTurn size R start as bs) :
    List.Forall₂ (fun a b => ∃ k, start ≤ k ∧ R k a b) as bs := by
  induction h with
  | nil => exact .nil
  | cons hab _ ih =>
    refine .cons ⟨_, Nat.le_refl _, hab⟩ (ih.imp fun a b => ?_)
    rintro ⟨k, hk, hR⟩
    exact ⟨k, by omega, hR⟩

/-- What is numbered at each element is numbered through the whole list. -/
theorem forall₂_zipIdx {f : α → List γ} {g : β → List δ} {S : γ × Nat → δ → Prop}
    (h : InTurn (fun a => (f a).length) R start as bs)
    (hstep : ∀ a ∈ as, ∀ b k, start ≤ k → R k a b → List.Forall₂ S ((f a).zipIdx k) (g b)) :
    List.Forall₂ S ((as.flatMap f).zipIdx start) (bs.flatMap g) := by
  induction h with
  | nil => exact .nil
  | cons hab _ ih =>
    rw [List.flatMap_cons, List.flatMap_cons, List.zipIdx_append]
    refine List.rel_append (hstep _ (by simp) _ _ (Nat.le_refl _) hab) (ih fun a ha b k hk => ?_)
    exact hstep a (by simp [ha]) b k (by omega)

/-- The numbers used at the elements are the numbers in a row. -/
theorem flatMap_perm {g : β → List Nat} (h : InTurn size R start as bs)
    (hstep : ∀ a ∈ as, ∀ b k, start ≤ k → R k a b → (g b).Perm (List.range' k (size a))) :
    (bs.flatMap g).Perm (List.range' start (as.map size).sum) := by
  induction h with
  | nil => exact .refl _
  | cons hab _ ih =>
    rw [List.flatMap_cons, List.map_cons, List.sum_cons, ← List.range'_append_1]
    refine (hstep _ (by simp) _ _ (Nat.le_refl _) hab).append (ih fun a ha b k hk => ?_)
    exact hstep a (by simp [ha]) b k (by omega)

/-- A run whose steps move a counter on by sizes numbers its elements. -/
theorem of_passes {S : Type} (count : S → Nat) (size : α → Nat) (old : γ → α)
    {step : γ → S → S → Prop} {xs : List γ} {s s' : S} {match' : γ → β → Prop}
    (h : Passes step xs s s')
    (hbs : List.Forall₂ match' xs bs)
    (hcount : ∀ x s s', step x s s' → count s' = count s + size (old x))
    (hR : ∀ x ∈ xs, ∀ b s s', match' x b → step x s s' → R (count s) (old x) b) :
    InTurn size R (count s) (xs.map old) bs := by
  induction h generalizing bs with
  | nil s =>
    cases hbs
    exact .nil
  | cons hx _ ih =>
    cases hbs with
    | cons hb hbs =>
      refine .cons (hR _ (by simp) _ _ _ hb hx) ?_
      rw [← hcount _ _ _ hx]
      exact ih hbs fun x hmem => hR x (by simp [hmem])

theorem count_of_passes {S : Type} (count : S → Nat) (size : α → Nat) (old : γ → α)
    {step : γ → S → S → Prop} {xs : List γ} {s s' : S} (h : Passes step xs s s')
    (hcount : ∀ x s s', step x s s' → count s' = count s + size (old x)) :
    count s' = count s + ((xs.map old).map size).sum := by
  induction h with
  | nil s => rfl
  | cons hx _ ih =>
    rw [ih, hcount _ _ _ hx, List.map_cons, List.map_cons, List.sum_cons, Nat.add_assoc]

end InTurn

@[simp] theorem Kind.markers_unshared {α : Type} (k : Kind α) : k.unshared.markers = k.markers := by
  cases k <;> rfl

namespace AddFinal

variable {R : Type} {tree : Node} {c c' : Cursor} {start : Nat} {last : NodeId}

/-! ## Declarations that are due -/

/-- The declarations at and below a cursor that qualify, in the order in which a session leaves
    them. -/
def due (c : Cursor) : List Cursor := c.postorder.filter qualifies

theorem due_eq (c : Cursor) :
    due c = c.children.flatMap due ++ if qualifies c then [c] else [] := by
  rw [due, Cursor.postorder_eq, List.filter_append, List.filter_flatMap]
  congr 1
  cases hc : qualifies c <;> simp [hc]

theorem map_id_due (c : Cursor) : (due c).map (fun d => d.node.id) = chosen c := by
  induction c using Cursor.induct with
  | step c ih =>
    rw [due_eq, chosen_eq, List.map_append, List.map_flatMap, List.flatMap_congr ih]
    cases hc : qualifies c <;> simp

theorem length_chosen (c : Cursor) : (chosen c).length = (due c).length := by
  rw [← map_id_due, List.length_map]

/-! ## A modifier in front -/

theorem forall₂_withFormatting_refl (l : List Node) :
    List.Forall₂ (fun n n' : Node => ∃ f, n' = n.withFormatting f) l l := by
  rw [List.forall₂_same]
  exact fun n _ => ⟨n.formatting, (Node.withFormatting_self n).symm⟩

theorem tag_of_qualifies (h : qualifies c = true) : c.node.tag = .variableDecls := by
  obtain ⟨modifiers, typeExpr, vars, _, hkind, _⟩ := (qualifies_iff c).mp h
  rw [Node.tag, hkind]
  rfl

/-- The new node stands in front of the old children, which keep all but the text around them. -/
theorem exists_kind_withModifier {decl : Node} (m : Node) (hdecl : decl.tag = .variableDecls) :
    ∃ lead others typeExpr vars,
      (withModifier m decl).kind = .variableDecls (m.withLead lead :: others) typeExpr vars ∧
      (Kind.variableDecls others typeExpr vars).map Node.id = decl.kind.map Node.id ∧
      List.Forall₂ (fun n n' : Node => ∃ f, n' = n.withFormatting f) decl.children
        (Kind.variableDecls others typeExpr vars).children := by
  rw [Node.children]
  cases hkind : decl.kind with
  | variableDecls modifiers typeExpr vars =>
    cases modifiers with
    | cons first others =>
      refine ⟨first.formatting.lead, first.withLead " " :: others, typeExpr, vars, ?_, rfl, ?_⟩
      · simp only [withModifier, hkind, Node.withKind]
      · exact .cons ⟨_, rfl⟩ (forall₂_withFormatting_refl _)
    | nil =>
      cases typeExpr with
      | some typeExpr =>
        refine ⟨typeExpr.formatting.lead, [], some (typeExpr.withLead " "), vars, ?_, rfl, ?_⟩
        · simp only [withModifier, hkind, Node.withKind]
        · exact .cons ⟨_, rfl⟩ (forall₂_withFormatting_refl _)
      | none =>
        refine ⟨"", [], none, vars, ?_, rfl, forall₂_withFormatting_refl _⟩
        simp only [withModifier, hkind, Node.withKind]
  | _ => simp [Node.tag, hkind, Kind.tag] at hdecl

theorem id_of_yields {n' : Node} {s s' : Session NodeId} (h : Yields (c.edited edit) s n' s') :
    n'.id = c.node.id := by
  obtain ⟨z, s₁, _, _, hedit⟩ := Cursor.yields_edited.mp h
  rcases yields_edit.mp hedit with ⟨_, rfl, _⟩ | ⟨_, _, _, rfl, _⟩
  · exact Node.id_rebuild _ _
  · rw [id_withModifier, Node.id_rebuild]

/-! ## What becomes of a place -/

/-- A place of a tree and the same place after a session that started with a number: the node is
    what the session has made of it, up to the text around, and the same ids stand above. -/
def Becomes (start : Nat) (c c' : Cursor) : Prop :=
  ∃ (n : Node) (s s' : Session NodeId), Yields (c.edited edit) s n s' ∧ s.state.toNat = start ∧
    c'.node.id = n.id ∧ c'.node.kind = n.kind ∧ c'.ancestors.map Node.id = c.ancestors.map Node.id

namespace Becomes

theorem id_eq (h : Becomes start c c') : c'.node.id = c.node.id := by
  obtain ⟨n, s, s', hrun, _, hid, _⟩ := h
  rw [hid, id_of_yields hrun]

theorem above_eq (h : Becomes start c c') :
    c'.ancestors.map Node.id = c.ancestors.map Node.id := by
  obtain ⟨n, s, s', _, _, _, _, habove⟩ := h
  exact habove

end Becomes

theorem toNat_of_yields {n' : Node} {s s' : Session NodeId} (h : Yields (c.edited edit) s n' s') :
    s'.state.toNat = s.state.toNat + (due c).length := by
  rw [← length_chosen]
  exact (marked_of_yields h).1

/-- What a session makes of the children one after another, with other text around, are children in
    turn. -/
theorem inTurn_children {z : Kind (Node × Node)} {s s' : Session NodeId} {kids : List Cursor}
    (hfst : z.map Prod.fst = c.node.kind)
    (hpass : Passes (Kind.stepAt fun child i => Cursor.edited edit ⟨child, c.path, i⟩)
      z.children.zipIdx s s')
    (habove : ∀ d ∈ kids, d.ancestors.map Node.id = c.path.map Node.id)
    (hnodes : List.Forall₂ (fun n n' : Node => ∃ f, n' = n.withFormatting f)
      (z.children.map Prod.snd) (kids.map fun d => d.node)) :
    InTurn (fun d => (due d).length) Becomes s.state.toNat c.children kids := by
  rw [← List.zipIdx_map_fst 0 z.children, List.map_map, List.forall₂_map_left_iff,
    List.forall₂_map_right_iff] at hnodes
  have hmatch := ((List.forall₂_and_left _ _).mpr ⟨habove, hnodes.flip⟩).flip
  rw [Cursor.children_eq_map_pairs hfst]
  refine InTurn.of_passes (fun s => s.state.toNat) (fun d => (due d).length) _ hpass hmatch
    (fun _ _ _ => toNat_of_yields) ?_
  rintro p _ d t t' ⟨hpath, f, hnode⟩ hp
  exact ⟨p.1.2, t, t', hp, rfl, by rw [hnode]; rfl, by rw [hnode]; rfl, hpath⟩

namespace Becomes

/-- The children of a node become children in turn, and a node that is due for a modifier gets it as
    a further child in front, with the number that is reached behind them. -/
theorem step (h : Becomes start c c') :
    ∃ kids, InTurn (fun d => (due d).length) Becomes start c.children kids ∧
      ((qualifies c = false ∧ c'.children = kids ∧
          c'.node.kind.unshared.map Node.id = c.node.kind.unshared.map Node.id) ∨
        (qualifies c = true ∧ ∃ (m : Cursor) (others : List Node) (typeExpr : Option Node)
          (vars : List Node), c'.children = m :: kids ∧
            c'.node.kind = .variableDecls (m.node :: others) typeExpr vars ∧
            m.node.kind = .modifier "final" ∧
            m.node.id.toNat = start + (c.children.flatMap due).length ∧
            (Kind.variableDecls others typeExpr vars).map Node.id = c.node.kind.map Node.id)) := by
  have hpath : c'.path.map Node.id = c.path.map Node.id := by
    rw [Cursor.path, Cursor.path, List.map_cons, List.map_cons, h.id_eq, h.above_eq]
  obtain ⟨n, s, s', hrun, rfl, _, hkind, _⟩ := h
  obtain ⟨z, s₁, hfst, hpass, hedit⟩ := Cursor.yields_edited.mp hrun
  have habove : ∀ d ∈ c'.children, d.ancestors.map Node.id = c.path.map Node.id := by
    intro d hd
    rw [(Cursor.mem_children.mp hd).2, hpath]
  -- No edit changes the id of its node, so the new children have the ids of the old ones.
  have hids : (z.map Prod.snd).map Node.id = c.node.kind.map Node.id := by
    rw [← hfst, Kind.map_map, Kind.map_map]
    refine Kind.map_congr fun p hp => ?_
    obtain ⟨i, hi⟩ := List.getElem?_of_mem hp
    exact hpass.forall_mem (fun _ _ _ _ => id_of_yields) (p, i)
      (List.mem_zipIdx_iff_getElem?.mpr hi)
  rcases yields_edit.mp hedit with ⟨hquiet, rfl, _⟩ | ⟨next, hqualifies, _, rfl, _⟩
  · refine ⟨c'.children, inTurn_children hfst hpass habove ?_, .inl ⟨hquiet, rfl, ?_⟩⟩
    · rw [c'.map_node_children, Node.children, hkind, ← Node.children, Node.children_rebuild,
        Kind.children_map]
      exact forall₂_withFormatting_refl _
    · rw [hkind, Node.unshared_kind_rebuild, ← Kind.unshared_map, ← Kind.unshared_map, hids]
  · have htag : (c.node.rebuild (z.map Prod.snd)).tag = .variableDecls := by
      rw [Node.tag_rebuild_pairs hfst]
      exact tag_of_qualifies hqualifies
    obtain ⟨lead, others, typeExpr, vars, hmarked, hothers, hnodes⟩ :=
      exists_kind_withModifier (finalModifier s₁.state) htag
    -- The counter stands behind the modifiers below when this one gets its id.
    have hcount : s₁.state.toNat = s.state.toNat + (c.children.flatMap due).length := by
      rw [List.length_flatMap, Cursor.children_eq_map_pairs hfst]
      exact InTurn.count_of_passes (fun s => s.state.toNat) (fun d => (due d).length) _ hpass
        fun _ _ _ => toNat_of_yields
    have hkind := hkind.trans hmarked
    rw [Node.children_rebuild, Kind.children_map] at hnodes
    rw [Node.kind_rebuild_of_tag_ne (by rw [← Node.tag_rebuild, htag]; decide), hids] at hothers
    have hfront : c'.children.map (fun d => d.node) =
        (finalModifier s₁.state).withLead lead ::
          (Kind.variableDecls others typeExpr vars).children := by
      rw [c'.map_node_children, Node.children, hkind]
      rfl
    obtain ⟨m, kids, hcons, hm, hkids⟩ := List.map_eq_cons_iff.mp hfront
    refine ⟨kids, inTurn_children hfst hpass ?_ (hkids ▸ hnodes), .inr ⟨hqualifies, m, others,
      typeExpr, vars, hcons, by rw [hkind, hm], by rw [hm]; rfl, by rw [hm]; exact hcount, hothers⟩⟩
    intro d hd
    exact habove d (hcons ▸ List.mem_cons_of_mem _ hd)

end Becomes

/-! ## Which declarations are changed -/

/-- A place of a tree and the same place of the result: a declaration of a final local variable has
    one more child, a modifier `final` in front with an id above the given one. All other nodes, and
    apart from its modifier that declaration, hold what they have held and children of the same
    ids. -/
structure Corresponds (last : NodeId) (c c' : Cursor) : Prop where
  id_eq : c'.node.id = c.node.id
  above_eq : c'.ancestors.map Node.id = c.ancestors.map Node.id
  kept : ¬IsFinalLocal c → c'.node.kind.unshared.map Node.id = c.node.kind.unshared.map Node.id
  marked : IsFinalLocal c → ∃ m others typeExpr vars,
    c'.node.kind = .variableDecls (m :: others) typeExpr vars ∧ m.kind = .modifier "final" ∧
      last < m.id ∧ (Kind.variableDecls others typeExpr vars).map Node.id = c.node.kind.map Node.id

/-- What a session makes of the places of a tree are the places of the result, up to the new
    modifiers. -/
theorem Becomes.forall₂_below (hids : ∀ d ∈ c.below, d.node.id ≤ last) (hstart : last.toNat < start)
    (h : Becomes start c c') :
    List.Forall₂ (Corresponds last) c.below (c'.below.filter fun d => d.node.id ≤ last) := by
  induction c using Cursor.induct generalizing start c' with
  | step c ih =>
    obtain ⟨kids, hkids, hown⟩ := h.step
    have hbelow : List.Forall₂ (Corresponds last) (c.children.flatMap Cursor.below)
        (kids.flatMap fun d => d.below.filter fun e => e.node.id ≤ last) := by
      refine forall₂_flatMap hkids.forall₂ ?_
      rintro d hd d' ⟨k, hk, hbecomes⟩
      refine ih d hd (fun e he => hids e ?_) (by omega) hbecomes
      exact Cursor.mem_below.mpr (.inr ⟨d, hd, he⟩)
    have hold : c'.node.id ≤ last := h.id_eq ▸ hids c c.mem_below_self
    rw [c.below_eq, c'.below_eq, List.filter_cons_of_pos (by simpa using hold), List.filter_flatMap]
    rcases hown with ⟨hquiet, hchildren, hkind⟩ |
      ⟨hqualifies, m, others, typeExpr, vars, hchildren, hkind, hm, hid, hothers⟩
    · rw [hchildren]
      refine .cons ⟨h.id_eq, h.above_eq, fun _ => hkind, fun hlocal => ?_⟩ hbelow
      rw [(qualifies_iff c).mpr hlocal] at hquiet
      cases hquiet
    · -- The new modifier has nothing below it, and its id is above those of the tree.
      have hfresh : last < m.node.id := UInt32.lt_iff_toNat_lt.mpr (by omega)
      have hleaf : m.children = [] := by
        rw [Cursor.children, Node.children, hm]
        rfl
      have hnone : (m.below.filter fun d => d.node.id ≤ last) = [] := by
        rw [m.below_eq, hleaf]
        simpa using hfresh
      rw [hchildren, List.flatMap_cons, hnone, List.nil_append]
      refine .cons ⟨h.id_eq, h.above_eq, fun hlocal => ?_, fun _ => ?_⟩ hbelow
      · exact absurd ((qualifies_iff c).mp hqualifies) hlocal
      · exact ⟨m.node, others, typeExpr, vars, hkind, hm, hfresh, hothers⟩

theorem becomes_of_apply {out : RuleOutput R} (h : apply tree = .ok out) :
    Becomes (tree.maxId.toNat + 1) (.root tree) (.root out.tree) := by
  obtain ⟨first, s, hfirst, hrun, _, _⟩ := apply_eq_ok h
  exact ⟨out.tree, _, s, hrun, NodeId.toNat_of_next? hfirst, rfl, rfl, rfl⟩

/-- `{ int f = () -> { @Nonnull int x; }; int y; y = 1; y = 1; }`, where the last names refer to the
    variable `y`. -/
def nestedLocals : Node :=
  let name (id : NodeId) (lead spelling : String) (declaration : Option NodeId) : Node :=
    ⟨id, .leading lead, .ident spelling .unknown declaration⟩
  let declared (id : NodeId) (modifiers : List Node) (space spelling : String)
      (initializer : Option (Padded Node)) : Node :=
    ⟨id, .leading " ", .variableDecls modifiers (some (name (id + 1) space "int" none))
      [⟨id + 2, .leading " ", .namedVar (name (id + 3) "" spelling none) initializer⟩]⟩
  let written (id : NodeId) : Node :=
    ⟨id, .leading " ", .assign (name (id + 1) "" "y" (some 22))
      ⟨" ", ⟨id + 2, .leading " ", .literal "1" .unknown⟩⟩⟩
  let inner : Node := declared 30 [⟨34, {}, .modifier "@Nonnull"⟩] " " "x" none
  let closure : Node :=
    ⟨14, .leading " ", .lambda [] true ⟨" ", ⟨15, .leading " ", .block [inner] " "⟩⟩⟩
  ⟨0, {}, .block [declared 10 [] "" "f" (some ⟨" ", closure⟩), declared 20 [] "" "y" none,
    written 40, written 50] " "⟩

theorem exists_apply_nestedLocals :
    ∃ out : RuleOutput R, apply nestedLocals = .ok out :=
  exists_apply_iff.mpr (by decide)

/-- The rule marks exactly the declarations that could have been declared `final`: these are local
    variables, and every other node of the tree is kept. -/
theorem apply_marks_exactly {out : RuleOutput R} (h : apply tree = .ok out) :
    List.Forall₂ (Corresponds tree.maxId) tree.cursors
        (out.tree.cursors.filter fun d => d.node.id ≤ tree.maxId) ∧
      ∀ c, IsFinalLocal c → DeclarationKind.ofOwners c.ancestors = .localVariable := by
  refine ⟨?_, fun c => IsFinalLocal.ofOwners_eq⟩
  refine (becomes_of_apply h).forall₂_below (fun d hd => Node.le_maxId ?_) (Nat.lt_succ_self _)
  exact Node.id_mem_ids hd

theorem apply_marks_exactly_nestedLocals :
    (nestedLocals.cursors.filter IsFinalLocal).map (fun c => c.node.id) = [10, 30] ∧
      ∃ out : RuleOutput Rule, apply nestedLocals = .ok out ∧
        List.Forall₂ (Corresponds 52) nestedLocals.cursors
          (out.tree.cursors.filter fun d => d.node.id ≤ 52) := by
  obtain ⟨out, hout⟩ := exists_apply_nestedLocals
  exact ⟨by decide, out, hout, (apply_marks_exactly hout).1⟩

/-! ## How the modifiers are numbered -/

/-- Whether a node begins with a modifier of an id above the given one. -/
def beginsAbove (last : NodeId) (n : Node) : Bool :=
  (n.kind.markers.map Node.id).head?.any fun i => last < i

/-- A declaration with a number, and the same place of the result: a modifier `final` with that
    number as its id is in front. -/
structure Numbered (decl : Cursor × Nat) (c' : Cursor) : Prop where
  id_eq : c'.node.id = decl.1.node.id
  above_eq : c'.ancestors.map Node.id = decl.1.ancestors.map Node.id
  first : ∃ m others typeExpr vars, c'.node.kind = .variableDecls (m :: others) typeExpr vars ∧
    m.kind = .modifier "final" ∧ m.id.toNat = decl.2

/-- The numbers of the nodes at and below a cursor with ids above the given one. -/
def numbersAbove (last : NodeId) (c : Cursor) : List Nat :=
  ((c.below.map fun d => d.node.id).filter fun i => last < i).map UInt32.toNat

theorem numbersAbove_eq (last : NodeId) (c : Cursor) :
    numbersAbove last c =
      (if last < c.node.id then [c.node.id.toNat] else []) ++
        c.children.flatMap (numbersAbove last) := by
  unfold numbersAbove
  rw [c.below_eq, List.map_cons, List.filter_cons, List.map_flatMap, List.filter_flatMap]
  split <;> simp_all [List.map_flatMap]

theorem Becomes.beginsAbove_eq (hids : ∀ d ∈ c.below, d.node.id ≤ last)
    (hstart : last.toNat < start) (h : Becomes start c c') :
    beginsAbove last c'.node = qualifies c := by
  obtain ⟨kids, _, hown⟩ := h.step
  rcases hown with ⟨hquiet, _, hkind⟩ | ⟨hqualifies, m, others, typeExpr, vars, _, hkind, _, hid, _⟩
  · have hmarkers : c'.node.kind.markers.map Node.id = c.node.kind.markers.map Node.id := by
      have := congrArg Kind.markers hkind
      rwa [Kind.markers_map, Kind.markers_map, Kind.markers_unshared, Kind.markers_unshared] at this
    rw [beginsAbove, hmarkers, hquiet]
    cases hold : c.node.kind.markers with
    | nil => rfl
    | cons m others =>
      have hmem : m ∈ c.node.children := Kind.mem_children_of_mem_markers (by simp [hold])
      obtain ⟨d, hd, rfl⟩ := Cursor.exists_mem_children hmem
      simpa using hids d (Cursor.mem_below_of_mem_children hd)
  · have hfresh : last < m.node.id := UInt32.lt_iff_toNat_lt.mpr (by omega)
    simp [beginsAbove, hkind, Kind.markers, hfresh, hqualifies]

/-- The declarations that are due are those that begin with a new modifier, in the order of their
    numbers. -/
theorem Becomes.forall₂_due (hids : ∀ d ∈ c.below, d.node.id ≤ last) (hstart : last.toNat < start)
    (h : Becomes start c c') :
    List.Forall₂ Numbered ((due c).zipIdx start)
      (c'.postorder.filter fun d => beginsAbove last d.node) := by
  induction c using Cursor.induct generalizing start c' with
  | step c ih =>
    have hbegins := h.beginsAbove_eq hids hstart
    obtain ⟨kids, hkids, hown⟩ := h.step
    have hbelow : List.Forall₂ Numbered ((c.children.flatMap due).zipIdx start)
        (kids.flatMap fun d => d.postorder.filter fun e => beginsAbove last e.node) := by
      refine hkids.forall₂_zipIdx fun d hd d' k hk hbecomes => ?_
      refine ih d hd (fun e he => hids e ?_) (by omega) hbecomes
      exact Cursor.mem_below.mpr (.inr ⟨d, hd, he⟩)
    rw [due_eq, c'.postorder_eq, List.zipIdx_append, List.filter_append, List.filter_flatMap]
    rcases hown with ⟨hquiet, hchildren, _⟩ |
      ⟨hqualifies, m, others, typeExpr, vars, hchildren, hkind, hm, hid, _⟩
    · rw [hchildren]
      simpa [hbegins, hquiet] using hbelow
    · have hnone : (m.postorder.filter fun d => beginsAbove last d.node) = [] := by
        rw [m.postorder_eq, Cursor.children, Node.children, hm]
        simp [Kind.children, beginsAbove, hm, Kind.markers]
      rw [hchildren, List.flatMap_cons, hnone, List.nil_append]
      refine List.rel_append hbelow ?_
      rw [hqualifies] at hbegins
      simp only [hqualifies, if_true, List.zipIdx_singleton, List.filter_cons, hbegins,
        List.filter_nil]
      exact .cons ⟨h.id_eq, h.above_eq, m.node, others, typeExpr, vars, hkind, hm, hid⟩ .nil

/-- The new ids are the numbers in a row. -/
theorem Becomes.numbersAbove_perm (hids : ∀ d ∈ c.below, d.node.id ≤ last)
    (hstart : last.toNat < start) (h : Becomes start c c') :
    (numbersAbove last c').Perm (List.range' start (due c).length) := by
  induction c using Cursor.induct generalizing start c' with
  | step c ih =>
    obtain ⟨kids, hkids, hown⟩ := h.step
    have hbelow : (kids.flatMap (numbersAbove last)).Perm
        (List.range' start (c.children.flatMap due).length) := by
      rw [List.length_flatMap]
      refine hkids.flatMap_perm fun d hd d' k hk hbecomes => ?_
      refine ih d hd (fun e he => hids e ?_) (by omega) hbecomes
      exact Cursor.mem_below.mpr (.inr ⟨d, hd, he⟩)
    have hold : ¬last < c'.node.id := UInt32.not_lt.mpr (h.id_eq ▸ hids c c.mem_below_self)
    rw [numbersAbove_eq, if_neg hold, List.nil_append, due_eq]
    rcases hown with ⟨hquiet, hchildren, _⟩ |
      ⟨hqualifies, m, others, typeExpr, vars, hchildren, _, hm, hid, _⟩
    · rw [hchildren]
      simpa [hquiet] using hbelow
    · have hfresh : last < m.node.id := UInt32.lt_iff_toNat_lt.mpr (by omega)
      have hleaf : numbersAbove last m = [m.node.id.toNat] := by
        rw [numbersAbove_eq, if_pos hfresh, Cursor.children, Node.children, hm]
        rfl
      rw [hchildren, List.flatMap_cons, hleaf, hqualifies, if_pos rfl, List.length_append, hid,
        List.length_singleton, List.range'_append_1.symm]
      exact (List.perm_append_comm).trans (hbelow.append (.refl _))

theorem eq_idOverflow_of_apply {e : RuleError}
    (h : (apply tree : Except RuleError (RuleOutput R)) = .error e) : e = .idOverflow := by
  unfold apply RuleOutput.ofSession at h
  split at h
  · exact (Except.error.inj h).symm
  · split at h
    · cases h
    · exact (Except.error.inj h).symm

theorem transforms_of_apply {out : RuleOutput R} (h : apply tree = .ok out) :
    out.transforms = (due (.root tree)).map fun c => ⟨ruleName, c.node.id⟩ := by
  obtain ⟨first, s, _, hrun, htransforms, _⟩ := apply_eq_ok h
  have hedit (d : Cursor) (rebuilt n' : Node) (s s' : Session NodeId)
      (h : Yields (edit d rebuilt) s n' s') :
      s'.log = if qualifies d then s.log.record d.node.id else s.log := by
    rcases yields_edit.mp h with ⟨hquiet, _, rfl⟩ | ⟨_, hqualifies, _, _, rfl⟩
    · rw [if_neg (by simp [hquiet])]
    · rw [if_pos hqualifies]
  have hlog := Cursor.log_of_edited hedit hrun
  rw [htransforms, hlog, TransformLog.entries_foldl_record]
  rfl

/-- The rule runs out of ids exactly if the largest id of the tree, one more and one for each
    declaration to be marked are too many. Else the new modifiers get the ids above the largest
    one, each of them once, in the order in which their declarations are left. -/
theorem apply_numbers_modifiers (tree : Node) :
    (∀ i ∈ tree.ids, i ≤ tree.maxId) ∧ tree.maxId ∈ tree.ids ∧
      ((apply tree : Except RuleError (RuleOutput R)) = .error .idOverflow ↔
        4294967295 < tree.maxId.toNat + (due (.root tree)).length + 1) ∧
      (tree.maxId.toNat + (due (.root tree)).length + 1 ≤ 4294967295 →
        ∃ out : RuleOutput R, apply tree = .ok out ∧
          out.transforms = (due (.root tree)).map (fun c => ⟨ruleName, c.node.id⟩) ∧
          List.Forall₂ Numbered ((due (.root tree)).zipIdx (tree.maxId.toNat + 1))
            ((Cursor.root out.tree).postorder.filter fun d => beginsAbove tree.maxId d.node) ∧
          (numbersAbove tree.maxId (.root out.tree)).Perm
            (List.range' (tree.maxId.toNat + 1) (due (.root tree)).length)) := by
  have hlast : NodeId.last.toNat = 4294967295 := rfl
  have hroom : (∃ out : RuleOutput R, apply tree = .ok out) ↔
      tree.maxId.toNat + (due (.root tree)).length + 1 ≤ 4294967295 := by
    rw [exists_apply_iff, HasRoom, length_chosen, hlast]
    omega
  have hids : ∀ d ∈ (Cursor.root tree).below, d.node.id ≤ tree.maxId :=
    fun d hd => Node.le_maxId (Node.id_mem_ids hd)
  refine ⟨fun i => Node.le_maxId, tree.maxId_mem_ids, ?_, ?_⟩
  · rw [← Nat.not_le, ← hroom]
    cases hrun : (apply tree : Except RuleError (RuleOutput R)) with
    | error e => simp [eq_idOverflow_of_apply hrun]
    | ok out => simp
  · intro hle
    obtain ⟨out, hout⟩ := hroom.mpr hle
    have hbecomes := becomes_of_apply hout
    exact ⟨out, hout, transforms_of_apply hout, hbecomes.forall₂_due hids (Nat.lt_succ_self _),
      hbecomes.numbersAbove_perm hids (Nat.lt_succ_self _)⟩

theorem apply_numbers_modifiers_nestedLocals :
    nestedLocals.maxId.toNat + (due (.root nestedLocals)).length + 1 ≤ 4294967295 ∧
      ∃ out : RuleOutput Rule, apply nestedLocals = .ok out ∧
        out.transforms = [⟨ruleName, 30⟩, ⟨ruleName, 10⟩] ∧
        (numbersAbove nestedLocals.maxId (.root out.tree)).Perm [53, 54] := by
  have hle : nestedLocals.maxId.toNat + (due (.root nestedLocals)).length + 1 ≤ 4294967295 := by
    decide
  obtain ⟨out, hout, htransforms, _, hperm⟩ := (apply_numbers_modifiers nestedLocals).2.2.2 hle
  have hdue : (due (.root nestedLocals)).map (fun c => (⟨ruleName, c.node.id⟩ : Transform)) =
      [⟨ruleName, 30⟩, ⟨ruleName, 10⟩] := by
    decide
  exact ⟨hle, out, hout, htransforms.trans hdue, hperm⟩

/-- With the largest of all ids in it, a tree in which nothing is due has no id left either. -/
example : ((apply ⟨4294967295, {}, .empty⟩ : Except RuleError (RuleOutput Rule)).isOk) = false := by
  decide

end AddFinal

end Restyle
