-- SUMMARY: After effectively final variables were marked, no declaration is left to be marked.
import Restyle.Proofs.Rule.Ids

/-!
# Marked declarations

A tree is settled for `final` if no declaration in it qualifies and there is an id left. Whether a
declaration qualifies depends on its modifiers, and apart from them only on what no rule changes
(`AddFinal.isCandidate_eq_of_matches`): where it stands, and how often its variables are written. So
a declaration that got its modifier does not qualify again, and nor does any other
(`AddFinal.settled_of_apply`).
-/

namespace Restyle

/-! ## Writes in trees that look alike -/

namespace Node

variable {σ : Sketch} {n n' : Node}

theorem refersTo_sketch (target : NodeId) (n : Node) :
    (n.sketch σ).refersTo target = n.refersTo target := by
  unfold refersTo
  rw [kind_sketch]
  cases n.kind with
  | variableDecls modifiers typeExpr vars =>
    cases hσ : σ.modifiers <;> simp [Kind.map, Sketch.kind, hσ]
  | _ => rfl

theorem writesTo_sketch (target : NodeId) (n : Node) :
    (n.sketch σ).writesTo target = n.writesTo target := by
  unfold writesTo
  rw [kind_sketch]
  cases n.kind with
  | variableDecls modifiers typeExpr vars =>
    cases hσ : σ.modifiers <;> simp [Kind.map, Sketch.kind, hσ]
  | assign written value => exact refersTo_sketch target written
  | unary operator operand isPostfix =>
    simp only [Kind.map, Sketch.kind, refersTo_sketch]
  | _ => rfl

theorem isInitialized_sketch (n : Node) : (n.sketch σ).isInitialized = n.isInitialized := by
  unfold isInitialized
  rw [kind_sketch]
  cases n.kind with
  | variableDecls modifiers typeExpr vars =>
    cases hσ : σ.modifiers <;> simp [Kind.map, Sketch.kind, hσ]
  | namedVar name initializer => simp [Kind.map, Sketch.kind]
  | _ => rfl

/-- The writes to a variable with their weights. -/
theorem countWrites_eq (target : NodeId) (scope : Node) :
    scope.countWrites target =
      (scope.cursors.filterMap fun c =>
        if c.node.writesTo target then
          some (if c.ancestors.any fun n => n.tag == .forLoop then 2 else 1)
        else none).foldr (· + ·) 0 := by
  rw [countWrites, ← List.filterMap_eq_map', List.filterMap_filter]

/-- Nodes that look alike hold the same writes. -/
theorem Alike.countWrites_eq (h : n.Alike σ n') (target : NodeId) :
    n.countWrites target = n'.countWrites target := by
  rw [Node.countWrites_eq, Node.countWrites_eq]
  congr 1
  rw [← List.map_id' (n.cursors.filterMap _), eq_comm]
  refine filterMap_of_forall₂ (fun c hplace => ?_) h.forall₂_places fun c _ c' hc => ?_
  · have hwrites : c.node.writesTo target = false := by
      cases hkind : c.node.kind <;> simp_all [isPlace, tag, Kind.tag, writesTo]
    simp [hwrites]
  · obtain ⟨hnode, hanc⟩ := Cursor.matches_iff.mp hc
    have hwrites : c.node.writesTo target = c'.node.writesTo target :=
      hnode.apply_eq fun m => writesTo_sketch target m
    have hloops : (c.ancestors.any fun n => n.tag == .forLoop) =
        c'.ancestors.any fun n => n.tag == .forLoop := by
      generalize c.ancestors = above at hanc
      generalize c'.ancestors = above' at hanc
      induction hanc with
      | nil => rfl
      | cons hn _ ih => simp [hn.tag_eq, ih]
    rw [hwrites, hloops, Option.map_id']

theorem isEffectivelyFinal_sketch (scope var : Node) :
    scope.isEffectivelyFinal (var.sketch σ) = scope.isEffectivelyFinal var := by
  simp [isEffectivelyFinal, isInitialized_sketch]

theorem Alike.all_isEffectivelyFinal_eq (h : n.Alike σ n') {vars vars' : List Node}
    (hvars : vars.map (sketch σ) = vars'.map (sketch σ)) :
    vars.all n.isEffectivelyFinal = vars'.all n'.isEffectivelyFinal := by
  have hall (scope : Node) (l : List Node) :
      l.all scope.isEffectivelyFinal = (l.map (sketch σ)).all scope.isEffectivelyFinal := by
    simp [List.all_map, Function.comp_def, isEffectivelyFinal_sketch]
  have hscope : n.isEffectivelyFinal = n'.isEffectivelyFinal := by
    funext var
    rw [isEffectivelyFinal, isEffectivelyFinal, h.countWrites_eq]
  rw [hall n vars, hall n' vars', hvars, hscope]

end Node

/-! ## Declarations in trees that look alike -/

namespace AddFinal

variable {R : Type} {σ : Sketch} {tree tree' : Node} {out : RuleOutput R} {c c' : Cursor}

/-- Whether a declaration is to be marked, as far as this does not depend on its modifiers. -/
def isCandidate (c : Cursor) : Bool :=
  match c.node.kind with
  | .variableDecls _ typeExpr vars =>
    isLocal c && typeExpr.isSome && !vars.isEmpty &&
      c.scope?.any fun scope => vars.all scope.isEffectivelyFinal
  | _ => false

/-- Whether a declaration is marked. -/
def isMarked (n : Node) : Bool :=
  match n.kind with
  | .variableDecls modifiers _ _ => modifiers.any (Node.isModifier "final")
  | _ => false

theorem qualifies_eq (c : Cursor) : qualifies c = (isCandidate c && !isMarked c.node) := by
  unfold qualifies isCandidate isMarked
  cases c.node.kind with
  | variableDecls modifiers typeExpr vars => exact Bool.and_right_comm _ _ _
  | _ => rfl

theorem tag_of_isCandidate (h : isCandidate c = true) : c.node.tag = .variableDecls := by
  unfold isCandidate at h
  split at h
  · rename_i hkind
    rw [Node.tag, hkind]
    rfl
  · cases h

theorem isLocal_eq_of_matches (h : c.Matches (Node.Alike σ) c') : isLocal c = isLocal c' := by
  have hanc := (Cursor.matches_iff.mp h).2
  unfold isLocal
  generalize c.ancestors = above at hanc
  generalize c'.ancestors = above' at hanc
  cases hanc with
  | nil => rfl
  | cons howner houter =>
    dsimp only
    rw [howner.tag_eq]
    cases houter with
    | nil => rfl
    | cons hclass _ => simp only [List.head?_cons, Option.any_some, hclass.tag_eq]

theorem any_scope?_eq_of_matches {f f' : Node → Bool} (h : c.Matches (Node.Alike σ) c')
    (hf : ∀ n n', n.Alike σ n' → f n = f' n') : c.scope?.any f = c'.scope?.any f' := by
  have hanc := (Cursor.matches_iff.mp h).2
  rw [Cursor.scope?, Cursor.scope?, Cursor.enclosing?, Cursor.enclosing?]
  generalize c.ancestors = above at hanc
  generalize c'.ancestors = above' at hanc
  induction hanc with
  | nil => rfl
  | @cons n n' _ _ hn _ ih =>
    have hopens : n'.opensScope = n.opensScope := by
      rw [Node.opensScope, Node.opensScope, hn.tag_eq]
    by_cases hscope : n.opensScope
    · simp [hopens, hscope, hf n n' hn]
    · simp [hopens, hscope, ih]

/-- Declarations at corresponding places are candidates alike. -/
theorem isCandidate_eq_of_matches (h : c.Matches (Node.Alike σ) c') :
    isCandidate c = isCandidate c' := by
  have hnode := (Cursor.matches_iff.mp h).1
  have htag := hnode.tag_eq
  cases hkind : c.node.kind with
  | variableDecls modifiers typeExpr vars =>
    obtain ⟨modifiers', typeExpr', vars', hkind', htype, hvars, _⟩ := hnode.variableDecls hkind
    have hsome : typeExpr.isSome = typeExpr'.isSome := by
      simpa using congrArg Option.isSome htype
    have hempty : vars.isEmpty = vars'.isEmpty := by
      simpa using congrArg List.isEmpty hvars
    have hscope : (c.scope?.any fun scope => vars.all scope.isEffectivelyFinal) =
        c'.scope?.any fun scope => vars'.all scope.isEffectivelyFinal :=
      any_scope?_eq_of_matches h fun n n' hn => hn.all_isEffectivelyFinal_eq hvars
    simp only [isCandidate, hkind, hkind', isLocal_eq_of_matches h, hsome, hempty, hscope]
  | _ =>
    cases hkind' : c'.node.kind <;> simp_all [Node.tag, Kind.tag, isCandidate]

theorem isMarked_eq_of_alike (hσ : σ.modifiers = true) {n n' : Node} (h : n.Alike σ n') :
    isMarked n = isMarked n' := by
  have htag := h.tag_eq
  cases hkind : n.kind with
  | variableDecls modifiers typeExpr vars =>
    obtain ⟨modifiers', _, _, hkind', _, _, hmodifiers⟩ := h.variableDecls hkind
    simp only [isMarked, hkind, hkind', Node.any_isModifier_eq (hmodifiers hσ)]
  | _ =>
    cases hkind' : n'.kind <;> simp_all [Node.tag, Kind.tag, isMarked]

/-! ## Settled trees -/

/-- A tree without declarations to be marked, and with an id left for a modifier. -/
structure Settled (tree : Node) : Prop where
  room : ∃ next, NodeId.next? tree.maxId = some next
  quiet : ∀ c ∈ tree.cursors, qualifies c = false

theorem apply_of_settled (h : Settled tree) :
    (apply tree : Except RuleError (RuleOutput R)) = .ok (.unchanged tree) := by
  obtain ⟨first, hfirst⟩ := h.room
  let start : Session NodeId := ⟨first, { rule := ruleName }⟩
  have hself : Yields ((Cursor.root tree).edited edit) start tree start := by
    refine Cursor.yields_edited_self fun d hd => ?_
    exact yields_edit.mpr (.inl ⟨h.quiet d hd, rfl, rfl⟩)
  rw [apply, hfirst]
  exact RuleOutput.ofSession_of_yields hself

theorem settled_of_sketch_eq (h : tree.sketch .bones = tree'.sketch .bones)
    (hsettled : Settled tree) : Settled tree' := by
  constructor
  · rw [← Node.maxId_eq_of_ids_eq (Node.ids_eq_of_sketch_eq rfl h)]
    exact hsettled.room
  · intro c' hc'
    by_contra hqualifies
    rw [Bool.not_eq_false, qualifies_eq, Bool.and_eq_true] at hqualifies
    have hplace : c'.node.isPlace = true := by
      simp [Node.isPlace, tag_of_isCandidate hqualifies.1]
    obtain ⟨c, hc, hmatch⟩ := exists_left_of_forall₂ (Node.alike_of_sketch_eq h).forall₂_places
      (Node.mem_places.mpr ⟨hc', hplace⟩)
    have hnode := (Cursor.matches_iff.mp hmatch).1
    have hquiet := hsettled.quiet c (Node.mem_places.mp hc).1
    rw [qualifies_eq, isCandidate_eq_of_matches hmatch, isMarked_eq_of_alike rfl hnode] at hquiet
    simp_all

/-! ## The result of the rule -/

/-- What a session leaves at a cursor: a declaration that was marked or had to be is marked. -/
structure Leaves (c : Cursor) (n' : Node) : Prop where
  isModifier : ∀ keyword, c.node.isModifier keyword = true → n'.isModifier keyword = true
  marked : ∀ d ∈ c.below, isMarked d.node = true ∨ qualifies d = true →
    ∃ m ∈ n'.nodes, m.id = d.node.id ∧ isMarked m = true

theorem isMarked_withModifier {modifier decl : Node} (hmodifier : modifier.isModifier "final" = true)
    (hdecl : decl.tag = .variableDecls) : isMarked (withModifier modifier decl) = true := by
  have hlead (text : String) : (modifier.withLead text).isModifier "final" = true := hmodifier
  cases hkind : decl.kind with
  | variableDecls modifiers typeExpr vars =>
    cases modifiers with
    | cons first others => simp [withModifier, hkind, isMarked, Node.withKind, hlead]
    | nil => cases typeExpr <;> simp [withModifier, hkind, isMarked, Node.withKind, hlead]
  | _ => simp [Node.tag, hkind, Kind.tag] at hdecl

theorem id_withModifier (modifier decl : Node) : (withModifier modifier decl).id = decl.id := by
  unfold withModifier
  split <;> rfl

theorem withLead_self (n : Node) : n.withLead n.formatting.lead = n := by
  cases n
  rfl

/-- Behind a new first node stand all that were there, and only the text before one of them changes. -/
theorem exists_withLead_mem_cons {child first : Node} {others : List Node} (modifier : Node)
    (h : child ∈ first :: others) :
    ∃ text, child.withLead text ∈ modifier :: first.withLead " " :: others := by
  rcases List.mem_cons.mp h with rfl | hothers
  · exact ⟨" ", List.mem_cons_of_mem _ List.mem_cons_self⟩
  · refine ⟨child.formatting.lead, ?_⟩
    rw [withLead_self]
    exact List.mem_cons_of_mem _ (List.mem_cons_of_mem _ hothers)

/-- The modifier changes nothing but the text before a child. -/
theorem exists_withLead_mem_children {decl child : Node} (modifier : Node)
    (h : child ∈ decl.children) :
    ∃ text, child.withLead text ∈ (withModifier modifier decl).children := by
  unfold withModifier
  split
  · rename_i first others typeExpr vars hkind
    rw [Node.children, hkind] at h
    exact exists_withLead_mem_cons _ h
  · rename_i typeExpr vars hkind
    rw [Node.children, hkind] at h
    exact exists_withLead_mem_cons _ h
  · rename_i vars hkind
    rw [Node.children, hkind] at h
    refine ⟨child.formatting.lead, ?_⟩
    rw [withLead_self]
    exact List.mem_cons_of_mem _ h
  · exact ⟨_, by rwa [withLead_self]⟩

theorem exists_mem_nodes_withModifier {modifier decl child m : Node} (h : child ∈ decl.children)
    (hm : m ∈ child.nodes) :
    ∃ m' ∈ (withModifier modifier decl).nodes, m'.id = m.id ∧ isMarked m' = isMarked m := by
  obtain ⟨text, hchild⟩ := exists_withLead_mem_children modifier h
  rw [Node.nodes_eq] at hm
  rcases List.mem_cons.mp hm with rfl | hm
  · exact ⟨_, Node.mem_nodes_of_mem_children hchild (Node.self_mem_nodes _), rfl, rfl⟩
  · refine ⟨m, Node.mem_nodes_of_mem_children hchild ?_, rfl, rfl⟩
    rw [Node.nodes_eq]
    exact List.mem_cons_of_mem _ hm

/-- A marked declaration stays marked when its children are edited. -/
theorem isMarked_rebuild {n : Node} {z : Kind (Node × Node)} (hfst : z.map Prod.fst = n.kind)
    (hz : ∀ p ∈ z.children, ∀ keyword,
      p.1.isModifier keyword = true → p.2.isModifier keyword = true)
    (h : isMarked n = true) : isMarked (n.rebuild (z.map Prod.snd)) = true := by
  cases z with
  | variableDecls modifiers typeExpr vars =>
    have hnew : (n.rebuild ((Kind.variableDecls modifiers typeExpr vars).map Prod.snd)).kind =
        (Kind.variableDecls modifiers typeExpr vars).map Prod.snd :=
      Node.kind_rebuild_of_tag_ne (by simp [Kind.map, Kind.tag])
    simp only [isMarked, ← hfst, Kind.map, List.any_map, List.any_eq_true] at h
    obtain ⟨p, hp, hmodifier⟩ := h
    rw [isMarked, hnew]
    simp only [Kind.map, List.any_map, List.any_eq_true]
    exact ⟨p, hp, hz p (by simp [Kind.children, hp]) _ hmodifier⟩
  | _ => simp [isMarked, ← hfst, Kind.map] at h

theorem leaves_of_yields {n' : Node} {s s' : Session NodeId}
    (h : Yields (c.edited edit) s n' s') : Leaves c n' := by
  refine Cursor.edit_induct_pairs (P := Leaves) ?_ h
  intro c z n' s₁ s' hfst hpairs hyields
  have hpair (p : Node × Node) (hp : p ∈ z.children) (keyword : String)
      (hmodifier : p.1.isModifier keyword = true) : p.2.isModifier keyword = true := by
    obtain ⟨i, hi⟩ := List.getElem?_of_mem hp
    exact (hpairs (p, i) (List.mem_zipIdx_iff_getElem?.mpr hi)).isModifier keyword hmodifier
  -- Every node below the children is marked by the sessions at the children.
  have hbelow (d : Cursor) (e : Cursor) (he : e ∈ c.children) (hd : d ∈ e.below)
      (hmarked : isMarked d.node = true ∨ qualifies d = true) :
      ∃ child ∈ (c.node.rebuild (z.map Prod.snd)).children,
        ∃ m ∈ child.nodes, m.id = d.node.id ∧ isMarked m = true := by
    obtain ⟨hget, hanc⟩ := Cursor.mem_children.mp he
    rw [Node.children, ← hfst, Kind.children_map, List.getElem?_map,
      Option.map_eq_some_iff] at hget
    obtain ⟨p, hp, hnode⟩ := hget
    have hcursor : (⟨p.1, c.path, e.index⟩ : Cursor) = e := by rw [hnode, ← hanc]
    have hleaves := hpairs (p, e.index) (List.mem_zipIdx_iff_getElem?.mpr hp)
    rw [hcursor] at hleaves
    refine ⟨p.2, ?_, hleaves.marked d hd hmarked⟩
    rw [Node.children_rebuild, Kind.children_map]
    exact List.mem_map_of_mem (List.mem_of_getElem? hp)
  rcases yields_edit.mp hyields with ⟨hquiet, rfl, _⟩ | ⟨next, hqualifies, _, rfl, _⟩
  · refine ⟨fun keyword hmodifier => ?_, fun d hd hmarked => ?_⟩
    · have hchildren : c.node.children = [] := by
        rw [Node.children, Node.isModifier_iff.mp hmodifier]
        rfl
      rwa [Node.rebuild_pairs_of_children_eq_nil hfst hchildren]
    · rcases Cursor.mem_below.mp hd with rfl | ⟨e, he, hde⟩
      · refine ⟨_, Node.self_mem_nodes _, by simp, isMarked_rebuild hfst hpair ?_⟩
        simpa [hquiet] using hmarked
      · obtain ⟨child, hchild, m, hm, hrest⟩ := hbelow d e he hde hmarked
        exact ⟨m, Node.mem_nodes_of_mem_children hchild hm, hrest⟩
  · have htag : c.node.tag = .variableDecls := by
      rw [qualifies_eq, Bool.and_eq_true] at hqualifies
      exact tag_of_isCandidate hqualifies.1
    refine ⟨fun keyword hmodifier => ?_, fun d hd hmarked => ?_⟩
    · rw [Node.tag, Node.isModifier_iff.mp hmodifier] at htag
      cases htag
    · rcases Cursor.mem_below.mp hd with rfl | ⟨e, he, hde⟩
      · refine ⟨_, Node.self_mem_nodes _, by simp [id_withModifier], ?_⟩
        exact isMarked_withModifier rfl (by rw [Node.tag_rebuild_pairs hfst, htag])
      · obtain ⟨child, hchild, m, hm, hid, hm'⟩ := hbelow d e he hde hmarked
        obtain ⟨m', hmem, hid', hsame⟩ := exists_mem_nodes_withModifier hchild hm
        exact ⟨m', hmem, hid'.trans hid, hsame.trans hm'⟩

/-- The result of the rule has no declarations to be marked. -/
theorem settled_of_apply (h : apply tree = .ok out) (hids : tree.DistinctIds) :
    Settled out.tree := by
  refine ⟨exists_next_of_apply h, fun c' hc' => ?_⟩
  by_contra hqualifies
  rw [Bool.not_eq_false, qualifies_eq, Bool.and_eq_true] at hqualifies
  obtain ⟨hcandidate, hunmarked⟩ := hqualifies
  have hplace : c'.node.isPlace = true := by simp [Node.isPlace, tag_of_isCandidate hcandidate]
  have halike : tree.Alike .skeleton out.tree := Node.alike_of_sketch_eq (apply_keeps rfl h).symm
  obtain ⟨c, hc, hmatch⟩ := exists_left_of_forall₂ halike.forall₂_places
    (Node.mem_places.mpr ⟨hc', hplace⟩)
  rw [← isCandidate_eq_of_matches hmatch] at hcandidate
  have hmarked : isMarked c.node = true ∨ qualifies c = true := by
    cases hc : isMarked c.node <;> simp [qualifies_eq, hcandidate, hc]
  obtain ⟨_, s, _, hrun, _, _⟩ := apply_eq_ok h
  obtain ⟨m, hm, hid, hm'⟩ := (leaves_of_yields hrun).marked c (Node.mem_places.mp hc).1 hmarked
  obtain ⟨d, hd, rfl⟩ := List.mem_map.mp hm
  have hid' := (Cursor.matches_iff.mp hmatch).1.id_eq
  obtain rfl := (distinctIds_of_apply h hids).eq_of_id_eq hd hc' (hid.trans hid')
  simp [hm'] at hunmarked

end AddFinal

end Restyle
