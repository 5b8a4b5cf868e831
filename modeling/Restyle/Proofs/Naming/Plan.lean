-- SUMMARY: The names that the rule for hidden fields hands out, and that they depend on names only.
import Restyle.Proofs.Naming.HiddenField
import Restyle.Proofs.Naming.Resolution
import Restyle.Proofs.Naming.Respelled

/-!
# Plans

The rule for hidden fields decides which variables get which names (`HiddenField.namings?`), and the
tree is then renamed one variable after another (`Node.renamedAll`). The decision depends on the
names in the tree and on nothing that other rules change: trees that look alike with their names
spelled out ask for the same renamings (`HiddenField.scheduled_eq_of_alike`), and the same names are
free in them (`Renaming.freshName_eq_of_alike`).
-/

namespace Restyle

/-! ## Lists of results -/

namespace Except

variable {ε α β γ : Type}

/-- Actions that give the same results at corresponding elements. -/
theorem mapM_eq_of_forall₂ {P : α → β → Prop} {f : α → Except ε γ} {g : β → Except ε γ}
    {l : List α} {l' : List β} (h : List.Forall₂ P l l') (hfg : ∀ a b, P a b → f a = g b) :
    l.mapM f = l'.mapM g := by
  induction h with
  | nil => rfl
  | cons hab _ ih => rw [List.mapM_cons, List.mapM_cons, hfg _ _ hab, ih]

/-- Elements without results can be left out. -/
theorem flatten_mapM_filter {f : α → Except ε (List γ)} {p : α → Bool} {l : List α}
    (h : ∀ a, p a = false → f a = .ok []) :
    ((l.filter p).mapM f).map List.flatten = (l.mapM f).map List.flatten := by
  induction l with
  | nil => rfl
  | cons a l ih =>
    by_cases ha : p a
    · rw [List.filter_cons_of_pos ha, List.mapM_cons, List.mapM_cons]
      cases f a with
      | error e => rfl
      | ok found =>
        cases hfilter : (l.filter p).mapM f <;> cases hall : l.mapM f <;>
          simp_all [Except.map, bind, Except.bind, pure, Except.pure]
    · rw [List.filter_cons_of_neg ha, List.mapM_cons, h a (by simpa using ha), ih]
      cases l.mapM f <;> rfl

theorem filterAuxM_eq_of_forall₂ {P : α → β → Prop} {p : α → Except ε Bool} {q : β → Except ε Bool}
    {f : α → γ} {g : β → γ} {l acc : List α} {l' acc' : List β} (h : List.Forall₂ P l l')
    (hpq : ∀ a b, P a b → p a = q b ∧ f a = g b) (hacc : acc.map f = acc'.map g) :
    (l.filterAuxM p acc).map (List.map f) = (l'.filterAuxM q acc').map (List.map g) := by
  induction h generalizing acc acc' with
  | nil => exact congrArg Except.ok hacc
  | @cons a b l l' hab _ ih =>
    obtain ⟨htest, hvalue⟩ := hpq a b hab
    rw [List.filterAuxM, List.filterAuxM, htest]
    cases q b with
    | error e => rfl
    | ok hit =>
      cases hit with
      | false => exact ih hacc
      | true =>
        have hkept : (a :: acc).map f = (b :: acc').map g := by
          rw [List.map_cons, List.map_cons, hvalue, hacc]
        exact ih hkept

/-- Tests that agree at corresponding elements filter alike. -/
theorem filterM_eq_of_forall₂ {P : α → β → Prop} {p : α → Except ε Bool} {q : β → Except ε Bool}
    {f : α → γ} {g : β → γ} {l : List α} {l' : List β} (h : List.Forall₂ P l l')
    (hpq : ∀ a b, P a b → p a = q b ∧ f a = g b) :
    (l.filterM p).map (List.map f) = (l'.filterM q).map (List.map g) := by
  have haux : (l.filterAuxM p []).map (List.map f) = (l'.filterAuxM q []).map (List.map g) :=
    filterAuxM_eq_of_forall₂ h hpq rfl
  rw [List.filterM, List.filterM]
  cases hl : l.filterAuxM p [] <;> cases hl' : l'.filterAuxM q [] <;>
    simp_all [Except.map, bind, Except.bind, pure, Except.pure]

end Except

/-! ## Searches in trees that look alike -/

theorem Node.exists_classDecl {n : Node} (h : n.tag = .classDecl) :
    ∃ modifiers keyword name typeParams superclass body ty,
      n.kind = .classDecl modifiers keyword name typeParams superclass body ty := by
  cases hkind : n.kind with
  | classDecl modifiers keyword name typeParams superclass body ty =>
    exact ⟨modifiers, keyword, name, typeParams, superclass, body, ty, rfl⟩
  | _ => simp [tag, hkind, Kind.tag] at h

section Alike

variable {σ : Sketch} {tree tree' : Node} {c c' v v' : Cursor}

theorem DeclarationKind.ofCursor_eq_of_matches (h : v.Matches (Node.Alike σ) v') :
    ofCursor v = ofCursor v' := by
  obtain ⟨hnode, hanc⟩ := Cursor.matches_iff.mp h
  unfold ofCursor
  rw [hnode.id_eq]
  generalize v.ancestors = above at hanc
  generalize v'.ancestors = above' at hanc
  cases hanc with
  | nil => rfl
  | cons hdecl howners => simp only [hdecl.tag_eq, ofOwners_eq howners]

namespace ShadowSearch

theorem hides_eq_of_matches (hσ : σ.spelling = true) (s : ShadowSearch)
    (h : v.Matches (Node.Alike σ) v') : s.hides v = s.hides v' := by
  have howner : ((v.ancestors[1]?).filter fun n => n.tag == .methodDecl).any
        (s.options.exempts s.classType s.name) =
      ((v'.ancestors[1]?).filter fun n => n.tag == .methodDecl).any
        (s.options.exempts s.classType s.name) := by
    have hanc := (Cursor.matches_iff.mp h).2
    generalize v.ancestors = above at hanc
    generalize v'.ancestors = above' at hanc
    cases hanc with
    | nil => rfl
    | cons _ houter =>
      cases houter with
      | nil => rfl
      | @cons n n' _ _ hn _ =>
        have hexempts := hn.exempts_eq s.options (fun _ => hn.signature?_eq hσ) s.classType s.name
        simp [hn.tag_eq, Option.filter, hexempts, apply_ite (Option.any _)]
  simp only [hides, DeclarationKind.ofCursor_eq_of_matches h, howner]

theorem isNamesake_eq_of_matches (hσ : σ.spelling = true) (s : ShadowSearch)
    (h : v.Matches (Node.Alike σ) v') : s.isNamesake v = s.isNamesake v' := by
  have hnode := (Cursor.matches_iff.mp h).1
  rw [isNamesake, isNamesake, hnode.tag_eq, hnode.same_name hσ, hnode.id_eq]

theorem region_eq_nil (h : c.node.tag ≠ .classDecl) : region c = [] := by
  cases hkind : c.node.kind with
  | classDecl _ _ _ _ _ _ _ => simp [Node.tag, hkind, Kind.tag] at h
  | _ => simp [region, hkind]

/-- The namesakes in view of corresponding classes correspond to each other. -/
theorem forall₂_namesakes (hσ : σ.spelling = true) (s : ShadowSearch)
    (h : c.Matches (Node.Alike σ) c') :
    List.Forall₂ (Cursor.Matches (Node.Alike σ)) ((region c).filter s.isNamesake)
      ((region c').filter s.isNamesake) := by
  have hnode := (Cursor.matches_iff.mp h).1
  have hplaces (b : Cursor) : (b.node.cursorsWhere (fun n => !n.isIsolated) b.ancestors
      b.index).filter s.isNamesake =
        (b.placesWhere fun n => !n.isIsolated).filter s.isNamesake := by
    rw [Cursor.placesWhere, List.filter_filter]
    refine List.filter_congr ?_
    intro d _
    by_cases hd : d.node.tag = .namedVar
    · simp [Node.isPlace, hd]
    · simp [isNamesake, hd]
  by_cases hclass : c.node.tag = .classDecl
  · obtain ⟨modifiers, keyword, name, typeParams, superclass, body, ty, hkind⟩ :=
      Node.exists_classDecl hclass
    obtain ⟨_, _, _, _, body', hkind', _, hbody⟩ := hnode.classDecl hkind
    have hmatch (i j : Nat) : Cursor.Matches (Node.Alike σ) ⟨body, c.path, i⟩ ⟨body', c'.path, j⟩ :=
      Cursor.matches_iff.mpr ⟨Node.alike_of_sketch_eq hbody, h⟩
    have hplace (n n' : Node) (hn : n.Alike σ n') : n.isPlace = n'.isPlace := by
      rw [Node.isPlace, Node.isPlace, hn.tag_eq]
    have hopen (n n' : Node) (hn : n.Alike σ n') : (!n.isIsolated) = !n'.isIsolated := by
      rw [hn.isIsolated_eq]
    have hregion := Cursor.forall₂_placesWhere hplace hopen (fun _ _ hn => hn.children)
      (hmatch (c.node.children.length - 1) (c'.node.children.length - 1))
    have hbodies := hplaces ⟨body, c.path, c.node.children.length - 1⟩
    have hbodies' := hplaces ⟨body', c'.path, c'.node.children.length - 1⟩
    simp only [Cursor.path] at hbodies hbodies'
    simp only [region, hkind, hkind']
    rw [hbodies, hbodies']
    refine List.rel_filter ?_ hregion
    intro d d' hd
    exact Bool.eq_iff_iff.mp (isNamesake_eq_of_matches hσ s hd)
  · rw [region_eq_nil hclass, region_eq_nil (hnode.tag_eq ▸ hclass)]
    exact .nil

theorem run_eq_of_matches (hσ : σ.spelling = true) (s : ShadowSearch)
    (h : c.Matches (Node.Alike σ) c') : s.run c = s.run c' := by
  have hfound := Except.filterM_eq_of_forall₂ (forall₂_namesakes hσ s h)
    (p := s.hides) (q := s.hides) (f := fun d => d.node.id) (g := fun d => d.node.id) ?_
  · unfold run
    cases hl : ((region c).filter s.isNamesake).filterM s.hides <;>
      cases hl' : ((region c').filter s.isNamesake).filterM s.hides <;>
      simp_all [Except.map, bind, Except.bind, pure, Except.pure]
  · intro d d' hd
    exact ⟨hides_eq_of_matches hσ s hd, (Cursor.matches_iff.mp hd).1.id_eq⟩

end ShadowSearch

namespace HiddenField

variable {rule : HiddenField}

/-- The variables that a statement declares, with their names. -/
def declared (statement : Node) : List (String × NodeId) :=
  match statement.kind with
  | .variableDecls _ _ vars =>
    vars.filterMap fun var => var.simpleName?.map fun name => (name, var.id)
  | _ => []

theorem declared_sketch (hσ : σ.spelling = true) (statement : Node) :
    declared (statement.sketch σ) = declared statement := by
  unfold declared
  rw [Node.kind_sketch]
  cases statement.kind with
  | variableDecls modifiers typeExpr vars =>
    have hvars : (vars.map (Node.sketch σ)).filterMap
        (fun var => var.simpleName?.map fun name => (name, var.id)) =
          vars.filterMap fun var => var.simpleName?.map fun name => (name, var.id) := by
      rw [List.filterMap_map]
      refine List.filterMap_congr ?_
      intro var _
      simp [Node.simpleName?_sketch hσ]
    by_cases hmodifiers : σ.modifiers <;> simpa [Kind.map, Sketch.kind, hmodifiers] using hvars
  | _ => rfl

/-- The statements of a block. -/
def statements (body : Node) : List Node :=
  match body.kind with
  | .block statements _ => statements
  | _ => []

theorem statements_sketch (body : Node) :
    statements (body.sketch σ) = (statements body).map (Node.sketch σ) := by
  unfold statements
  rw [Node.kind_sketch]
  cases body.kind with
  | variableDecls modifiers typeExpr vars =>
    by_cases hmodifiers : σ.modifiers <;> simp [Kind.map, Sketch.kind, hmodifiers]
  | _ => rfl

theorem ownFields_eq {n name body : Node} {modifiers : List Node} {keyword : Padded ClassKind}
    {typeParams : Option Node} {superclass : Option (Padded Node)} {ty : Ty}
    (h : n.kind = .classDecl modifiers keyword name typeParams superclass body ty) :
    ownFields n = (statements body).flatMap declared := by
  unfold ownFields statements
  rw [h]
  dsimp only
  cases body.kind <;> rfl

theorem ownFields_eq_nil {n : Node} (h : n.tag ≠ .classDecl) : ownFields n = [] := by
  cases hkind : n.kind with
  | classDecl _ _ _ _ _ _ _ => simp [Node.tag, hkind, Kind.tag] at h
  | _ => simp [ownFields, hkind]

theorem ownFields_eq_of_alike (hσ : σ.spelling = true) {n n' : Node} (h : n.Alike σ n') :
    ownFields n = ownFields n' := by
  have hdrawn (body : Node) : (statements body).flatMap declared =
      (statements (body.sketch σ)).flatMap declared := by
    rw [statements_sketch, List.flatMap_map]
    exact List.flatMap_congr fun statement _ => (declared_sketch hσ statement).symm
  by_cases hclass : n.tag = .classDecl
  · obtain ⟨modifiers, keyword, name, typeParams, superclass, body, ty, hkind⟩ :=
      Node.exists_classDecl hclass
    obtain ⟨_, _, _, _, body', hkind', _, hbody⟩ := h.classDecl hkind
    rw [ownFields_eq hkind, ownFields_eq hkind', hdrawn body, hbody, ← hdrawn]
  · rw [ownFields_eq_nil hclass, ownFields_eq_nil (h.tag_eq ▸ hclass)]

theorem renamingsAt_eq_of_matches (hσ : σ.spelling = true) (h : c.Matches (Node.Alike σ) c') :
    rule.renamingsAt c = rule.renamingsAt c' := by
  have hnode := (Cursor.matches_iff.mp h).1
  have hnames : rule.protectedNames c.node = rule.protectedNames c'.node := by
    rw [protectedNames, protectedNames, hnode.inheritedMembers_eq, ownFields_eq_of_alike hσ hnode]
  have hty : c.node.ty? = c'.node.ty? := hnode.apply_eq Node.ty?_sketch
  have hsearch (entry : String × Option NodeId) :
      (rule.search c entry).run c = (rule.search c' entry).run c' := by
    rw [ShadowSearch.run_eq_of_matches hσ _ h, search, search, hty]
  rw [renamingsAt_eq, renamingsAt_eq, hnames, hnode.inheritedMembers_eq]
  simp only [hsearch]

/-- Trees that look alike, with their names spelled out, ask for the same renamings. -/
theorem scheduled_eq_of_alike (hσ : σ.spelling = true) (h : tree.Alike σ tree') :
    rule.scheduled tree = rule.scheduled tree' := by
  have hleaf (d : Cursor) (hd : d.node.isPlace = false) : rule.renamingsAt d = .ok [] := by
    cases hkind : d.node.kind <;> simp_all [Node.isPlace, Node.tag, Kind.tag, renamingsAt]
    rfl
  have hplaces (t : Node) : (t.cursors.mapM rule.renamingsAt).map List.flatten =
      (t.places.mapM rule.renamingsAt).map List.flatten :=
    (Except.flatten_mapM_filter hleaf).symm
  have hscheduled (t : Node) : rule.scheduled t =
      ((t.places.mapM rule.renamingsAt).map List.flatten).map (firsts []) := by
    rw [← hplaces, scheduled]
    cases t.cursors.mapM rule.renamingsAt <;> rfl
  have hall : tree.places.mapM rule.renamingsAt = tree'.places.mapM rule.renamingsAt :=
    Except.mapM_eq_of_forall₂ h.forall₂_places fun _ _ => renamingsAt_eq_of_matches hσ
  rw [hscheduled, hscheduled, hall]

end HiddenField

namespace Renaming

variable {r : Renaming}

/-- The same inherited names are in view of the target. -/
theorem inheritedInView_eq_of_alike (h : tree.Alike σ tree') :
    r.inheritedInView tree = r.inheritedInView tree' := by
  let isTarget (c : Cursor) : Bool := c.node.tag == .namedVar && c.node.id == r.target
  let view? (c : Cursor) : Option (List String) :=
    if isTarget c then some c.inheritedInView else none
  have hviews (t : Node) :
      r.inheritedInView t = (t.cursors.filterMap view?).getLast?.getD [] := by
    have hfilter : t.cursors.filterMap view? =
        (t.cursors.filter isTarget).map Cursor.inheritedInView := by
      rw [← List.filterMap_eq_map', List.filterMap_filter]
    rw [hfilter, List.getLast?_map, inheritedInView]
    change _ = ((t.cursors.filter isTarget).getLast?.map _).getD []
    cases (t.cursors.filter isTarget).getLast? <;> rfl
  have hsame : tree'.cursors.filterMap view? = (tree.cursors.filterMap view?).map fun names => names := by
    refine Node.filterMap_of_forall₂ (fun c hc => ?_) h.forall₂_places fun c _ c' hmatch => ?_
    · have htag : c.node.tag = .modifier := by simpa [Node.isPlace] using hc
      simp [view?, isTarget, htag]
    · have hnode := (Cursor.matches_iff.mp hmatch).1
      simp only [view?, isTarget, hnode.tag_eq, hnode.id_eq, Node.Alike.inheritedInView_eq hmatch,
        Option.map_id']
  rw [hviews, hviews, hsame, List.map_id']

/-- The same name is free in trees that look alike with their names spelled out. -/
theorem freshName_eq_of_alike (hσ : σ.spelling = true) (h : tree.Alike σ tree') (target : Binding) :
    r.freshName tree target = r.freshName tree' target := by
  rw [freshName, freshName, inheritedInView_eq_of_alike h, h.bindings_eq hσ]

end Renaming

end Alike

/-! ## Plans -/

/-- The tree with other names for some variables, given one after another. -/
def Node.renamedAll (namings : List (NodeId × String)) (tree : Node) : Node :=
  namings.foldl (fun tree naming => tree.renamed naming.1 naming.2) tree

/-- The name that a renaming hands out: none if its target is not there. A renaming that finds no
    free name has no plan. -/
def Renaming.namings? (r : Renaming) (tree : Node) : Option (List (NodeId × String)) :=
  match tree.bindings.find? fun b => b.id == r.target with
  | none => some []
  | some target =>
    match r.freshName tree target with
    | .ok name => some [(r.target, name)]
    | .error _ => none

/-- The names that renamings hand out one after another. -/
def Renaming.namingsAll? : List Renaming → Node → Option (List (NodeId × String))
  | [], _ => some []
  | r :: renamings, tree => do
    let first ← r.namings? tree
    let others ← namingsAll? renamings (tree.renamedAll first)
    return first ++ others

/-- The names that the rule for hidden fields hands out. -/
def HiddenField.namings? (rule : HiddenField) (tree : Node) : Option (List (NodeId × String)) :=
  match rule.scheduled tree with
  | .ok renamings =>
    if renamings.length ≤ Pipeline.followUpLimit then Renaming.namingsAll? renamings tree else none
  | .error _ => none

theorem Node.renamedAll_append (namings namings' : List (NodeId × String)) (tree : Node) :
    tree.renamedAll (namings ++ namings') = (tree.renamedAll namings).renamedAll namings' :=
  List.foldl_append

/-- The names of the other renamings are handed out after those of the first one. -/
theorem Renaming.namingsAll?_cons {r : Renaming} {tree : Node} {first : List (NodeId × String)}
    (h : r.namings? tree = some first) (renamings : List Renaming) :
    namingsAll? (r :: renamings) tree =
      (namingsAll? renamings (tree.renamedAll first)).map (first ++ ·) := by
  rw [namingsAll?, h]
  change (namingsAll? renamings (tree.renamedAll first)).bind _ = _
  cases namingsAll? renamings (tree.renamedAll first) <;> rfl

theorem Node.sketch_renamedAll {σ : Sketch} (hσ : σ.spelling = true)
    (namings : List (NodeId × String)) (tree : Node) :
    (tree.renamedAll namings).sketch σ = (tree.sketch σ).renamedAll namings := by
  induction namings generalizing tree with
  | nil => rfl
  | cons naming namings ih =>
    exact (ih _).trans (by rw [sketch_renamed hσ]; rfl)

section Names

variable {tree tree' : Node}

theorem Renaming.namings?_eq_of_sketch_eq (h : tree.sketch .names = tree'.sketch .names)
    (r : Renaming) : r.namings? tree = r.namings? tree' := by
  have halike := Node.alike_of_sketch_eq h
  rw [namings?, namings?, halike.bindings_eq rfl]
  cases tree.bindings.find? fun b => b.id == r.target with
  | none => rfl
  | some target => simp only [freshName_eq_of_alike rfl halike]

theorem Renaming.namingsAll?_eq_of_sketch_eq (h : tree.sketch .names = tree'.sketch .names)
    (renamings : List Renaming) : namingsAll? renamings tree = namingsAll? renamings tree' := by
  induction renamings generalizing tree tree' with
  | nil => rfl
  | cons r renamings ih =>
    rw [namingsAll?, namingsAll?, namings?_eq_of_sketch_eq h]
    congr 1
    funext first
    have hnext : (tree.renamedAll first).sketch .names = (tree'.renamedAll first).sketch .names := by
      rw [Node.sketch_renamedAll rfl, Node.sketch_renamedAll rfl, h]
    rw [ih hnext]

/-- The names that are handed out depend on the names in the tree only. -/
theorem HiddenField.namings?_eq_of_sketch_eq (h : tree.sketch .names = tree'.sketch .names)
    (rule : HiddenField) : rule.namings? tree = rule.namings? tree' := by
  rw [namings?, namings?, scheduled_eq_of_alike rfl (Node.alike_of_sketch_eq h)]
  cases rule.scheduled tree' with
  | error e => rfl
  | ok renamings => simp only [Renaming.namingsAll?_eq_of_sketch_eq h]

end Names

end Restyle
