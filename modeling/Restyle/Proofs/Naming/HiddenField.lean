-- SUMMARY: After hiding variables were renamed, no variable hides a member.
import Restyle.Proofs.Naming.Scheduling
import Restyle.Proofs.Naming.Signatures
import Restyle.Proofs.Rule.WellFormed

/-!
# Trees without hidden fields

A tree is settled for hidden fields if no variable in it hides a member and none is stray. Then the
rule has nothing to do (`HiddenField.apply_of_settled`). Whether a variable hides a member depends on
names, on scopes and on the signature of its method, so a settled tree stays settled as long as names
and scopes do (`HiddenField.settled_of_alike`). After the renamings of a run, the targets avoid the
names of all fields and inherited members in view, and all other variables are as before
(`HiddenField.settled_of_passes`).
-/

namespace Restyle

/-! ## Views in trees that look alike -/

theorem exists_append_of_forall₂ {α β : Type} {P : α → β → Prop} {l₁ l₂ : List α} {l' : List β}
    (h : List.Forall₂ P (l₁ ++ l₂) l') :
    ∃ l₁' l₂', l' = l₁' ++ l₂' ∧ List.Forall₂ P l₁ l₁' ∧ List.Forall₂ P l₂ l₂' := by
  induction l₁ generalizing l' with
  | nil => exact ⟨[], l', rfl, .nil, h⟩
  | cons a l₁ ih =>
    obtain ⟨b, l', hab, hl, rfl⟩ := List.forall₂_cons_left_iff.mp h
    obtain ⟨l₁', l₂', rfl, h₁, h₂⟩ := ih hl
    exact ⟨b :: l₁', l₂', rfl, .cons hab h₁, h₂⟩

section Matching

variable {σ : Sketch} {tree' : Node} {c c' v v' : Cursor}

/-- A class sees the places that correspond to those it sees. -/
theorem Cursor.Sees.of_matches (h : c.Sees v) (hids' : tree'.DistinctIds)
    (hc' : c' ∈ tree'.cursors) (hv' : v' ∈ tree'.cursors) (hc : c.Matches (Node.Alike σ) c')
    (hv : v.Matches (Node.Alike σ) v') : c'.Sees v' := by
  obtain ⟨body, inner, hbody, hbelow, hanc, hinner⟩ := h
  unfold body? at hbody
  split at hbody
  · rename_i b _ hkind
    obtain rfl := Option.some.inj hbody
    obtain ⟨_, _, _, _, b', hkind', _, hb⟩ := (matches_iff.mp hc).1.classDecl hkind
    let body' : Cursor := ⟨b', c'.path, c'.node.children.length - 1⟩
    have hbody' : c'.body? = some body' := by simp [body?, hkind', body']
    have hmem' := Node.mem_cursors_of_mem_children hc' (body?_mem_children hbody')
    -- The node at the place of the body is the body, by its id.
    have hbelow' : v' ∈ body'.below := by
      obtain ⟨inside, hpath⟩ := path_suffix_of_mem_below hbelow
      rw [Matches, ← hpath] at hv
      obtain ⟨inside', rest', hpath', _, hrest⟩ := exists_append_of_forall₂ hv
      obtain ⟨e', above', hnode, _, rfl⟩ := List.forall₂_cons_left_iff.mp hrest
      obtain ⟨e, he, rfl, _, hbelow⟩ :=
        exists_cursor_of_path_eq (c := .root tree') hv' hpath' (Nat.zero_le _)
      have hid : e.node.id = body'.node.id :=
        hnode.id_eq.symm.trans (Node.alike_of_sketch_eq hb).id_eq
      rwa [← hids'.eq_of_id_eq he hmem' hid]
    have habove := (matches_iff.mp hv).2
    rw [hanc] at habove
    obtain ⟨inner', outer', hanc', hmatch, houter⟩ := exists_append_of_forall₂ habove
    have hpath : outer' = c'.path := by
      have hlength : outer'.length = c'.path.length := by
        rw [← houter.length_eq, hc.length_eq]
      have hsuffix : outer' <:+ v'.ancestors := ⟨inner', hanc'.symm⟩
      have hsuffix' : c'.path <:+ v'.ancestors := ancestors_suffix_of_mem_below hbelow'
      refine List.IsSuffix.eq_of_length ?_ hlength
      exact List.suffix_of_suffix_length_le hsuffix hsuffix' (Nat.le_of_eq hlength)
    refine ⟨body', inner', hbody', hbelow', by rw [hanc', hpath], fun n' hn' => ?_⟩
    obtain ⟨n, hn, halike⟩ := exists_left_of_forall₂ hmatch hn'
    rw [← halike.isIsolated_eq]
    exact hinner n hn
  · cases hbody

theorem DeclarationKind.ofOwners_eq {owners owners' : List Node}
    (h : List.Forall₂ (Node.Alike σ) owners owners') : ofOwners owners = ofOwners owners' := by
  cases h with
  | nil => rfl
  | cons howner houter =>
    simp only [ofOwners, howner.tag_eq]
    cases houter with
    | nil => rfl
    | cons hclass _ => simp [hclass.tag_eq]

/-- Declarations at corresponding places are flagged alike, if their methods have the same
    signature or setters are not exempt. -/
theorem HiddenFieldOptions.Flags.of_matches {o : HiddenFieldOptions} {classType : Ty}
    {member : String} (h : o.Flags classType member v) (hv : v.Matches (Node.Alike σ) v')
    (hsignature : o.ignoreSetter = true → ∀ n ∈ v.ancestors, ∀ n' ∈ v'.ancestors,
      n.Alike σ n' → n.signature? = n'.signature?) :
    o.Flags classType member v' := by
  have hanc := (Cursor.matches_iff.mp hv).2
  constructor
  · obtain ⟨kind, token, hkind, htoken⟩ := h.watched
    obtain ⟨hdeclared, rfl⟩ := DeclarationKind.ofCursor_eq_ok.mp hkind
    refine ⟨_, token, DeclarationKind.ofCursor_eq_ok.mpr ⟨?_, ?_⟩, htoken⟩
    · exact (Node.Alike.isDeclared_iff hv).mp hdeclared
    · have htail : List.Forall₂ (Node.Alike σ) v.ancestors.tail v'.ancestors.tail := by
        generalize v.ancestors = above at hanc
        generalize v'.ancestors = above' at hanc
        cases hanc with
        | nil => exact .nil
        | cons _ houter => exact houter
      exact (DeclarationKind.ofOwners_eq htail).symm
  · intro decl' method' outer' hanc' htag' hexempts
    rw [hanc'] at hanc
    obtain ⟨decl, above, _, habove, heq⟩ := List.forall₂_cons_right_iff.mp hanc
    obtain ⟨method, outer, hmethod, _, rfl⟩ := List.forall₂_cons_right_iff.mp habove
    have htag : method.tag = .methodDecl := hmethod.tag_eq.trans htag'
    have hsame (hoption : o.ignoreSetter = true) : method.signature? = method'.signature? :=
      hsignature hoption method (by simp [heq]) method' (by simp [hanc']) hmethod
    rw [← HiddenFieldOptions.exempts_iff, ← hmethod.exempts_eq o hsame] at hexempts
    exact h.notExempt decl method outer heq htag (HiddenFieldOptions.exempts_iff.mp hexempts)

/-- A class that looks like another one declares its fields alike. -/
theorem Node.Declares.of_alike {classDecl classDecl' body statement var : Node}
    (h : classDecl.Declares body statement var) (halike : classDecl.Alike σ classDecl') :
    ∃ body' statement' var', classDecl'.Declares body' statement' var' ∧
      var.sketch σ = var'.sketch σ := by
  obtain ⟨⟨_, _, _, _, _, _, hclass⟩, ⟨statements, _, hbody, hstatement⟩, _, _, vars, hdecl, hvar⟩ :=
    h
  obtain ⟨_, _, _, _, body', hclass', _, hbodies⟩ := halike.classDecl hclass
  obtain ⟨statements', hbody', hstatements⟩ := (alike_of_sketch_eq hbodies).block hbody
  obtain ⟨statement', hstatement', hsketch⟩ : ∃ statement' ∈ statements',
      statement'.sketch σ = statement.sketch σ := by
    have hmem := List.mem_map_of_mem (f := Node.sketch σ) hstatement
    rw [hstatements] at hmem
    exact List.mem_map.mp hmem
  obtain ⟨_, _, vars', hdecl', _, hvars, _⟩ := (alike_of_sketch_eq hsketch.symm).variableDecls hdecl
  obtain ⟨var', hvar', hsketch'⟩ : ∃ var' ∈ vars', var'.sketch σ = var.sketch σ := by
    have hmem := List.mem_map_of_mem (f := Node.sketch σ) hvar
    rw [hvars] at hmem
    exact List.mem_map.mp hmem
  exact ⟨body', statement', var', ⟨⟨_, _, _, _, _, _, hclass'⟩, ⟨_, _, hbody', hstatement'⟩, _, _, _,
    hdecl', hvar'⟩, hsketch'.symm⟩

end Matching

/-! ## Settled trees -/

namespace HiddenField

variable {rule : HiddenField} {σ : Sketch} {tree tree' : Node} {renamings : List Renaming}

/-- A tree without stray variables and without variables that hide a member. -/
structure Settled (rule : HiddenField) (tree : Node) : Prop where
  not_stray : ∀ c ∈ tree.cursors, ∀ name v, ¬rule.Stray c name v
  not_hides : ∀ c ∈ tree.cursors, ∀ name v, ¬rule.Hides c name v

theorem apply_of_settled (hids : tree.DistinctIds) (h : Settled rule tree) :
    rule.apply tree = .ok (.unchanged tree) := by
  have hscheduled := scheduled_eq_ok h.not_stray
  obtain ⟨_, hmem, _⟩ := scheduled_spec hids hscheduled
  have hnil : firsts [] ((rule.finds tree).map Prod.snd) = [] := by
    rw [← List.map_eq_nil_iff (f := Renaming.target), List.eq_nil_iff_forall_not_mem]
    intro id hid
    obtain ⟨c, hc, name, v, hhides, _⟩ := (hmem id).mp hid
    exact h.not_hides c hc name v hhides
  rw [apply, hscheduled, hnil]
  rfl

/-- What a class sees in a tree corresponds to what it sees in an alike tree. -/
theorem exists_sees (h : tree.Alike σ tree') (hids : tree.DistinctIds) {c' v' : Cursor}
    (hc' : c' ∈ tree'.cursors) (hsees : c'.Sees v') (hvar : v'.node.tag = .namedVar) :
    ∃ c ∈ tree.cursors, ∃ v ∈ tree.cursors, c.Matches (Node.Alike σ) c' ∧
      v.Matches (Node.Alike σ) v' ∧ c.Sees v := by
  have hclass : c'.node.tag = .classDecl := by
    obtain ⟨body, _, hbody, _⟩ := hsees
    unfold Cursor.body? at hbody
    split at hbody
    · rename_i hkind
      rw [Node.tag, hkind]
      rfl
    · cases hbody
  have hplaces (d' : Cursor) (hd' : d' ∈ tree'.cursors) (hplace : d'.node.tag ≠ .modifier) :
      ∃ d ∈ tree.cursors, d.Matches (Node.Alike σ) d' := by
    obtain ⟨d, hd, hmatch⟩ := exists_left_of_forall₂ h.forall₂_places
      (Node.mem_places.mpr ⟨hd', by simpa [Node.isPlace] using hplace⟩)
    exact ⟨d, (Node.mem_places.mp hd).1, hmatch⟩
  obtain ⟨c, hc, hcmatch⟩ := hplaces c' hc' (by simp [hclass])
  obtain ⟨v, hv, hvmatch⟩ := hplaces v' (hsees.mem_cursors hc') (by simp [hvar])
  refine ⟨c, hc, v, hv, hcmatch, hvmatch, ?_⟩
  exact hsees.of_matches hids hc hv (Node.Alike.matches_symm hcmatch)
    (Node.Alike.matches_symm hvmatch)

/-- A variable hides a member as the one that corresponds to it does, if its name is protected
    there and its method has the same signature or setters are not exempt. -/
theorem Hides.of_matches {c c' v v' : Cursor} {name : String} (h : rule.Hides c' name v')
    (hc : c.Matches (Node.Alike σ) c') (hv : v.Matches (Node.Alike σ) v') (hsees : c.Sees v)
    (hprotects : rule.Protects c.node name) (hnamed : v.IsVariable name)
    (hsignature : rule.options.ignoreSetter = true → ∀ n ∈ v.ancestors, ∀ n' ∈ v'.ancestors,
      n.Alike σ n' → n.signature? = n'.signature?) : rule.Hides c name v := by
  refine ⟨hprotects, hsees, hnamed, fun ty hty => ?_⟩
  have hsame : c.node.ty? = c'.node.ty? :=
    (Cursor.matches_iff.mp hc).1.apply_eq fun m => Node.ty?_sketch m
  refine (h.flags ty (hsame ▸ hty)).of_matches (Node.Alike.matches_symm hv) ?_
  intro hoption n' hn' n hn halike
  exact (hsignature hoption n hn n' hn' halike.symm).symm

/-- A settled tree stays settled as long as names and scopes do. -/
theorem settled_of_alike (hσ : σ.spelling = true) (h : tree.Alike σ tree')
    (hids : tree.DistinctIds) (hsettled : Settled rule tree) : Settled rule tree' := by
  have hprotects (n n' : Node) (hn : n.Alike σ n') (name : String) (hp : rule.Protects n' name) :
      rule.Protects n name := by
    refine ⟨hp.1, hp.2.imp ?_ ?_⟩
    · rintro ⟨m, hm, hname⟩
      exact ⟨m, by rwa [hn.inheritedMembers_eq], hname⟩
    · rintro ⟨body', statement', var', hdeclares, hname⟩
      obtain ⟨body, statement, var, hdeclares, hvar⟩ := hdeclares.of_alike hn.symm
      refine ⟨body, statement, var, hdeclares, ?_⟩
      rw [← hname, (Node.alike_of_sketch_eq hvar).same_name hσ]
  have hnamed (v v' : Cursor) (hv : v.Matches (Node.Alike σ) v') (name : String)
      (hname : v'.IsVariable name) : v.IsVariable name := by
    have hnode := (Cursor.matches_iff.mp hv).1
    rwa [Cursor.IsVariable, hnode.tag_eq, hnode.same_name hσ]
  constructor
  · rintro c' hc' name v' ⟨hprotected, hsees, hname, hdeclared⟩
    obtain ⟨c, hc, v, hv, hcmatch, hvmatch, hsees⟩ := exists_sees h hids hc' hsees hname.1
    have hclass := (Cursor.matches_iff.mp hcmatch).1
    exact hsettled.not_stray c hc name v ⟨hprotects _ _ hclass name hprotected, hsees,
      hnamed v v' hvmatch name hname, fun hd =>
        hdeclared ((Node.Alike.isDeclared_iff hvmatch).mp hd)⟩
  · intro c' hc' name v' hhides
    obtain ⟨c, hc, v, hv, hcmatch, hvmatch, hsees⟩ :=
      exists_sees h hids hc' hhides.sees hhides.isNamed.1
    have hclass := (Cursor.matches_iff.mp hcmatch).1
    refine hsettled.not_hides c hc name v ?_
    exact hhides.of_matches hcmatch hvmatch hsees (hprotects _ _ hclass name hhides.isProtected)
      (hnamed v v' hvmatch name hhides.isNamed) fun _ n _ n' _ halike => halike.signature?_eq hσ

/-! ## The result of the renamings -/

theorem Hides.isDeclared {c v : Cursor} {name : String} (h : rule.Hides c name v) :
    v.IsDeclared := by
  obtain ⟨ty, hty, _⟩ := ty?_of_protects h.isProtected
  obtain ⟨kind, _, hkind, _⟩ := (h.flags ty hty).watched
  exact (DeclarationKind.ofCursor_eq_ok.mp hkind).1

/-- A field hides nothing. -/
theorem Hides.id_ne_of_declares {c d v : Cursor} {name : String} {body statement var : Node}
    (h : rule.Hides c name v) (hids : tree.DistinctIds) (hc : c ∈ tree.cursors)
    (hd : d ∈ tree.cursors) (hdeclares : d.node.Declares body statement var) :
    v.node.id ≠ var.id := by
  intro hid
  have hfield := hdeclares.ofCursor_eq hids hd (h.sees.mem_cursors hc) hid
  obtain ⟨ty, hty, _⟩ := ty?_of_protects h.isProtected
  obtain ⟨kind, token, hkind, htoken, _⟩ := (h.flags ty hty).watched
  obtain rfl := Except.ok.inj (hkind.symm.trans hfield)
  cases htoken

/-- The scope of a field is the body of its class, which encloses all that the class sees. -/
theorem encloses_of_declares {c v w : Cursor} {body statement var : Node} {name name' : String}
    (hdeclares : c.node.Declares body statement var)
    (hw : w.ancestors = statement :: body :: c.path) (hsees : c.Sees v)
    (hvar : v.node.tag = .namedVar) : (w.binding name).encloses (v.binding name') = true := by
  obtain ⟨⟨_, _, _, _, _, _, hclass⟩, ⟨_, _, hbody, _⟩, _, _, _, hdecl, _⟩ := hdeclares
  have hscope : w.scope? = some body := by
    simp [Cursor.scope?, Cursor.enclosing?, hw, Node.opensScope, Node.tag, hdecl, hbody, Kind.tag,
      Tag.opensScope]
  have hmem : body ∈ v.ancestors := by
    obtain ⟨place, _, hplace, hbelow, _⟩ := hsees
    rw [Cursor.body?, hclass] at hplace
    obtain rfl := Option.some.inj hplace
    rcases Cursor.mem_below.mp hbelow with rfl | ⟨e, he, hve⟩
    · simp [Node.tag, hbody, Kind.tag] at hvar
    · have hsuffix := Cursor.ancestors_suffix_of_mem_below hve
      rw [(Cursor.mem_children.mp he).2] at hsuffix
      exact hsuffix.subset List.mem_cons_self
  rw [Binding.encloses_iff]
  intro scope heq
  simp only [Cursor.binding, hscope, Option.map_some, Option.some.injEq] at heq
  exact List.mem_map.mpr ⟨body, hmem, heq⟩

section Passes

variable (htree : tree.WellFormed) (hscheduled : rule.scheduled tree = .ok renamings)
  (hpass : Passes Renaming.Steps renamings tree tree')

include htree hscheduled

/-- Fields are never renamed. -/
theorem not_mem_targets_of_declares {c : Cursor} {body statement var : Node}
    (hc : c ∈ tree.cursors) (hdeclares : c.node.Declares body statement var) :
    var.id ∉ renamings.map Renaming.target := by
  intro hmem
  obtain ⟨_, hiff, _⟩ := scheduled_spec htree.distinctIds hscheduled
  obtain ⟨d, hd, name, v, hhides, hid⟩ := (hiff var.id).mp hmem
  exact hhides.id_ne_of_declares htree.distinctIds hd hc hdeclares hid

theorem target_mem_declaredIds {r : Renaming} (hr : r ∈ renamings) :
    r.target ∈ tree.declaredIds := by
  obtain ⟨_, hiff, _⟩ := scheduled_spec htree.distinctIds hscheduled
  obtain ⟨c, hc, name, v, hhides, hid⟩ := (hiff r.target).mp (List.mem_map_of_mem hr)
  exact Node.mem_declaredIds.mpr
    ⟨v, hhides.sees.mem_cursors hc, hhides.isNamed.1, hhides.isDeclared, hid⟩

include hpass

/-- The fields of a class have their names from the start. -/
theorem exists_field_of_passes {c c' : Cursor} (hc : c ∈ tree.cursors) (hc' : c' ∈ tree'.cursors)
    (halike : c.node.Alike .skeleton c'.node) {body' statement' var' : Node} {name : String}
    (hdeclares' : c'.node.Declares body' statement' var') (hname : var'.simpleName? = some name) :
    var'.tag = .namedVar ∧ var'.id ∉ renamings.map Renaming.target ∧
      ∃ body statement var, c.node.Declares body statement var ∧ var.simpleName? = some name := by
  obtain ⟨body, statement, var, hdeclares, hsketch⟩ := hdeclares'.of_alike halike.symm
  have hvars := Node.alike_of_sketch_eq hsketch
  obtain ⟨w, hw, rfl, hanc⟩ := hdeclares.exists_cursor hc
  obtain ⟨w', hw', rfl, _⟩ := hdeclares'.exists_cursor hc'
  have hother : w'.node.id ∉ renamings.map Renaming.target := by
    rw [hvars.id_eq]
    exact not_mem_targets_of_declares htree hscheduled hc hdeclares
  have htag : w'.node.tag = .namedVar := by
    obtain ⟨e, he, hnode, _⟩ := Node.exists_cursor_of_mem_ancestors hw
      (show statement ∈ w.ancestors by simp [hanc])
    have hplain := htree.plainDeclarations e.node (Node.mem_nodes_of_mem_cursors he)
    obtain ⟨_, _, _, _, _, hkind, hmem⟩ := hdeclares
    rw [hvars.tag_eq]
    exact ((Node.hasPlainDeclaration_iff (hnode ▸ hkind)).mp hplain).1 _ hmem
  refine ⟨htag, hother, body, statement, w.node, hdeclares, ?_⟩
  exact (Renaming.isVariable_of_passes hpass htree.distinctIds htree.plainNames hw hw'
    hvars.id_eq.symm hother ⟨htag, hname⟩).2

/-- After the renamings, no class protects the name of a target that it sees. -/
theorem not_protects_of_target {c' v' : Cursor} {name : String} (hc' : c' ∈ tree'.cursors)
    (hsees : c'.Sees v') (hname : v'.IsVariable name)
    (htarget : v'.node.id ∈ renamings.map Renaming.target) : ¬rule.Protects c'.node name := by
  rintro ⟨_, hprotected⟩
  have hv' := hsees.mem_cursors hc'
  obtain ⟨hinherited, hothers⟩ := Renaming.avoids_of_passes hpass htree.distinctIds
    htree.plainNames hv' hname htarget
  rcases hprotected with ⟨m, hm, hmember⟩ | ⟨body', statement', var', hdeclares', hfield⟩
  · obtain ⟨_, inner, _, _, hanc, hinner⟩ := hsees
    exact hinherited (Cursor.mem_inheritedNames.mpr
      ⟨inner, c'.ancestors, c'.node, hanc, hinner, m, hm, hmember⟩)
  · obtain ⟨_, _, halike⟩ :=
      Renaming.keeps_of_passes hpass htree.distinctIds htree.plainNames
    obtain ⟨c, hc, _, _, hcmatch, _⟩ :=
      exists_sees halike htree.distinctIds hc' hsees hname.1
    obtain ⟨htag, hother, _⟩ := exists_field_of_passes htree hscheduled hpass hc hc'
      (Cursor.matches_iff.mp hcmatch).1 hdeclares' hfield
    obtain ⟨w', hw', rfl, hanc⟩ := hdeclares'.exists_cursor hc'
    have hoverlaps := hothers (w'.binding name) (Node.binding_mem_bindings hw' ⟨htag, hfield⟩)
      hother rfl
    have hencloses : (w'.binding name).encloses (v'.binding name) = true :=
      encloses_of_declares hdeclares' hanc hsees hname.1
    simp [Binding.overlaps, hencloses] at hoverlaps

/-- What the renamings leave is settled, if setters are not exempt or no variable names a method. -/
theorem settled_of_passes
    (hsignatures : rule.options.ignoreSetter = true → tree.PlainSignatures) :
    Settled rule tree' := by
  obtain ⟨hids', _, halike⟩ := Renaming.keeps_of_passes hpass htree.distinctIds htree.plainNames
  have hprotects (c c' : Cursor) (hc : c ∈ tree.cursors) (hc' : c' ∈ tree'.cursors)
      (hmatch : c.Matches (Node.Alike .skeleton) c') (name : String)
      (hp : rule.Protects c'.node name) : rule.Protects c.node name := by
    have hnode := (Cursor.matches_iff.mp hmatch).1
    refine ⟨hp.1, hp.2.imp ?_ ?_⟩
    · rintro ⟨m, hm, hname⟩
      exact ⟨m, by rwa [hnode.inheritedMembers_eq], hname⟩
    · rintro ⟨body', statement', var', hdeclares', hname⟩
      exact (exists_field_of_passes htree hscheduled hpass hc hc' hnode hdeclares' hname).2.2
  -- A variable that threatens a member is no target, so it had its name from the start.
  have hold (c' v' : Cursor) (hc' : c' ∈ tree'.cursors) (hsees : c'.Sees v') (name : String)
      (hname : v'.IsVariable name) (hp : rule.Protects c'.node name) :
      v'.node.id ∉ renamings.map Renaming.target := fun htarget =>
    not_protects_of_target htree hscheduled hpass hc' hsees hname htarget hp
  have hnamed (v v' : Cursor) (hv : v ∈ tree.cursors) (hv' : v' ∈ tree'.cursors)
      (hmatch : v.Matches (Node.Alike .skeleton) v') (name : String) (hname : v'.IsVariable name)
      (hother : v'.node.id ∉ renamings.map Renaming.target) : v.IsVariable name :=
    Renaming.isVariable_of_passes hpass htree.distinctIds htree.plainNames hv hv'
      (Cursor.matches_iff.mp hmatch).1.id_eq hother hname
  constructor
  · rintro c' hc' name v' ⟨hprotected, hsees', hname, hdeclared⟩
    have hother := hold c' v' hc' hsees' name hname hprotected
    obtain ⟨c, hc, v, hv, hcmatch, hvmatch, hsees⟩ :=
      exists_sees halike htree.distinctIds hc' hsees' hname.1
    refine not_stray_of_scheduled htree.distinctIds hscheduled c hc name v
      ⟨hprotects c c' hc hc' hcmatch name hprotected, hsees,
        hnamed v v' hv (hsees'.mem_cursors hc') hvmatch name hname hother, fun hd => hdeclared ?_⟩
    exact (Node.Alike.isDeclared_iff hvmatch).mp hd
  · intro c' hc' name v' hhides
    have hv' := hhides.sees.mem_cursors hc'
    have hother := hold c' v' hc' hhides.sees name hhides.isNamed hhides.isProtected
    obtain ⟨c, hc, v, hv, hcmatch, hvmatch, hsees⟩ :=
      exists_sees halike htree.distinctIds hc' hhides.sees hhides.isNamed.1
    have hhides₀ : rule.Hides c name v := by
      refine hhides.of_matches hcmatch hvmatch hsees
        (hprotects c c' hc hc' hcmatch name hhides.isProtected)
        (hnamed v v' hv hv' hvmatch name hhides.isNamed hother) fun hoption n hn n' hn' hmatch => ?_
      by_cases hmethod : n.tag = .methodDecl
      · obtain ⟨d, hd, rfl, _⟩ := Node.exists_cursor_of_mem_ancestors hv hn
        obtain ⟨d', hd', rfl, _⟩ := Node.exists_cursor_of_mem_ancestors hv' hn'
        have hsame := Renaming.signatures_eq_of_passes hpass htree.distinctIds htree.plainNames
          (hsignatures hoption) fun r hr => target_mem_declaredIds htree hscheduled hr
        exact Node.signature?_eq_of_id_eq hsame hids' hd hd' hmatch.id_eq hmethod
      · rw [Node.signature?_eq_none hmethod,
          Node.signature?_eq_none (hmatch.tag_eq ▸ hmethod)]
    obtain ⟨_, hiff, _⟩ := scheduled_spec htree.distinctIds hscheduled
    refine hother ((hiff _).mpr ⟨c, hc, name, v, hhides₀, ?_⟩)
    exact (Cursor.matches_iff.mp hvmatch).1.id_eq

end Passes

end HiddenField

end Restyle
