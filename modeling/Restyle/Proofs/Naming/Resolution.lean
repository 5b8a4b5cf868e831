-- SUMMARY: No run of a pipeline changes which variable a name resolves to.
import Restyle.Proofs.Naming.Renamed
import Restyle.Proofs.Rule.Ids

/-!
# Resolution of names

A name resolves to the variable of its spelling with the innermost scope around it. All rules keep
it that way: the rules on spacing and `final` keep names and scopes, and a renaming gives its target
a name that no variable with an overlapping scope has (`ResolvesAmong.renamed`). Over a whole run
this is `Pipeline.run_resolves`.
-/

namespace Restyle

/-- A name at a cursor resolves to a variable: the variable has that name and a scope around the
    cursor, and no other such variable has a scope within that scope. -/
def Node.Resolves (tree : Node) (u : Cursor) (name : String) (declaration : NodeId) : Prop :=
  ∃ v ∈ tree.cursors, v.node.id = declaration ∧ v.IsVariable name ∧ v.Encloses u ∧
    ∀ w ∈ tree.cursors, w ≠ v → w.IsVariable name → w.Encloses u → ¬w.Within v

/-! ## Resolution among bindings -/

/-- Whether the scope of a binding is among the nodes above a name. -/
def Binding.IsInView (b : Binding) (above : List NodeId) : Prop := ∀ scope ∈ b.scope, scope ∈ above

-- The instance is named because ids are finitely many, and no search should go through all of them.
instance (b : Binding) (above : List NodeId) : Decidable (b.IsInView above) :=
  Option.decidableForallMem b.scope

/-- As `Node.Resolves`, for bindings and the ids of the nodes above a name. -/
def ResolvesAmong (bindings : List Binding) (above : List NodeId) (name : String)
    (declaration : NodeId) : Prop :=
  ∃ b ∈ bindings, b.id = declaration ∧ b.name = name ∧ b.IsInView above ∧
    ∀ other ∈ bindings, other.id ≠ declaration → other.name = name → other.IsInView above →
      b.encloses other = false

instance (bindings : List Binding) (above : List NodeId) (name : String) (declaration : NodeId) :
    Decidable (ResolvesAmong bindings above name declaration) :=
  inferInstanceAs (Decidable (∃ b ∈ bindings, b.id = declaration ∧ b.name = name ∧
    b.IsInView above ∧ ∀ other ∈ bindings, other.id ≠ declaration → other.name = name →
      other.IsInView above → b.encloses other = false))

theorem Node.resolves_iff {tree : Node} (hids : tree.DistinctIds) {u : Cursor}
    (hu : u ∈ tree.cursors) {name : String} {declaration : NodeId} :
    tree.Resolves u name declaration ↔
      ResolvesAmong tree.bindings (u.ancestors.map Node.id) name declaration := by
  have hwithin (v w : Cursor) (hv : v ∈ tree.cursors) (hw : w ∈ tree.cursors) :
      ¬w.Within v ↔ (v.binding name).encloses (w.binding name) = false := by
    rw [Cursor.within_iff_encloses, hids.encloses_iff_binding hv hw name,
      ← Bool.not_eq_true, Binding.encloses_iff]
    rfl
  constructor
  · rintro ⟨v, hv, rfl, hname, hencl, hinner⟩
    refine ⟨v.binding name, binding_mem_bindings hv hname, rfl, rfl,
      (hids.encloses_iff_binding hv hu _).mp hencl, ?_⟩
    rintro other hother hid rfl hscope
    obtain ⟨w, hw, hwname, hbinding⟩ := mem_bindings.mp hother
    rw [hbinding] at hid hscope ⊢
    refine (hwithin v w hv hw).mp (hinner w hw ?_ hwname ?_)
    · rintro rfl
      exact hid rfl
    · exact (hids.encloses_iff_binding hw hu _).mpr hscope
  · rintro ⟨b, hb, rfl, rfl, hscope, hinner⟩
    obtain ⟨v, hv, hname, hbinding⟩ := mem_bindings.mp hb
    refine ⟨v, hv, by rw [hbinding]; rfl, hname, ?_, ?_⟩
    · rw [hbinding] at hscope
      exact (hids.encloses_iff_binding hv hu _).mpr hscope
    · intro w hw hne hwname hencl
      rw [hwithin v w hv hw, ← hbinding]
      refine hinner _ (binding_mem_bindings hw hwname) ?_ rfl
        ((hids.encloses_iff_binding hw hu _).mp hencl)
      intro hid
      rw [hbinding] at hid
      exact hne (hids.eq_of_id_eq hw hv hid)

@[simp] theorem Binding.isInView_renamed (b : Binding) (target : NodeId) (name : String)
    (above : List NodeId) : (b.renamed target name).IsInView above ↔ b.IsInView above := by
  rw [IsInView, scope_renamed, IsInView]

/-- Giving a variable a name that no overlapping variable has changes no resolution. -/
theorem ResolvesAmong.renamed {bindings : List Binding} {above : List NodeId} {name fresh : String}
    {declaration : NodeId} {target : Binding}
    (h : ResolvesAmong bindings above name declaration)
    (hunique : ∀ b ∈ bindings, b.id = target.id → b = target)
    (hfree : ∀ other ∈ bindings, other.id ≠ target.id → other.name = fresh →
      other.overlaps target = false) :
    ResolvesAmong (bindings.map (Binding.renamed target.id fresh)) above
      (if declaration = target.id then fresh else name) declaration := by
  obtain ⟨b, hb, rfl, rfl, hscope, hinner⟩ := h
  refine ⟨b.renamed target.id fresh, List.mem_map_of_mem hb, by simp, b.name_renamed, by simpa, ?_⟩
  intro other' hother' hid hname hscope'
  obtain ⟨other, hother, rfl⟩ := List.mem_map.mp hother'
  simp only [Binding.id_renamed, Binding.isInView_renamed, Binding.name_renamed] at hid hname hscope'
  have hencloses : (b.renamed target.id fresh).encloses (other.renamed target.id fresh) =
      b.encloses other := by
    simp [Binding.encloses]
  rw [hencloses]
  -- Either the name resolves to the target, or the target may have come in between, or neither.
  by_cases hb' : b.id = target.id
  · have hother' : other.id ≠ target.id := fun heq => hid (heq.trans hb'.symm)
    rw [if_neg hother', if_pos hb'] at hname
    have hoverlaps := hfree other hother hother' hname
    rw [← hunique b hb hb', Binding.overlaps, Bool.or_eq_false_iff] at hoverlaps
    exact hoverlaps.2
  · rw [if_neg hb'] at hname
    by_cases hother' : other.id = target.id
    · rw [if_pos hother'] at hname
      have hoverlaps := hfree b hb hb' hname.symm
      rw [← hunique other hother hother', Binding.overlaps, Bool.or_eq_false_iff] at hoverlaps
      exact hoverlaps.1
    · rw [if_neg hother'] at hname
      exact hinner other hother hid hname hscope'

/-! ## Steps -/

/-- The sketch that shows names and scopes. -/
def Sketch.names : Sketch := ⟨fun _ => false, true, false⟩

/-- A rule that is no renaming keeps names and scopes. A renaming gives its target a free name. -/
theorem Rule.Steps.alike_or_tracks {rule : Rule} {tree tree' : Node} (h : rule.Steps tree tree')
    (hplain : tree.PlainNames) :
    tree.Alike .names tree' ∨
      ∃ (r : Renaming) (target : Binding) (name : String), target ∈ tree.bindings ∧
        r.freshName tree target = .ok name ∧ tree.Tracks target.id name tree' := by
  have hspared (hσ : rule.Spares .names) : tree.Alike .names tree' :=
    Node.alike_of_sketch_eq (h.sketch_eq hσ).symm
  cases rule with
  | rename r =>
    rcases Renaming.Steps.inversion (r := r) h hplain with
      ⟨heq, _⟩ | ⟨target, hmem, hid, name, hfresh, htracks⟩
    · rw [heq]
      exact .inl (.refl tree)
    · exact .inr ⟨r, target, name, hmem, hfresh, hid ▸ htracks⟩
  | hiddenField hidden =>
    obtain ⟨out, hout, rfl⟩ := h
    rcases Rule.apply_cases hout with ⟨_, _, _, _, rfl⟩ | ⟨hother, _⟩
    · exact .inl (.refl tree)
    · exact absurd rfl (hother hidden)
  | typeParameterList => exact .inl (hspared ⟨rfl, rfl⟩)
  | forHeader _ | addFinal => exact .inl (hspared rfl)

namespace Node

variable {tree tree' : Node}

/-- A reference to a variable, known by its id, that resolves to the variable. -/
def HasReference (tree : Node) (id : NodeId) (ty : Ty) (declaration : NodeId) : Prop :=
  ∃ u ∈ tree.cursors, u.node.id = id ∧
    ∃ name, u.node.kind = .ident name ty (some declaration) ∧ tree.Resolves u name declaration

variable {id declaration : NodeId} {ty : Ty}

/-- A reference stays a reference if the nodes of two trees correspond, and resolves again if it
    does so among the new bindings. -/
theorem HasReference.of_forall₂ {R : Node → Node → Prop} {f : String → String}
    (hids : tree.DistinctIds) (hids' : tree'.DistinctIds) (hid : ∀ n n', R n n' → n.id = n'.id)
    (hident : ∀ n n' name, R n n' → n.kind = .ident name ty (some declaration) →
      n'.kind = .ident (f name) ty (some declaration))
    (hresolves : ∀ above name, ResolvesAmong tree.bindings above name declaration →
      ResolvesAmong tree'.bindings above (f name) declaration)
    (hplaces : List.Forall₂ (Cursor.Matches R) tree.places tree'.places)
    (h : tree.HasReference id ty declaration) : tree'.HasReference id ty declaration := by
  obtain ⟨u, hu, rfl, name, hkind, hu'⟩ := h
  have hplace : u.node.isPlace = true := by simp [isPlace, tag, hkind, Kind.tag]
  obtain ⟨u', hu'', hmatch⟩ := exists_right_of_forall₂ hplaces (mem_places.mpr ⟨hu, hplace⟩)
  obtain ⟨hnode, hanc⟩ := Cursor.matches_iff.mp hmatch
  have habove : u'.ancestors.map Node.id = u.ancestors.map Node.id := by
    generalize u.ancestors = above at hanc
    generalize u'.ancestors = above' at hanc
    induction hanc with
    | nil => rfl
    | cons hn _ ih => simp [ih, hid _ _ hn]
  refine ⟨u', (mem_places.mp hu'').1, (hid _ _ hnode).symm, f name,
    hident _ _ _ hnode hkind, ?_⟩
  rw [resolves_iff hids' (mem_places.mp hu'').1, habove]
  exact hresolves _ _ ((resolves_iff hids hu).mp hu')

end Node

/-- A rule keeps the names of variables plain, and every reference that resolves. -/
theorem Rule.Steps.hasReference {rule : Rule} {tree tree' : Node} (h : rule.Steps tree tree')
    (hids : tree.DistinctIds) (hplain : tree.PlainNames) :
    tree'.DistinctIds ∧ tree'.PlainNames ∧ ∀ id ty declaration,
      tree.HasReference id ty declaration → tree'.HasReference id ty declaration := by
  have hids' := h.distinctIds hids
  have hplain' := h.alike.plainNames hplain
  rcases h.alike_or_tracks hplain with halike | ⟨r, target, name, hmem, hfresh, htracks⟩
  · refine ⟨hids', hplain', fun id ty declaration href => ?_⟩
    refine href.of_forall₂ (f := fun name => name) hids hids' (fun _ _ hn => hn.id_eq)
      (fun _ _ _ hn => hn.ident rfl) (fun above name hname => ?_) halike.forall₂_places
    rwa [halike.bindings_eq rfl]
  · refine ⟨hids', hplain', fun id ty declaration href => ?_⟩
    refine href.of_forall₂ (f := fun old => if declaration = target.id then name else old)
      hids hids' (fun _ _ hn => hn.id_eq) (fun _ _ _ hn => hn.ident)
      (fun above old hold => ?_) htracks.forall₂_places
    rw [htracks.bindings_eq]
    refine hold.renamed (fun b hb hid => ?_) (Renaming.freshName_eq_ok hfresh).2.2
    exact hids.binding_eq hb hmem hid

/-! ## Runs -/

/-- No run of a pipeline changes what a name resolves to: a reference that resolves to the variable
    it refers to is a reference to the same variable afterwards and resolves to it. -/
theorem Pipeline.run_resolves {rules : List Rule} {tree : Node} {outcome : Outcome}
    (hids : tree.DistinctIds) (hplain : tree.PlainNames)
    (hrun : Pipeline.run rules tree = .ok outcome) {u : Cursor} {name : String} {ty : Ty}
    {declaration : NodeId} (hu : u ∈ tree.cursors)
    (hkind : u.node.kind = .ident name ty (some declaration))
    (hresolves : tree.Resolves u name declaration) :
    outcome.tree.DistinctIds ∧
      ∃ u' ∈ outcome.tree.cursors, u'.node.id = u.node.id ∧
        ∃ name', u'.node.kind = .ident name' ty (some declaration) ∧
          outcome.tree.Resolves u' name' declaration := by
  obtain ⟨applied, hsteps⟩ := exists_steps_of_run hrun
  have href : tree.HasReference u.node.id ty declaration :=
    ⟨u, hu, rfl, name, hkind, hresolves⟩
  generalize outcome.tree = tree' at hsteps
  clear hrun hresolves hkind hu
  induction hsteps with
  | nil tree => exact ⟨hids, href⟩
  | cons hstep _ ih =>
    obtain ⟨hids', hplain', hkeeps⟩ := hstep.hasReference hids hplain
    exact ih hids' hplain' (hkeeps _ _ _ href)

/-- The local variable of `hidingLocal` is renamed, and the reference to it follows. -/
theorem Pipeline.run_resolves_hidingLocal :
    ∃ outcome, Pipeline.run [Rule.hiddenField ⟨.default, none⟩] hidingLocal = .ok outcome ∧
      ∃ u' ∈ outcome.tree.cursors, u'.node.id = 7 ∧
        ∃ name', u'.node.kind = .ident name' .unknown (some 22) ∧
          outcome.tree.Resolves u' name' 22 := by
  let u : Cursor := hidingLocal.cursors.get ⟨15, by decide⟩
  have hu : u ∈ hidingLocal.cursors := List.get_mem _ _
  have hkind : u.node.kind = .ident "x" .unknown (some 22) := rfl
  have hresolves : hidingLocal.Resolves u "x" 22 :=
    (Node.resolves_iff hidingLocal_distinctIds hu).mpr (by decide)
  obtain ⟨outcome, hrun⟩ := exists_run_hidingLocal
  have hkept := Pipeline.run_resolves hidingLocal_distinctIds hidingLocal_plainNames hrun hu hkind
    hresolves
  exact ⟨outcome, hrun, hkept.2⟩

end Restyle
