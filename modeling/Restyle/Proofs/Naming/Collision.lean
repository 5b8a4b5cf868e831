-- SUMMARY: Renamings that run one after another never give a variable a name that is in use.
import Restyle.Proofs.Naming.Renamed
import Restyle.Proofs.Rule.Ids

/-!
# Collisions

Each renaming looks at the tree of its own moment only. Still, after all of them, variables whose
scopes overlap share a name only if they did so from the start (`Renaming.mem_bindings_of_passes`),
and a renamed variable has the name of no inherited member in view and of no variable around it that
was not renamed (`Renaming.avoids_of_passes`).
-/

namespace Restyle

namespace Renaming

variable {r : Renaming} {renamings : List Renaming} {tree tree' : Node}

theorem Steps.keeps (h : r.Steps tree tree') (hids : tree.DistinctIds)
    (hplain : tree.PlainNames) : tree'.DistinctIds ∧ tree'.PlainNames :=
  ⟨Rule.Steps.distinctIds h hids, (Rule.Steps.alike h).plainNames hplain⟩

theorem keeps_of_passes (h : Passes Steps renamings tree tree') (hids : tree.DistinctIds)
    (hplain : tree.PlainNames) :
    tree'.DistinctIds ∧ tree'.PlainNames ∧ tree.Alike .skeleton tree' := by
  induction h with
  | nil tree => exact ⟨hids, hplain, .refl tree⟩
  | cons hstep _ ih =>
    obtain ⟨hids', hplain'⟩ := hstep.keeps hids hplain
    obtain ⟨hids'', hplain'', halike⟩ := ih hids' hplain'
    exact ⟨hids'', hplain'', (Rule.Steps.alike hstep).trans halike⟩

/-- What one renaming does to the bindings of a tree. -/
theorem Steps.bindings (h : r.Steps tree tree') (hplain : tree.PlainNames) :
    tree'.bindings = tree.bindings ∨
      ∃ target ∈ tree.bindings, ∃ name, target.id = r.target ∧
        r.freshName tree target = .ok name ∧
        tree'.bindings = tree.bindings.map (Binding.renamed target.id name) := by
  rcases h.inversion hplain with ⟨rfl, _⟩ | ⟨target, hmem, hid, name, hfresh, htracks⟩
  · exact .inl rfl
  · exact .inr ⟨target, hmem, name, hid, hfresh, hid ▸ htracks.bindings_eq⟩

/-! ## Two variables -/

/-- After one renaming, two variables of one name with overlapping scopes are as they were. -/
theorem Steps.mem_bindings (h : r.Steps tree tree') (hids : tree.DistinctIds)
    (hplain : tree.PlainNames) {a b : Binding} (ha : a ∈ tree'.bindings)
    (hb : b ∈ tree'.bindings) (hne : a.id ≠ b.id) (hname : a.name = b.name)
    (hencloses : a.encloses b = true) : a ∈ tree.bindings ∧ b ∈ tree.bindings := by
  rcases h.bindings hplain with heq | ⟨target, htarget, name, _, hfresh, heq⟩
  · rw [heq] at ha hb
    exact ⟨ha, hb⟩
  · have hfree := (freshName_eq_ok hfresh).2.2
    rw [heq] at ha hb
    obtain ⟨a₀, ha₀, rfl⟩ := List.mem_map.mp ha
    obtain ⟨b₀, hb₀, rfl⟩ := List.mem_map.mp hb
    simp only [Binding.id_renamed, Binding.name_renamed] at hne hname
    replace hencloses : a₀.encloses b₀ = true := by simpa [Binding.encloses] using hencloses
    -- If one of them is the target, the other one had the new name before and overlaps it.
    by_cases ha' : a₀.id = target.id
    · have hb' : b₀.id ≠ target.id := fun hb' => hne (ha'.trans hb'.symm)
      rw [if_pos ha', if_neg hb'] at hname
      have hoverlaps := hfree b₀ hb₀ hb' hname.symm
      rw [← hids.binding_eq ha₀ htarget ha'] at hoverlaps
      simp [Binding.overlaps, hencloses] at hoverlaps
    · by_cases hb' : b₀.id = target.id
      · rw [if_neg ha', if_pos hb'] at hname
        have hoverlaps := hfree a₀ ha₀ ha' hname
        rw [← hids.binding_eq hb₀ htarget hb'] at hoverlaps
        simp [Binding.overlaps, hencloses] at hoverlaps
      · simp only [Binding.renamed, ha', hb', if_false]
        exact ⟨ha₀, hb₀⟩

/-- After all renamings, two variables of one name with overlapping scopes are as they were. -/
theorem mem_bindings_of_passes (h : Passes Steps renamings tree tree') (hids : tree.DistinctIds)
    (hplain : tree.PlainNames) {a b : Binding} (ha : a ∈ tree'.bindings)
    (hb : b ∈ tree'.bindings) (hne : a.id ≠ b.id) (hname : a.name = b.name)
    (hencloses : a.encloses b = true) : a ∈ tree.bindings ∧ b ∈ tree.bindings := by
  induction h with
  | nil tree => exact ⟨ha, hb⟩
  | cons hstep _ ih =>
    obtain ⟨hids', hplain'⟩ := hstep.keeps hids hplain
    obtain ⟨ha', hb'⟩ := ih hids' hplain' ha hb
    exact hstep.mem_bindings hids hplain ha' hb' hne hname hencloses

/-! ## Inherited members -/

/-- In a tree with distinct ids, the names in view of the target are those at its place. -/
theorem inheritedInView_eq (hids : tree.DistinctIds) {c : Cursor} (hc : c ∈ tree.cursors)
    (htag : c.node.tag = .namedVar) (hid : c.node.id = r.target) :
    r.inheritedInView tree = c.inheritedInView := by
  have hmem : c ∈ tree.cursors.filter fun c =>
      c.node.tag == .namedVar && c.node.id == r.target := by
    simp [hc, htag, hid]
  unfold inheritedInView
  dsimp only
  split
  · rename_i last hlast
    have hlast := List.mem_filter.mp (List.mem_of_getLast? hlast)
    have hlastId : last.node.id = r.target := by simp_all
    rw [hids.eq_of_id_eq hlast.1 hc (hlastId.trans hid.symm)]
  · rename_i hnone
    rw [List.getLast?_eq_none_iff.mp hnone] at hmem
    simp at hmem

/-! ## Targets and other variables -/

/-- A renaming keeps all variables but its target as they are. -/
theorem Steps.mem_bindings_iff (h : r.Steps tree tree') (hplain : tree.PlainNames) {b : Binding}
    (hb : b.id ≠ r.target) : b ∈ tree'.bindings ↔ b ∈ tree.bindings := by
  rcases h.inversion hplain with ⟨rfl, _⟩ | ⟨target, _, _, name, _, htracks⟩
  · exact Iff.rfl
  · rw [htracks.bindings_eq, List.mem_map]
    have hself : b.renamed r.target name = b := by simp [Binding.renamed, hb]
    constructor
    · rintro ⟨b₀, hb₀, rfl⟩
      rw [Binding.id_renamed] at hb
      rwa [Binding.renamed, if_neg hb]
    · intro hmem
      exact ⟨b, hmem, hself⟩

theorem mem_bindings_iff_of_passes (h : Passes Steps renamings tree tree')
    (hids : tree.DistinctIds) (hplain : tree.PlainNames) {b : Binding}
    (hb : b.id ∉ renamings.map target) : b ∈ tree'.bindings ↔ b ∈ tree.bindings := by
  induction h with
  | nil tree => exact Iff.rfl
  | cons hstep _ ih =>
    rw [List.map_cons, List.mem_cons, not_or] at hb
    obtain ⟨hids', hplain'⟩ := hstep.keeps hids hplain
    exact (ih hids' hplain' hb.2).trans (hstep.mem_bindings_iff hplain hb.1)

/-- A variable that is no target had its name from the start. -/
theorem isVariable_of_passes (h : Passes Steps renamings tree tree') (hids : tree.DistinctIds)
    (hplain : tree.PlainNames) {c c' : Cursor} {name : String} (hc : c ∈ tree.cursors)
    (hc' : c' ∈ tree'.cursors) (hid : c.node.id = c'.node.id)
    (hother : c'.node.id ∉ renamings.map target) (hname : c'.IsVariable name) :
    c.IsVariable name := by
  have hbinding := (mem_bindings_iff_of_passes h hids hplain hother).mp
    (Node.binding_mem_bindings hc' hname)
  obtain ⟨d, hd, hdname, heq⟩ := Node.mem_bindings.mp hbinding
  have hdid : c'.node.id = d.node.id := congrArg Binding.id heq
  rwa [hids.eq_of_id_eq hc hd (hid.trans hdid)]

/-- The new name of a target is that of no inherited member in view, and of no other variable that
    can be seen in one place with it. -/
theorem Steps.avoids (h : r.Steps tree tree') (hids : tree.DistinctIds) (hplain : tree.PlainNames)
    {b : Binding} (hb : b ∈ tree'.bindings) (hid : b.id = r.target) :
    b.name ∉ r.inheritedInView tree ∧
      ∀ other ∈ tree'.bindings, other.id ≠ r.target → other.name = b.name →
        other.overlaps b = false := by
  rcases h.inversion hplain with ⟨rfl, hnone⟩ | ⟨target, htarget, htargetId, name, hfresh, htracks⟩
  · exact absurd hid (hnone b hb)
  · obtain ⟨_, hinherited, hothers⟩ := freshName_eq_ok hfresh
    rw [htracks.bindings_eq] at hb ⊢
    obtain ⟨b₀, hb₀, rfl⟩ := List.mem_map.mp hb
    rw [Binding.id_renamed] at hid
    obtain rfl := hids.binding_eq hb₀ htarget (hid.trans htargetId.symm)
    rw [Binding.name_renamed, if_pos hid]
    refine ⟨hinherited, fun other' hother' hne hname => ?_⟩
    obtain ⟨other, hother, rfl⟩ := List.mem_map.mp hother'
    rw [Binding.id_renamed] at hne
    rw [Binding.name_renamed, if_neg hne] at hname
    have hoverlaps := hothers other hother (hid ▸ hne) hname
    simpa [Binding.overlaps, Binding.encloses] using hoverlaps

/-- After all renamings, the name of a target is that of no inherited member in view, and of no
    variable that can be seen in one place with it and was no target. -/
theorem avoids_of_passes (h : Passes Steps renamings tree tree') (hids : tree.DistinctIds)
    (hplain : tree.PlainNames) {c' : Cursor} {name : String} (hc' : c' ∈ tree'.cursors)
    (hname : c'.IsVariable name) (htarget : c'.node.id ∈ renamings.map target) :
    name ∉ c'.inheritedInView ∧
      ∀ other ∈ tree'.bindings, other.id ∉ renamings.map target → other.name = name →
        other.overlaps (c'.binding name) = false := by
  induction h with
  | nil tree => simp at htarget
  | @cons r renamings tree tree₁ tree' hstep hpass ih =>
    obtain ⟨hids₁, hplain₁⟩ := hstep.keeps hids hplain
    -- The last renaming of the variable counts: this one or a later one.
    by_cases hlater : c'.node.id ∈ renamings.map target
    · obtain ⟨hinherited, hothers⟩ := ih hids₁ hplain₁ hc' hlater
      refine ⟨hinherited, fun other hother hne => hothers other hother fun hmem => hne ?_⟩
      exact List.mem_cons_of_mem _ hmem
    · have hid : c'.node.id = r.target := by simpa [hlater] using htarget
      have hbinding : c'.binding name ∈ tree₁.bindings :=
        (mem_bindings_iff_of_passes hpass hids₁ hplain₁ hlater).mp
          (Node.binding_mem_bindings hc' hname)
      obtain ⟨hinherited, hothers⟩ := hstep.avoids hids hplain hbinding hid
      have hplace : c'.node.isPlace = true := by simp [Node.isPlace, hname.1]
      obtain ⟨_, _, halike⟩ := keeps_of_passes (.cons hstep hpass) hids hplain
      obtain ⟨c, hc, hmatch⟩ := exists_left_of_forall₂ halike.forall₂_places
        (Node.mem_places.mpr ⟨hc', hplace⟩)
      have hnode := (Cursor.matches_iff.mp hmatch).1
      constructor
      · rw [← Node.Alike.inheritedInView_eq hmatch,
          ← inheritedInView_eq hids (Node.mem_places.mp hc).1 (hnode.tag_eq.trans hname.1)
            (hnode.id_eq.trans hid)]
        exact hinherited
      · intro other hother hne hsame
        rw [List.map_cons, List.mem_cons, not_or] at hne
        refine hothers other ?_ hne.1 hsame
        exact (mem_bindings_iff_of_passes hpass hids₁ hplain₁ hne.2).mp hother

end Renaming

/-! ## Runs -/

/-- After a run for hidden fields, two variables share a name inside of the scope of one of them
    only if both have kept their names, and a variable that got another name hides no inherited
    member of the classes around it, up to the first class that does not see the next one. -/
theorem HiddenField.run_avoids_collisions {rule : HiddenField} {tree : Node} {outcome : Outcome}
    (hids : tree.DistinctIds) (hplain : tree.PlainNames)
    (hrun : Pipeline.run [Rule.hiddenField rule] tree = .ok outcome) :
    (∀ a ∈ outcome.tree.cursors, ∀ b ∈ outcome.tree.cursors, a ≠ b →
      ∀ name, a.IsVariable name → b.IsVariable name → a.Encloses b →
        (∃ a₀ ∈ tree.cursors, a₀.node.id = a.node.id ∧ a₀.IsVariable name) ∧
          ∃ b₀ ∈ tree.cursors, b₀.node.id = b.node.id ∧ b₀.IsVariable name) ∧
    ∀ a₀ ∈ tree.cursors, ∀ a ∈ outcome.tree.cursors, a₀.node.id = a.node.id →
      ∀ old name, a₀.IsVariable old → a.IsVariable name → name ≠ old →
        ∀ inner classDecl outer, a.ancestors = inner ++ classDecl :: outer →
          (∀ n ∈ inner, n.isIsolated = false) →
          ∀ m ∈ classDecl.inheritedMembers, m.name ≠ name := by
  obtain ⟨renamings, _, hpass⟩ : ∃ renamings, rule.scheduled tree = .ok renamings ∧
      Passes Renaming.Steps renamings tree outcome.tree := by
    obtain ⟨tree', hturn, hnil⟩ := Passes.cons_iff.mp (Pipeline.passes_turns_of_run hrun)
    rw [← Passes.nil_iff.mp hnil]
    exact hturn
  obtain ⟨hids', _, _⟩ := Renaming.keeps_of_passes hpass hids hplain
  refine ⟨?_, ?_⟩
  · intro a ha b hb hne name haname hbname hencloses
    have hbindings : (a.binding name).encloses (b.binding name) = true :=
      Binding.encloses_iff.mpr ((hids'.encloses_iff_binding ha hb name).mp hencloses)
    obtain ⟨ha₀, hb₀⟩ := Renaming.mem_bindings_of_passes hpass hids hplain
      (Node.binding_mem_bindings ha haname) (Node.binding_mem_bindings hb hbname)
      (fun hid => hne (hids'.eq_of_id_eq ha hb hid)) rfl hbindings
    have hsame (c : Cursor) (hc : c.binding name ∈ tree.bindings) :
        ∃ c₀ ∈ tree.cursors, c₀.node.id = c.node.id ∧ c₀.IsVariable name := by
      obtain ⟨c₀, hc₀, hname, hbinding⟩ := Node.mem_bindings.mp hc
      exact ⟨c₀, hc₀, (congrArg Binding.id hbinding).symm, hname⟩
    exact ⟨hsame a ha₀, hsame b hb₀⟩
  · rintro a₀ ha₀ a ha hid old name hold hname hne inner classDecl outer hanc hinner m hm rfl
    have htarget : a.node.id ∈ renamings.map Renaming.target := by
      by_contra hother
      have hsame := Renaming.isVariable_of_passes hpass hids hplain ha₀ ha hid hother hname
      exact hne (Option.some.inj (hsame.2.symm.trans hold.2))
    refine (Renaming.avoids_of_passes hpass hids hplain ha hname htarget).1 ?_
    rw [Cursor.inheritedInView]
    exact Cursor.mem_inheritedNames.mpr ⟨inner, outer, classDecl, hanc, hinner, m, hm, rfl⟩

/-- `class A extends B { int x; m() { int x; } static class C { int x; } }`, where `B` has a member
    `x1`. -/
def inheritingLocal : Node :=
  let name (id : NodeId) (spelling : String) : Node := ⟨id, {}, .ident spelling .unknown none⟩
  let declared (id : NodeId) : Node :=
    ⟨id, {}, .variableDecls [] (some (name (id + 1) "int"))
      [⟨id + 2, {}, .namedVar (name (id + 3) "x") none⟩]⟩
  let method : Node := ⟨20, {}, .methodDecl [] none none (name 21 "m") ⟨"", []⟩
    (some ⟨22, {}, .block [declared 30] ""⟩)⟩
  let nested : Node := ⟨40, {}, .classDecl [⟨41, {}, .modifier "static"⟩] ⟨"", .plain⟩ (name 42 "C")
    none none ⟨43, {}, .block [declared 50] ""⟩ .unknown⟩
  let inherited : ClassType := ⟨"A", .plain, some ⟨"B", .plain, none,
    [⟨"x1", .primitive .int, []⟩]⟩, []⟩
  ⟨0, {}, .classDecl [] ⟨"", .plain⟩ (name 1 "A") none (some ⟨" ", name 2 "B"⟩)
    ⟨3, {}, .block [declared 10, method, nested] ""⟩ (.declared inherited)⟩

theorem inheritingLocal_distinctIds : inheritingLocal.DistinctIds := by decide

theorem inheritingLocal_plainNames : inheritingLocal.PlainNames := by decide

theorem bindings_run_inheritingLocal :
    (Pipeline.run [Rule.hiddenField ⟨.default, none⟩] inheritingLocal).toOption.map
        (fun outcome => outcome.tree.bindings.map fun b => (b.id, b.name)) =
      some [(12, "x"), (32, "x2"), (52, "x")] := by
  decide +kernel

/-- In `inheritingLocal` the local variable passes over the name that is inherited, and the fields of
    both classes keep theirs. -/
theorem HiddenField.run_avoids_collisions_inheritingLocal :
    ∃ outcome, Pipeline.run [Rule.hiddenField ⟨.default, none⟩] inheritingLocal = .ok outcome ∧
      (outcome.tree.bindings.map fun b => (b.id, b.name)) =
        [(12, "x"), (32, "x2"), (52, "x")] ∧
      (∀ a ∈ outcome.tree.cursors, ∀ b ∈ outcome.tree.cursors, a ≠ b →
        ∀ name, a.IsVariable name → b.IsVariable name → a.Encloses b →
          (∃ a₀ ∈ inheritingLocal.cursors, a₀.node.id = a.node.id ∧ a₀.IsVariable name) ∧
            ∃ b₀ ∈ inheritingLocal.cursors, b₀.node.id = b.node.id ∧ b₀.IsVariable name) ∧
      ∀ a₀ ∈ inheritingLocal.cursors, ∀ a ∈ outcome.tree.cursors, a₀.node.id = a.node.id →
        ∀ old name, a₀.IsVariable old → a.IsVariable name → name ≠ old →
          ∀ inner classDecl outer, a.ancestors = inner ++ classDecl :: outer →
            (∀ n ∈ inner, n.isIsolated = false) →
            ∀ m ∈ classDecl.inheritedMembers, m.name ≠ name := by
  have hbindings := bindings_run_inheritingLocal
  cases hrun : Pipeline.run [Rule.hiddenField ⟨.default, none⟩] inheritingLocal with
  | error e => simp [hrun, Except.toOption] at hbindings
  | ok outcome =>
    simp only [hrun, Except.toOption, Option.map_some, Option.some.injEq] at hbindings
    exact ⟨outcome, rfl, hbindings, HiddenField.run_avoids_collisions inheritingLocal_distinctIds
      inheritingLocal_plainNames hrun⟩

end Restyle
