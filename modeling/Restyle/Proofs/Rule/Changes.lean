-- SUMMARY: The rules as changes of trees, and that the changes of different rules can be swapped.
import Restyle.Proofs.Finality.Marked
import Restyle.Proofs.Naming.Plan
import Restyle.Proofs.Rule.WellFormed
import Restyle.Proofs.Spacing.Padded
import Restyle.Proofs.Spacing.Trimmed

/-!
# Rules as changes

A rule of a pipeline, with all that it schedules, decides on a change of the tree and then makes it
(`Rule.change?`). That is what a run of the rule computes, apart from the record of which nodes are
one (`Pipeline.runRule_unshared`).

The changes of different rules touch different parts of a node: names, the text around empty
initializers, the text around type parameters, and what stands in front of a declaration. So they
can be swapped (`Rule.commutes_of_name_ne`). Only a list of type parameters in front of a
declaration would be touched by two rules.
-/

namespace Restyle

/-- The change that a rule makes, with all that it schedules, if it can make one. -/
def Rule.change? : Rule → Node → Option (Node → Node)
  | .hiddenField rule, tree => (rule.namings? tree).map Node.renamedAll
  | .rename r, tree => (r.namings? tree).map Node.renamedAll
  | .forHeader policy, _ => some (ForHeader.padded policy.padding)
  | .typeParameterList, tree =>
    if TypeParameterList.Placed tree then some (Node.reformat (TypeParameterList.cuts tree)) else none
  | .addFinal, tree =>
    if AddFinal.HasRoom tree then some (AddFinal.marked (AddFinal.marks tree)) else none

/-! ## Runs of a rule -/

section Runs

variable {rule : Rule} {tree : Node}

/-- A result that there is under a condition only. -/
theorem Except.toOption_map_eq_ite {ε α β : Type} {x : Except ε α} {f : α → β} {b : β}
    {allowed : Prop} [Decidable allowed] (hallowed : (∃ a, x = .ok a) ↔ allowed)
    (h : ∀ a, x = .ok a → f a = b) : x.toOption.map f = if allowed then some b else none := by
  cases x with
  | error e =>
    have hnot : ¬allowed := by
      intro hyes
      obtain ⟨a, ha⟩ := hallowed.mpr hyes
      cases ha
    rw [if_neg hnot]
    rfl
  | ok a =>
    rw [if_pos (hallowed.mp ⟨a, rfl⟩)]
    exact congrArg some (h a rfl)

theorem Renaming.apply_unshared {R : Type} (r : Renaming) (tree : Node) :
    (r.apply tree : Except RuleError (RuleOutput R)).toOption.map (fun out => out.tree.unshared) =
      (r.namings? tree).map fun namings => tree.unshared.renamedAll namings := by
  unfold namings?
  cases htarget : tree.bindings.find? fun b => b.id == r.target with
  | none =>
    rw [apply, htarget]
    rfl
  | some target =>
    dsimp only
    cases hname : r.freshName tree target with
    | error e =>
      rw [apply, htarget]
      simp only [hname]
      rfl
    | ok name =>
      obtain ⟨out, hout, _, htree⟩ := exists_apply_renamed (R := R) htarget hname
      rw [hout]
      exact congrArg some htree

/-- A rule that schedules nothing makes its change. -/
theorem Rule.apply_unshared (hids : tree.DistinctIds)
    (hrule : ∀ hidden, rule ≠ .hiddenField hidden) :
    (rule.apply tree).toOption.map (fun out => out.tree.unshared) =
      (rule.change? tree).map fun change => change tree.unshared := by
  cases rule with
  | hiddenField hidden => exact absurd rfl (hrule hidden)
  | rename r =>
    change (r.apply tree).toOption.map _ = ((r.namings? tree).map _).map _
    rw [Renaming.apply_unshared, Option.map_map]
    rfl
  | forHeader policy =>
    obtain ⟨out, hout, _, htree⟩ := ForHeader.exists_apply_padded (R := Rule) policy tree
    change (ForHeader.apply policy tree).toOption.map _ = _
    rw [hout]
    exact congrArg some htree
  | typeParameterList =>
    rw [change?, apply_ite (Option.map _)]
    exact Except.toOption_map_eq_ite TypeParameterList.exists_apply_iff fun _ =>
      TypeParameterList.unshared_of_apply hids
  | addFinal =>
    rw [change?, apply_ite (Option.map _)]
    exact Except.toOption_map_eq_ite AddFinal.exists_apply_iff fun _ =>
      AddFinal.unshared_of_apply hids

namespace Pipeline

variable {p : Progress} {out : RuleOutput Rule}

theorem applyRule_of_ok (h : rule.apply p.tree = .ok out) :
    applyRule rule p = .ok (⟨out.tree, out.transforms.reverse ++ p.replaced⟩, out.followUps) :=
  applyRule_eq_ok_iff.mpr ⟨out, h, rfl, rfl⟩

theorem applyRule_of_error {e : RuleError} (h : rule.apply p.tree = .error e) :
    applyRule rule p = .error ⟨rule.name, e⟩ :=
  applyRule_eq_error_iff.mpr ⟨e, h, rfl⟩

/-- A queue of renamings renames one variable after another, if the budget is large enough. -/
theorem work_renamings {origin : Rule} {renamings : List Renaming} {budget : Nat} :
    (work origin budget (renamings.map Rule.rename) p).toOption.map (fun p' => p'.tree.unshared) =
      if renamings.length ≤ budget then
        (Renaming.namingsAll? renamings p.tree.unshared).map fun namings =>
          p.tree.unshared.renamedAll namings
      else none := by
  induction renamings generalizing budget p with
  | nil =>
    rw [List.map_nil, work]
    rfl
  | cons r renamings ih =>
    cases budget with
    | zero => rfl
    | succ budget =>
      have hfirst := Renaming.apply_unshared (R := Rule) r p.tree
      have hnamings : r.namings? p.tree.unshared = r.namings? p.tree :=
        Renaming.namings?_eq_of_sketch_eq (Node.sketch_unshared _ _) r
      rw [List.map_cons, work]
      simp only [List.length_cons, Nat.add_le_add_iff_right]
      cases happly : r.apply p.tree with
      | error e =>
        rw [happly] at hfirst
        have hnone : r.namings? p.tree = none := Option.map_eq_none_iff.mp hfirst.symm
        have herror : applyRule (Rule.rename r) p = .error _ := applyRule_of_error happly
        rw [herror, Renaming.namingsAll?, hnamings, hnone]
        exact (ite_self none).symm
      | ok out =>
        rw [happly] at hfirst
        obtain ⟨first, hsome, htree⟩ := Option.map_eq_some_iff.mp hfirst.symm
        have happly' : (Rule.rename r).apply p.tree = .ok out := happly
        have hfollow : out.followUps = [] := by
          rcases Rule.apply_cases happly' with ⟨_, _, hrule, _⟩ | ⟨_, hfollow⟩
          · cases hrule
          · exact hfollow
        rw [applyRule_of_ok happly', hfollow, Renaming.namingsAll?_cons (hnamings.trans hsome),
          Option.map_map]
        dsimp only
        rw [List.append_nil, ih]
        rw [← show p.tree.unshared.renamedAll first = out.tree.unshared from htree]
        simp only [Function.comp_def, Node.renamedAll_append]

theorem runRule_hiddenField {hidden : HiddenField} {renamings : List Renaming}
    (h : hidden.scheduled p.tree = .ok renamings) : runRule (Rule.hiddenField hidden) p =
      work (Rule.hiddenField hidden) followUpLimit (renamings.map Rule.rename) p := by
  have happly : (Rule.hiddenField hidden).apply p.tree =
      .ok { tree := p.tree, followUps := renamings.map Rule.rename } := by
    change hidden.apply p.tree = _
    rw [HiddenField.apply, h]
  rw [runRule_eq_work, work, applyRule_of_ok happly]
  rfl

/-- A rule of a pipeline, with all that it schedules, makes its change. -/
theorem runRule_unshared (hids : p.tree.DistinctIds) :
    (runRule rule p).toOption.map (fun p' => p'.tree.unshared) =
      (rule.change? p.tree).map fun change => change p.tree.unshared := by
  by_cases hhidden : ∃ hidden, rule = .hiddenField hidden
  · obtain ⟨hidden, rfl⟩ := hhidden
    have hchange : (Rule.hiddenField hidden).change? p.tree =
        (hidden.namings? p.tree).map Node.renamedAll := rfl
    rw [hchange, HiddenField.namings?]
    cases hscheduled : hidden.scheduled p.tree with
    | error e =>
      have happly : (Rule.hiddenField hidden).apply p.tree = .error (.tree e) := by
        change hidden.apply p.tree = _
        rw [HiddenField.apply, hscheduled]
      rw [runRule, applyRule_of_error happly]
      rfl
    | ok renamings =>
      have hnamings := Renaming.namingsAll?_eq_of_sketch_eq (p.tree.sketch_unshared _) renamings
      rw [runRule_hiddenField hscheduled, work_renamings, hnamings]
      dsimp only
      split
      · rw [Option.map_map]
        rfl
      · rfl
  · rw [← Rule.apply_unshared hids fun hidden h => hhidden ⟨hidden, h⟩]
    cases happly : rule.apply p.tree with
    | error e =>
      rw [runRule, applyRule_of_error happly]
      rfl
    | ok out =>
      have hfollow : out.followUps = [] := by
        rcases Rule.apply_cases happly with ⟨hidden, _, hrule, _⟩ | ⟨_, hfollow⟩
        · exact absurd ⟨hidden, hrule⟩ hhidden
        · exact hfollow
      rw [runRule, applyRule_of_ok happly, hfollow]
      rfl

end Pipeline

end Runs

/-! ## Swapping changes -/

namespace Node

variable {σ : Sketch} {tree tree' : Node}

/-- No list of type parameters stands in front of a declaration. -/
def PlainFronts (tree : Node) : Prop := ∀ n ∈ tree.nodes, ∀ m ∈ n.front, m.tag ≠ .typeParameters

instance (tree : Node) : Decidable tree.PlainFronts :=
  inferInstanceAs (Decidable (∀ n ∈ tree.nodes, ∀ m ∈ n.front, m.tag ≠ .typeParameters))

theorem Alike.plainFronts (h : tree.Alike σ tree') (htree : tree.PlainFronts) :
    tree'.PlainFronts := by
  refine h.forall_nodes ?_ ?_ htree
  · intro n hn m hm
    simp [isPlace, (of_mem_front hm).1] at hn
  · intro n n' hn hplain m' hm' hlist
    have hplace : m'.isPlace = true := by simp [isPlace, hlist]
    obtain ⟨m, hm, hmatch⟩ := exists_left_of_forall₂ hn.front (List.mem_filter.mpr ⟨hm', hplace⟩)
    exact hplain m (List.mem_filter.mp hm).1 (hmatch.tag_eq.trans hlist)

/-- Renaming can be swapped with a change that leaves variables and names alone, if it can be at the
    nodes that the change treats specially. -/
theorem renamedAll_comm {change : Node → Node} {text : NodeId → Formatting → Formatting}
    {special : Tag → Bool} (h : Retouches change text special) (hvar : special .namedVar = false)
    (hident : special .ident = false)
    (hspecial : ∀ target name n, special n.tag = true →
      (∀ child ∈ n.children, (change child).renamed target name = change (child.renamed target name)) →
      (change n).renamed target name = change (n.renamed target name))
    (namings : List (NodeId × String)) (tree : Node) :
    (change tree).renamedAll namings = change (tree.renamedAll namings) := by
  induction namings generalizing tree with
  | nil => rfl
  | cons naming namings ih =>
    have hfirst : (change tree).renamed naming.1 naming.2 = change (tree.renamed naming.1 naming.2) := by
      refine comm_of_step ?_
      intro n _ ihn
      cases hn : special n.tag with
      | true => exact hspecial _ _ n hn ihn
      | false => exact renamed_comm h hvar hident hn ihn
    exact (congrArg (renamedAll namings) hfirst).trans (ih _)

end Node

section Swaps

variable {tree : Node}

theorem ForHeader.renamedAll_padded (padding : String) (namings : List (NodeId × String))
    (tree : Node) :
    (padded padding tree).renamedAll namings = padded padding (tree.renamedAll namings) := by
  refine Node.renamedAll_comm (retouches_padded padding) rfl rfl ?_ namings tree
  intro target name n hn ih
  have hspares : SparesLoops (Node.renamed target name) _ _ :=
    ⟨Node.retouches_renamed target name, rfl, rfl⟩
  have hloop : n.tag = .forLoop := by simpa using hn
  refine (hspares.padded_comm (by rw [hloop]; rfl) (fun _ _ _ => rfl) ?_).symm
  intro child hchild
  exact (ih child hchild).symm

theorem AddFinal.renamedAll_marked (ids : NodeId → Option NodeId) (namings : List (NodeId × String))
    (tree : Node) : (marked ids tree).renamedAll namings = marked ids (tree.renamedAll namings) := by
  refine Node.renamedAll_comm (retouches_marked ids) rfl rfl ?_ namings tree
  intro target name n hn ih
  have hdecl : n.tag = .variableDecls := by simpa using hn
  refine (marked_comm (Node.retouches_renamed target name) rfl rfl (fun _ _ _ _ => rfl)
    (by rw [hdecl]; rfl) (fun _ _ _ => rfl) ?_).symm
  intro child hchild
  exact (ih child hchild).symm

theorem TypeParameterList.renamedAll_reformat (text : NodeId → Formatting → Formatting)
    (namings : List (NodeId × String)) (tree : Node) :
    (tree.reformat text).renamedAll namings = (tree.renamedAll namings).reformat text := by
  refine Node.renamedAll_comm (Node.retouches_reformat text) rfl rfl ?_ namings tree
  intro _ _ n hn
  cases hn

theorem AddFinal.marked_padded (ids : NodeId → Option NodeId) (padding : String) (tree : Node) :
    marked ids (ForHeader.padded padding tree) = ForHeader.padded padding (marked ids tree) := by
  refine Node.comm_of_step ?_
  intro n _ ih
  by_cases hdecl : n.tag = .variableDecls
  · exact marked_comm (ForHeader.retouches_padded padding) rfl rfl (fun _ _ _ _ => rfl)
      (by rw [hdecl]; rfl) (fun _ _ _ => rfl) ih
  · have hspares : ForHeader.SparesLoops (marked ids) _ _ := ⟨retouches_marked ids, rfl, rfl⟩
    refine (hspares.padded_comm (by simpa using hdecl) (fun _ _ _ => rfl) ?_).symm
    intro child hchild
    exact (ih child hchild).symm

/-- An empty initializer is no type parameter. -/
theorem ForHeader.padded_cuts (hids : tree.DistinctIds) (padding : String) :
    padded padding (tree.reformat (TypeParameterList.cuts tree)) =
      (padded padding tree).reformat (TypeParameterList.cuts tree) := by
  have hspares : SparesLoops (Node.reformat (TypeParameterList.cuts tree)) _ _ :=
    ⟨Node.retouches_reformat _, rfl, rfl⟩
  refine Node.comm_of_step ?_
  intro n hn ih
  refine hspares.padded_comm rfl ?_ ih
  intro init hinit f
  obtain ⟨c, hc, rfl⟩ := List.mem_map.mp hn
  obtain ⟨control, body, condition, update, hloop, hcontrol, htag⟩ :=
    emptyInitializer?_eq_some.mp hinit
  obtain ⟨d, hd, rfl⟩ := c.exists_mem_children (n := control) (by simp [Node.children, hloop, Kind.children])
  obtain ⟨e, he, rfl⟩ := d.exists_mem_children (n := init)
    (by simp [Node.children, hcontrol, Kind.children])
  have hmem := Node.mem_cursors_of_mem_children (Node.mem_cursors_of_mem_children hc hd) he
  rw [TypeParameterList.cuts_of_mem hids hmem, TypeParameterList.cut_of_tag_ne] <;> simp [htag]

/-- A new modifier has an id of its own, and no type parameters stand in front of a declaration. -/
theorem AddFinal.marked_cuts (hids : tree.DistinctIds) (hfronts : tree.PlainFronts)
    (hplaced : TypeParameterList.Placed tree) (hroom : HasRoom tree) :
    marked (marks tree) (tree.reformat (TypeParameterList.cuts tree)) =
      (marked (marks tree) tree).reformat (TypeParameterList.cuts tree) := by
  refine Node.comm_of_step ?_
  intro n hn ih
  refine marked_comm (Node.retouches_reformat _) rfl rfl ?_ rfl ?_ ih
  · intro decl id hid f
    refine TypeParameterList.cuts_of_not_mem ?_ f
    intro hmem
    have hle : id.toNat ≤ tree.maxId.toNat := Node.le_maxId hmem
    exact absurd (lt_of_marks hroom hid) (by omega)
  · intro m hm f
    have hplain := hfronts n hn m hm
    obtain ⟨c, hc, rfl⟩ := List.mem_map.mp hn
    obtain ⟨hdecl, hchild⟩ := Node.of_mem_front hm
    obtain ⟨d, hd, rfl⟩ := c.exists_mem_children hchild
    have hmem := Node.mem_cursors_of_mem_children hc hd
    have hparameter : d.node.tag ≠ .typeParameter := by
      intro htag
      have hparent : d.parent? = some c.node := by
        rw [Cursor.parent?, (Cursor.mem_children.mp hd).2]
        rfl
      have hlist := hplaced d hmem htag
      rw [hparent, Option.map_some, hdecl] at hlist
      cases hlist
    rw [TypeParameterList.cuts_of_mem hids hmem, TypeParameterList.cut_of_tag_ne hplain hparameter]

end Swaps

namespace Rule

variable {rule other : Rule} {tree : Node} {hidden : HiddenField} {policy : PadPolicy}

/-- Whatever changes two rules make to a tree, they can be swapped. -/
def Commutes (tree : Node) (rule other : Rule) : Prop :=
  ∀ change change' : Node → Node, rule.change? tree = some change →
    other.change? tree = some change' → change (change' tree) = change' (change tree)

theorem Commutes.symm (h : Commutes tree rule other) : Commutes tree other rule :=
  fun change change' hchange hchange' => (h change' change hchange' hchange).symm

theorem of_change?_typeParameterList {cut : Node → Node}
    (h : Rule.typeParameterList.change? tree = some cut) :
    TypeParameterList.Placed tree ∧ Node.reformat (TypeParameterList.cuts tree) = cut := by
  simpa [change?] using h

theorem of_change?_addFinal {mark : Node → Node} (h : Rule.addFinal.change? tree = some mark) :
    AddFinal.HasRoom tree ∧ AddFinal.marked (AddFinal.marks tree) = mark := by
  simpa [change?] using h

theorem hiddenField_commutes_forHeader : Commutes tree (.hiddenField hidden) (.forHeader policy) := by
  intro _ _ h h'
  obtain ⟨namings, _, rfl⟩ := Option.map_eq_some_iff.mp h
  obtain rfl := Option.some.inj h'
  exact ForHeader.renamedAll_padded _ _ _

theorem hiddenField_commutes_typeParameterList :
    Commutes tree (.hiddenField hidden) .typeParameterList := by
  intro _ _ h h'
  obtain ⟨namings, _, rfl⟩ := Option.map_eq_some_iff.mp h
  obtain ⟨_, rfl⟩ := of_change?_typeParameterList h'
  exact TypeParameterList.renamedAll_reformat _ _ _

theorem hiddenField_commutes_addFinal : Commutes tree (.hiddenField hidden) .addFinal := by
  intro _ _ h h'
  obtain ⟨namings, _, rfl⟩ := Option.map_eq_some_iff.mp h
  obtain ⟨_, rfl⟩ := of_change?_addFinal h'
  exact AddFinal.renamedAll_marked _ _ _

theorem forHeader_commutes_typeParameterList (hids : tree.DistinctIds) :
    Commutes tree (.forHeader policy) .typeParameterList := by
  intro _ _ h h'
  obtain rfl := Option.some.inj h
  obtain ⟨_, rfl⟩ := of_change?_typeParameterList h'
  exact ForHeader.padded_cuts hids _

theorem addFinal_commutes_forHeader : Commutes tree .addFinal (.forHeader policy) := by
  intro _ _ h h'
  obtain ⟨_, rfl⟩ := of_change?_addFinal h
  obtain rfl := Option.some.inj h'
  exact AddFinal.marked_padded _ _ _

theorem addFinal_commutes_typeParameterList (hids : tree.DistinctIds) (hfronts : tree.PlainFronts) :
    Commutes tree .addFinal .typeParameterList := by
  intro _ _ h h'
  obtain ⟨hroom, rfl⟩ := of_change?_addFinal h
  obtain ⟨hplaced, rfl⟩ := of_change?_typeParameterList h'
  exact AddFinal.marked_cuts hids hfronts hplaced hroom

/-- The changes of rules with different names can be swapped. -/
theorem commutes_of_name_ne (hids : tree.DistinctIds) (hfronts : tree.PlainFronts)
    (hrule : ∀ r, rule ≠ .rename r) (hother : ∀ r, other ≠ .rename r)
    (hname : rule.name ≠ other.name) : Commutes tree rule other := by
  cases rule with
  | rename r => exact absurd rfl (hrule r)
  | hiddenField _ =>
    cases other with
    | rename r => exact absurd rfl (hother r)
    | hiddenField _ => exact absurd rfl hname
    | forHeader _ => exact hiddenField_commutes_forHeader
    | typeParameterList => exact hiddenField_commutes_typeParameterList
    | addFinal => exact hiddenField_commutes_addFinal
  | forHeader _ =>
    cases other with
    | rename r => exact absurd rfl (hother r)
    | hiddenField _ => exact hiddenField_commutes_forHeader.symm
    | forHeader _ => exact absurd rfl hname
    | typeParameterList => exact forHeader_commutes_typeParameterList hids
    | addFinal => exact addFinal_commutes_forHeader.symm
  | typeParameterList =>
    cases other with
    | rename r => exact absurd rfl (hother r)
    | hiddenField _ => exact hiddenField_commutes_typeParameterList.symm
    | forHeader _ => exact (forHeader_commutes_typeParameterList hids).symm
    | typeParameterList => exact absurd rfl hname
    | addFinal => exact (addFinal_commutes_typeParameterList hids hfronts).symm
  | addFinal =>
    cases other with
    | rename r => exact absurd rfl (hother r)
    | hiddenField _ => exact hiddenField_commutes_addFinal.symm
    | forHeader _ => exact addFinal_commutes_forHeader
    | typeParameterList => exact addFinal_commutes_typeParameterList hids hfronts
    | addFinal => exact absurd rfl hname

end Rule

end Restyle
