-- SUMMARY: The tree that a pipeline leaves does not depend on the order of its rules.
import Restyle.Proofs.Rule.Changes
import Restyle.Proofs.Rule.Idempotence

/-!
# The order of rules

A rule decides on its change by details of the tree that rules of other names leave alone
(`Rule.change?_eq_of_sketch_eq`), and the changes can be swapped. So two neighbours of different
names can be swapped in a pipeline (`Rule.outcome?_swap`), and a pipeline in which every rule occurs
once leaves the same tree in any order, or none in any order (`Pipeline.run_perm`).
-/

namespace Restyle

/-! ## Sharing -/

theorem Renaming.unshared_edit {τ ε : Type} {target : NodeId} {name : String} {c : Cursor}
    {rebuilt n' : Node} {s s' : Session τ} (htag : rebuilt.tag = c.node.tag)
    (hrebuilt : rebuilt.unshared = rebuilt)
    (h : Yields (edit target name c rebuilt : Edit τ ε Node) s n' s') : n'.unshared = n' := by
  unfold edit at h
  split at h
  · rename_i hkind
    split at h
    · obtain ⟨rfl, _⟩ := Edit.yields_replace.mp h
      have hvar : rebuilt.tag = .namedVar := by
        rw [htag, Node.tag, hkind]
        rfl
      rw [Node.respellVariable_eq_renameHere hvar,
        Node.renameHere_past Node.retouches_unshared rfl rfl, hrebuilt]
    · obtain ⟨rfl, _⟩ := yields_pure.mp h
      exact hrebuilt
  · split at h
    · obtain ⟨rfl, _⟩ := Edit.yields_replace.mp h
      rw [Node.respell_past Node.retouches_unshared rfl, hrebuilt]
    · obtain ⟨rfl, _⟩ := yields_pure.mp h
      exact hrebuilt
  · obtain ⟨rfl, _⟩ := yields_pure.mp h
    exact hrebuilt

namespace Rule

variable {rule other : Rule} {tree tree' : Node}

/-- No rule makes two nodes one. -/
theorem Steps.unshared (h : rule.Steps tree tree') (htree : tree.unshared = tree) :
    tree'.unshared = tree' := by
  obtain ⟨out, hout, rfl⟩ := h
  cases rule with
  | hiddenField hidden =>
    rcases apply_cases hout with ⟨_, _, _, _, rfl⟩ | ⟨hother, _⟩
    · exact htree
    · exact absurd rfl (hother hidden)
  | rename r =>
    rcases Renaming.apply_cases hout with ⟨_, rfl⟩ | ⟨_, name, _, _, _, s, hrun, _⟩
    · exact htree
    · refine Cursor.unshared_edited_of_unshared ?_ hrun htree
      intro d rebuilt n' s s' _ htag hrebuilt hedit
      exact Renaming.unshared_edit htag hrebuilt hedit
  | forHeader policy =>
    obtain ⟨s, hrun, _, _⟩ := RuleOutput.ofSession_eq_ok hout
    refine Cursor.unshared_edited_of_unshared ?_ hrun htree
    intro d rebuilt n' s s' _ _ hrebuilt hedit
    unfold ForHeader.edit at hedit
    split at hedit
    · obtain ⟨rfl, _⟩ := Edit.yields_replace.mp hedit
      rw [ForHeader.sparesLoops_unshared.pad_past (fun _ _ _ _ _ _ _ _ => rfl), hrebuilt]
    · obtain ⟨rfl, _⟩ := yields_pure.mp hedit
      exact hrebuilt
  | typeParameterList =>
    obtain ⟨s, hrun, _, _⟩ := RuleOutput.ofSession_eq_ok hout
    refine Cursor.unshared_edited_of_unshared ?_ hrun htree
    intro d rebuilt n' s s' hformatting _ hrebuilt hedit
    obtain ⟨f, rfl, _⟩ := TypeParameterList.exists_trimmed_of_edit hformatting hedit
    rw [Node.retouches_unshared.withFormatting, hrebuilt]
  | addFinal =>
    obtain ⟨_, s, _, hrun, _, _⟩ := AddFinal.apply_eq_ok hout
    refine Cursor.unshared_edited_of_unshared ?_ hrun htree
    intro d rebuilt n' s s' _ _ hrebuilt hedit
    rcases AddFinal.yields_edit.mp hedit with ⟨_, rfl, _⟩ | ⟨_, _, _, rfl, _⟩
    · exact hrebuilt
    · have hpast := @AddFinal.withModifier_past _ _ _ Node.retouches_unshared rfl rfl s.state
        (fun _ => rfl) rebuilt fun _ _ _ => rfl
      rw [hrebuilt] at hpast
      exact hpast

/-! ## Two rules -/

/-- A rule decides on its change by what rules of other names leave alone. -/
theorem change?_eq_of_sketch_eq (hrule : ∀ r, rule ≠ .rename r) (hids : tree.DistinctIds)
    (hids' : tree'.DistinctIds) (h : tree.sketch rule.view = tree'.sketch rule.view) :
    rule.change? tree = rule.change? tree' := by
  have halike := Node.alike_of_sketch_eq h
  cases rule with
  | hiddenField hidden =>
    rw [change?, change?, HiddenField.namings?_eq_of_sketch_eq h]
  | rename r => exact absurd rfl (hrule r)
  | forHeader policy => rfl
  | typeParameterList =>
    have hplaced : TypeParameterList.Placed tree ↔ TypeParameterList.Placed tree' :=
      ⟨.of_alike halike, .of_alike halike.symm⟩
    simp only [change?, hplaced, TypeParameterList.cuts_eq_of_alike halike hids hids']
  | addFinal =>
    obtain ⟨hmarks, hroom⟩ := AddFinal.marks_eq_of_sketch_eq h
    simp only [change?, hmarks, hroom]

/-- The tree that a rule leaves, with all that it schedules, if it leaves one. -/
def outcome? (rule : Rule) (tree : Node) : Option Node :=
  (rule.change? tree).map fun change => change tree

/-- Trees on which rules can be swapped. -/
structure Swappable (tree : Node) : Prop where
  distinctIds : tree.DistinctIds
  plainFronts : tree.PlainFronts
  unshared : tree.unshared = tree

theorem swappable_unshared (hids : tree.DistinctIds) (hfronts : tree.PlainFronts) :
    Swappable tree.unshared where
  distinctIds := by
    rw [Node.DistinctIds, Node.ids_unshared]
    exact hids
  plainFronts := (Node.alike_of_sketch_eq (tree.sketch_unshared .skeleton).symm).plainFronts hfronts
  unshared := tree.unshared_unshared

namespace Swappable

/-- What a rule leaves is the tree that it turns a tree into, with nothing shared. -/
theorem exists_turns (htree : Swappable tree) (h : rule.outcome? tree = some tree') :
    ∃ left, rule.Turns tree left ∧ left.unshared = tree' := by
  let start : Pipeline.Progress := ⟨tree, []⟩
  have hrun : (Pipeline.runRule rule start).toOption.map (fun p => p.tree.unshared) = some tree' := by
    rw [Pipeline.runRule_unshared htree.distinctIds, ← h]
    change (rule.change? tree).map _ = (rule.change? tree).map _
    rw [htree.unshared]
  cases hok : Pipeline.runRule rule start with
  | error e =>
    rw [hok] at hrun
    cases hrun
  | ok p =>
    rw [hok] at hrun
    exact ⟨p.tree, Pipeline.turns_of_runRule hok, Option.some.inj hrun⟩

theorem of_outcome? (htree : Swappable tree) (h : rule.outcome? tree = some tree') :
    Swappable tree' := by
  obtain ⟨left, hturns, rfl⟩ := htree.exists_turns h
  exact swappable_unshared (hturns.distinctIds htree.distinctIds)
    (hturns.alike.plainFronts htree.plainFronts)

/-- A rule does not change the mind of a rule of another name. -/
theorem change?_eq (htree : Swappable tree) (hrule : ∀ r, rule ≠ .rename r)
    (hother : ∀ r, other ≠ .rename r) (hname : rule.name ≠ other.name)
    (h : rule.outcome? tree = some tree') : other.change? tree' = other.change? tree := by
  have hids' := (htree.of_outcome? h).distinctIds
  obtain ⟨left, hturns, rfl⟩ := htree.exists_turns h
  refine change?_eq_of_sketch_eq hother hids' htree.distinctIds ?_
  rw [Node.sketch_unshared]
  exact hturns.sketch_eq (spares_view hrule hname)

/-- After a rule of another name, a rule makes the change that it would have made before. -/
theorem outcome?_bind (htree : Swappable tree) (hrule : ∀ r, rule ≠ .rename r)
    (hother : ∀ r, other ≠ .rename r) (hname : rule.name ≠ other.name) :
    (rule.outcome? tree).bind other.outcome? = (rule.change? tree).bind fun change =>
      (other.change? tree).map fun change' => change' (change tree) := by
  cases h : rule.change? tree with
  | none =>
    rw [outcome?, h]
    rfl
  | some change =>
    have hout : rule.outcome? tree = some (change tree) := by
      rw [outcome?, h]
      rfl
    rw [hout, Option.bind_some, outcome?, htree.change?_eq hrule hother hname hout]
    rfl

/-- Two rules of different names leave the same tree in both orders. -/
theorem outcome?_swap (htree : Swappable tree) (hrule : ∀ r, rule ≠ .rename r)
    (hother : ∀ r, other ≠ .rename r) (hname : rule.name ≠ other.name) :
    (rule.outcome? tree).bind other.outcome? = (other.outcome? tree).bind rule.outcome? := by
  rw [htree.outcome?_bind hrule hother hname, htree.outcome?_bind hother hrule hname.symm]
  cases h : rule.change? tree with
  | none => cases other.change? tree <;> rfl
  | some change =>
    cases h' : other.change? tree with
    | none => rfl
    | some change' =>
      have hcomm := commutes_of_name_ne htree.distinctIds htree.plainFronts hrule hother hname
      exact congrArg some (hcomm change change' h h').symm

end Swappable

end Rule

/-! ## Pipelines -/

namespace Pipeline

variable {rules rules' : List Rule} {tree : Node}

/-- The tree that rules leave one after another, if they leave one. -/
def outcome? (rules : List Rule) (tree : Node) : Option Node :=
  rules.foldlM (fun tree rule => rule.outcome? tree) tree

theorem outcome?_cons (rule : Rule) (rules : List Rule) (tree : Node) :
    outcome? (rule :: rules) tree = (rule.outcome? tree).bind (outcome? rules) := by
  rw [outcome?, List.foldlM_cons]
  rfl

theorem outcome?_perm (hperm : rules.Perm rules') (htree : Rule.Swappable tree)
    (hrules : ∀ r, Rule.rename r ∉ rules) (honce : (rules.map Rule.name).Nodup) :
    outcome? rules tree = outcome? rules' tree := by
  induction hperm generalizing tree with
  | nil => rfl
  | cons rule _ ih =>
    rw [outcome?_cons, outcome?_cons]
    cases h : rule.outcome? tree with
    | none => rfl
    | some tree₁ =>
      refine ih (htree.of_outcome? h) ?_ (List.nodup_cons.mp honce).2
      intro r hr
      exact hrules r (List.mem_cons_of_mem _ hr)
  | swap rule other rules =>
    have hname : other.name ≠ rule.name := by
      have hnot := (List.nodup_cons.mp honce).1
      intro heq
      exact hnot (by simp [heq])
    have hswap := htree.outcome?_swap (fun r heq => hrules r (by simp [heq]))
      (fun r heq => hrules r (by simp [heq])) hname
    have htwo (first second : Rule) : outcome? (first :: second :: rules) tree =
        ((first.outcome? tree).bind second.outcome?).bind (outcome? rules) := by
      rw [outcome?_cons, Option.bind_assoc]
      rfl
    rw [htwo, htwo, hswap]
  | trans hfirst _ ih ih' =>
    refine (ih htree hrules honce).trans (ih' htree ?_ ?_)
    · intro r hr
      exact hrules r (hfirst.mem_iff.mpr hr)
    · exact (hfirst.map Rule.name).nodup_iff.mp honce

/-- A run leaves the tree that its rules leave one after another. -/
theorem runAll_unshared {p : Progress} (hids : p.tree.DistinctIds)
    (hrules : ∀ r, Rule.rename r ∉ rules) :
    (runAll rules p).toOption.map (fun p' => p'.tree.unshared) = outcome? rules p.tree.unshared := by
  induction rules generalizing p with
  | nil => rfl
  | cons rule rules ih =>
    have hchange : rule.change? p.tree.unshared = rule.change? p.tree := by
      refine Rule.change?_eq_of_sketch_eq ?_ ?_ hids (p.tree.sketch_unshared _)
      · intro r heq
        exact hrules r (by simp [heq])
      · rw [Node.DistinctIds, Node.ids_unshared]
        exact hids
    rw [outcome?_cons, Rule.outcome?, hchange, ← runRule_unshared hids, runAll, List.foldlM_cons]
    cases hrule : runRule rule p with
    | error e => rfl
    | ok p₁ =>
      refine ih ((turns_of_runRule hrule).distinctIds hids) ?_
      intro r hr
      exact hrules r (List.mem_cons_of_mem _ hr)

theorem run_unshared (hids : tree.DistinctIds) (hrules : ∀ r, Rule.rename r ∉ rules) :
    (run rules tree).toOption.map (fun outcome => outcome.tree.unshared) =
      outcome? rules tree.unshared := by
  have hall := runAll_unshared (p := ⟨tree, []⟩) hids hrules
  rw [← hall, run]
  cases runAll rules ⟨tree, []⟩ <;> rfl

/-- A run makes no two nodes one. -/
theorem unshared_of_run {outcome : Outcome} (h : run rules tree = .ok outcome)
    (htree : tree.unshared = tree) : outcome.tree.unshared = outcome.tree := by
  obtain ⟨applied, hsteps⟩ := exists_steps_of_run h
  clear h
  generalize outcome.tree = tree' at hsteps
  induction hsteps with
  | nil tree => exact htree
  | cons hstep _ ih => exact ih (hstep.unshared htree)

/-- The order of the rules does not matter if every rule occurs once: both pipelines leave a tree and
    it is the same, or both fail. The trees are the same up to the record of which nodes are one, and
    entirely if no two nodes were one to begin with. -/
theorem run_perm (hperm : rules.Perm rules') (hids : tree.DistinctIds) (hfronts : tree.PlainFronts)
    (hrules : ∀ r, Rule.rename r ∉ rules) (honce : (rules.map Rule.name).Nodup) :
    (∃ outcome outcome', run rules tree = .ok outcome ∧ run rules' tree = .ok outcome' ∧
      outcome.tree.unshared = outcome'.tree.unshared ∧
      (tree.unshared = tree → outcome.tree = outcome'.tree)) ∨
    ((∃ e, run rules tree = .error e) ∧ ∃ e, run rules' tree = .error e) := by
  have hrules' (r : Renaming) : Rule.rename r ∉ rules' := by
    intro hr
    exact hrules r (hperm.mem_iff.mpr hr)
  have hsame : (run rules tree).toOption.map (fun outcome => outcome.tree.unshared) =
      (run rules' tree).toOption.map fun outcome => outcome.tree.unshared := by
    rw [run_unshared hids hrules, run_unshared hids hrules']
    exact outcome?_perm hperm (Rule.swappable_unshared hids hfronts) hrules honce
  cases hrun : run rules tree with
  | error e =>
    cases hrun' : run rules' tree with
    | error e' => exact .inr ⟨⟨e, rfl⟩, ⟨e', rfl⟩⟩
    | ok outcome' =>
      rw [hrun, hrun'] at hsame
      cases hsame
  | ok outcome =>
    cases hrun' : run rules' tree with
    | error e' =>
      rw [hrun, hrun'] at hsame
      cases hsame
    | ok outcome' =>
      rw [hrun, hrun'] at hsame
      have htrees : outcome.tree.unshared = outcome'.tree.unshared := Option.some.inj hsame
      refine .inl ⟨outcome, outcome', rfl, rfl, htrees, ?_⟩
      intro htree
      rw [← unshared_of_run hrun htree, htrees, unshared_of_run hrun' htree]

/-- `hidingLocal` comes out the same whether its variable is marked first or renamed first. -/
theorem run_perm_hidingLocal :
    ∃ outcome outcome', run oneOfEach hidingLocal = .ok outcome ∧
      run oneOfEach.reverse hidingLocal = .ok outcome' ∧ outcome.isChanged = true ∧
      outcome.tree = outcome'.tree := by
  have hchanged : (run oneOfEach hidingLocal).toOption.map Outcome.isChanged = some true := by
    decide +kernel
  have hperm : oneOfEach.Perm oneOfEach.reverse := (List.reverse_perm _).symm
  have hfronts : hidingLocal.PlainFronts := by decide
  rcases run_perm hperm hidingLocal_distinctIds hfronts (by simp [oneOfEach]) (by decide) with
    ⟨outcome, outcome', hrun, hrun', _, htrees⟩ | ⟨⟨e, hrun⟩, _⟩
  · rw [hrun] at hchanged
    exact ⟨outcome, outcome', hrun, hrun', Option.some.inj hchanged, htrees rfl⟩
  · rw [hrun] at hchanged
    cases hchanged

end Pipeline

end Restyle
