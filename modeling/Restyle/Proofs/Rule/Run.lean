-- SUMMARY: Runs of a pipeline as sequences of applied rules.
import Restyle.Proofs.Rule.Passes
import Restyle.Proofs.Rule.Worklist

/-!
# Runs

A run that succeeds is a sequence of applications, each on the tree that the last one left. Seen
rule by rule (`passes_turns_of_run`), a rule of the pipeline is either applied once or, for hidden
fields, followed by the renamings that it found. Seen application by application
(`exists_applies_of_run`, or `exists_steps_of_run` for the trees alone), it is enough for a property
to be kept by every rule. Either way, a rule keeps all sketches that spare it (`Rule.Spares`).
-/

namespace Restyle

/-- One application of a rule, as a step from tree to tree. -/
def Rule.Steps (rule : Rule) (tree tree' : Node) : Prop :=
  ∃ out, rule.apply tree = .ok out ∧ out.tree = tree'

/-- One application of a rule, as a step of a run in progress. -/
def Rule.Applies (rule : Rule) (p p' : Pipeline.Progress) : Prop :=
  ∃ out, rule.apply p.tree = .ok out ∧ p' = ⟨out.tree, out.transforms.reverse ++ p.replaced⟩

/-- One renaming, as a step from tree to tree. -/
def Renaming.Steps (r : Renaming) : Node → Node → Prop := (Rule.rename r).Steps

/-- A rule of a pipeline with all that it schedules. -/
def Rule.Turns : Rule → Node → Node → Prop
  | .hiddenField rule, tree, tree' =>
    ∃ renamings, rule.scheduled tree = .ok renamings ∧
      Passes Renaming.Steps renamings tree tree'
  | rule, tree, tree' => rule.Steps tree tree'

namespace Rule

variable {rule : Rule} {tree tree' : Node} {out : RuleOutput Rule}

theorem Applies.steps {p p' : Pipeline.Progress} (h : rule.Applies p p') :
    rule.Steps p.tree p'.tree := by
  obtain ⟨out, hout, rfl⟩ := h
  exact ⟨out, hout, rfl⟩

/-- Only the rule for hidden fields schedules other rules; it leaves the tree alone. -/
theorem apply_cases (h : rule.apply tree = .ok out) :
    (∃ (hidden : HiddenField) (renamings : List Renaming), rule = .hiddenField hidden ∧
        hidden.scheduled tree = .ok renamings ∧
        out = { tree, followUps := renamings.map Rule.rename }) ∨
      (∀ hidden, rule ≠ .hiddenField hidden) ∧ out.followUps = [] := by
  cases rule with
  | hiddenField hidden =>
    change hidden.apply tree = .ok out at h
    unfold HiddenField.apply at h
    split at h
    · rename_i renamings hscheduled
      exact .inl ⟨hidden, renamings, rfl, hscheduled, (Except.ok.inj h).symm⟩
    · cases h
  | rename r =>
    refine .inr ⟨by simp, ?_⟩
    rcases Renaming.apply_cases h with ⟨_, rfl⟩ | ⟨_, _, _, _, hfollow, _⟩
    · rfl
    · exact hfollow
  | forHeader policy =>
    obtain ⟨_, _, _, hfollow⟩ := RuleOutput.ofSession_eq_ok h
    exact .inr ⟨by simp, hfollow⟩
  | typeParameterList =>
    obtain ⟨_, _, _, hfollow⟩ := RuleOutput.ofSession_eq_ok h
    exact .inr ⟨by simp, hfollow⟩
  | addFinal =>
    obtain ⟨_, _, _, _, _, hfollow⟩ := AddFinal.apply_eq_ok h
    exact .inr ⟨by simp, hfollow⟩

/-- The sketches that show nothing of what a rule changes. -/
def Spares : Rule → Sketch → Prop
  | .hiddenField _, σ | .rename _, σ => σ.spelling = false
  | .forHeader _, σ => σ.text .empty = false
  | .typeParameterList, σ => σ.text .typeParameters = false ∧ σ.text .typeParameter = false
  | .addFinal, σ => σ.modifiers = false

theorem Steps.sketch_eq {σ : Sketch} (h : rule.Steps tree tree') (hσ : rule.Spares σ) :
    tree'.sketch σ = tree.sketch σ := by
  obtain ⟨out, hout, rfl⟩ := h
  cases rule with
  | hiddenField hidden =>
    rcases apply_cases hout with ⟨_, _, _, _, rfl⟩ | ⟨hother, _⟩
    · rfl
    · exact absurd rfl (hother hidden)
  | rename r => exact Renaming.apply_keeps hσ hout
  | forHeader policy => exact ForHeader.apply_keeps hσ hout
  | typeParameterList => exact TypeParameterList.apply_keeps hσ.1 hσ.2 hout
  | addFinal => exact AddFinal.apply_keeps hσ hout

theorem Turns.sketch_eq {σ : Sketch} (h : rule.Turns tree tree') (hσ : rule.Spares σ) :
    tree'.sketch σ = tree.sketch σ := by
  cases rule with
  | hiddenField hidden =>
    obtain ⟨renamings, hscheduled, hpass⟩ := h
    clear hscheduled
    induction hpass with
    | nil tree => rfl
    | cons hstep _ ih => exact ih.trans (Steps.sketch_eq hstep hσ)
  | rename _ | forHeader _ | typeParameterList | addFinal => exact Steps.sketch_eq h hσ

theorem Turns.of_steps (hrule : ∀ hidden, rule ≠ .hiddenField hidden)
    (h : rule.Steps tree tree') : rule.Turns tree tree' := by
  cases rule with
  | hiddenField hidden => exact absurd rfl (hrule hidden)
  | rename _ | forHeader _ | typeParameterList | addFinal => exact h

theorem Turns.exists_steps (h : rule.Turns tree tree') :
    ∃ applied : List Rule, Passes Steps applied tree tree' := by
  cases rule with
  | hiddenField hidden =>
    obtain ⟨renamings, _, hpass⟩ := h
    exact ⟨renamings.map Rule.rename, Passes.map_iff.mpr hpass⟩
  | rename _ | forHeader _ | typeParameterList | addFinal =>
    exact ⟨[_], .cons h (.nil _)⟩

end Rule

namespace Pipeline

variable {rule : Rule} {rules : List Rule} {tree : Node} {outcome : Outcome} {p p' : Progress}

theorem applyRule_eq_ok {followUps : List Rule} (h : applyRule rule p = .ok (p', followUps)) :
    ∃ out, rule.apply p.tree = .ok out ∧
      p' = ⟨out.tree, out.transforms.reverse ++ p.replaced⟩ ∧ followUps = out.followUps :=
  applyRule_eq_ok_iff.mp h

/-- A queue is worked off in order, and what its rules schedule comes after them. -/
theorem exists_passes_of_work {origin : Rule} {budget : Nat} {queue : List Rule}
    (h : work origin budget queue p = .ok p') :
    ∃ later, Passes Rule.Applies (queue ++ later) p p' ∧
      ((∀ r ∈ queue, ∀ hidden, r ≠ .hiddenField hidden) → later = []) := by
  fun_induction work origin budget queue p with
  | case1 budget p =>
    obtain rfl := Except.ok.inj h
    exact ⟨[], .nil _, fun _ => rfl⟩
  | case2 => cases h
  | case3 budget rule rest p p₁ followUps happly ih =>
    obtain ⟨out, hout, hp₁, rfl⟩ := applyRule_eq_ok happly
    obtain ⟨later, hpass, hquiet⟩ := ih h
    refine ⟨out.followUps ++ later, ?_, ?_⟩
    · refine .cons ⟨out, hout, hp₁⟩ ?_
      rwa [List.append_assoc] at hpass
    · intro hplain
      rcases Rule.apply_cases hout with ⟨hidden, _, rfl, _⟩ | ⟨_, hfollow⟩
      · exact absurd rfl (hplain _ (by simp) hidden)
      · rw [hfollow] at hquiet ⊢
        exact hquiet fun r hr => hplain r (by simp_all)
  | case4 => cases h

/-- A rule of a pipeline is applied before the rules that it schedules. -/
theorem runRule_eq_ok (h : runRule rule p = .ok p') :
    ∃ p₁ followUps, applyRule rule p = .ok (p₁, followUps) ∧
      work rule followUpLimit followUps p₁ = .ok p' := by
  rw [runRule_eq_work, work] at h
  split at h
  · exact ⟨_, _, ‹_›, h⟩
  · cases h

theorem turns_of_runRule (h : runRule rule p = .ok p') : rule.Turns p.tree p'.tree := by
  obtain ⟨p₁, followUps, happly, hwork⟩ := runRule_eq_ok h
  obtain ⟨out, hout, rfl, rfl⟩ := applyRule_eq_ok happly
  obtain ⟨later, hrun, hquiet⟩ := exists_passes_of_work hwork
  have hpass := hrun.image (fun p => p.tree) fun _ _ _ => Rule.Applies.steps
  rcases Rule.apply_cases hout with ⟨hidden, renamings, rfl, hscheduled, rfl⟩ | ⟨hrule, hfollow⟩
  · refine ⟨renamings, hscheduled, ?_⟩
    have hlater : later = [] := by
      apply hquiet
      intro r hr hidden'
      obtain ⟨_, _, rfl⟩ := List.mem_map.mp hr
      simp
    rw [hlater, List.append_nil] at hpass
    exact (Passes.map_iff (f := Rule.rename)).mp hpass
  · rw [hfollow] at hpass hquiet
    rw [hquiet (by simp)] at hpass
    have htree' : out.tree = p'.tree := Passes.nil_iff.mp hpass
    exact .of_steps hrule ⟨out, hout, htree'⟩

theorem passes_turns_of_runAll (h : runAll rules p = .ok p') :
    Passes Rule.Turns rules p.tree p'.tree := by
  induction rules generalizing p with
  | nil =>
    obtain rfl := Except.ok.inj h
    exact .nil _
  | cons rule rules ih =>
    unfold runAll at h
    rw [List.foldlM_cons] at h
    obtain ⟨p₁, hrule, hrules⟩ := Except.bind_eq_ok.mp h
    exact .cons (turns_of_runRule hrule) (ih hrules)

/-- A run takes its rules one after another, each with what it schedules. -/
theorem passes_turns_of_run (h : run rules tree = .ok outcome) :
    Passes Rule.Turns rules tree outcome.tree := by
  obtain ⟨p, hall, hpure⟩ := Except.bind_eq_ok.mp h
  obtain rfl := Except.ok.inj hpure
  exact passes_turns_of_runAll hall

theorem exists_applies_of_runRule (h : runRule rule p = .ok p') :
    ∃ applied : List Rule, Passes Rule.Applies applied p p' := by
  rw [runRule_eq_work] at h
  obtain ⟨later, hrun, _⟩ := exists_passes_of_work h
  exact ⟨_, hrun⟩

theorem exists_applies_of_runAll (h : runAll rules p = .ok p') :
    ∃ applied : List Rule, Passes Rule.Applies applied p p' := by
  induction rules generalizing p with
  | nil =>
    obtain rfl := Except.ok.inj h
    exact ⟨[], .nil _⟩
  | cons rule rules ih =>
    unfold runAll at h
    rw [List.foldlM_cons] at h
    obtain ⟨p₁, hrule, hrules⟩ := Except.bind_eq_ok.mp h
    obtain ⟨first, hfirst⟩ := exists_applies_of_runRule hrule
    obtain ⟨applied, happlied⟩ := ih hrules
    exact ⟨first ++ applied, Passes.append_iff.mpr ⟨_, hfirst, happlied⟩⟩

/-- A run is a sequence of applications of rules, and collects what they replace. -/
theorem exists_applies_of_run (h : run rules tree = .ok outcome) :
    ∃ applied : List Rule,
      Passes Rule.Applies applied ⟨tree, []⟩ ⟨outcome.tree, outcome.transforms.reverse⟩ := by
  obtain ⟨p, hall, hpure⟩ := Except.bind_eq_ok.mp h
  obtain rfl := Except.ok.inj hpure
  obtain ⟨applied, happlied⟩ := exists_applies_of_runAll hall
  exact ⟨applied, by simpa using happlied⟩

/-- A run is a sequence of applications of rules. -/
theorem exists_steps_of_run (h : run rules tree = .ok outcome) :
    ∃ applied : List Rule, Passes Rule.Steps applied tree outcome.tree := by
  obtain ⟨applied, happlied⟩ := exists_applies_of_run h
  exact ⟨applied, happlied.image (fun p => p.tree) fun _ _ _ => Rule.Applies.steps⟩

/-! ## Idle rules -/

theorem runRule_of_idle (h : rule.apply p.tree = .ok (.unchanged p.tree)) :
    runRule rule p = .ok p := by
  have happly : applyRule rule p = .ok (p, []) := by
    have hfixer : Fixer.apply rule p.tree = .ok (.unchanged p.tree) := h
    rw [applyRule, hfixer]
    rfl
  rw [runRule, happly]
  rfl

/-- A run of rules that find nothing to do gives the tree back and replaces nothing. -/
theorem run_of_idle (h : ∀ rule ∈ rules, rule.apply tree = .ok (.unchanged tree)) :
    run rules tree = .ok ⟨tree, []⟩ := by
  have hall : runAll rules ⟨tree, []⟩ = .ok ⟨tree, []⟩ := by
    induction rules with
    | nil => rfl
    | cons rule rules ih =>
      unfold runAll
      rw [List.foldlM_cons, runRule_of_idle (h rule (by simp))]
      exact ih fun r hr => h r (by simp [hr])
  rw [run, hall]
  rfl

end Pipeline

end Restyle
