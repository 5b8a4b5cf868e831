-- SUMMARY: A second run of a pipeline finds nothing to do.
import Restyle.Proofs.Finality.AddFinal
import Restyle.Proofs.Naming.HiddenField
import Restyle.Proofs.Naming.Resolution
import Restyle.Proofs.Spacing.ForHeader
import Restyle.Proofs.Spacing.TypeParameterList

/-!
# Idempotence

Every configurable rule has its settled trees, on which it has nothing to do
(`Rule.apply_of_settled`). A rule leaves a tree that is settled for it (`Rule.Turns.settled`), and no
other rule unsettles it, since a settled tree is recognized by a sketch that all other rules spare
(`Rule.Settled.of_turns`). So after a run the tree is settled for all rules of the pipeline, and a
second run gives it back (`Pipeline.run_idempotent`).

A method can be named by a variable. If that variable is renamed, a setter may stop being one, and
its parameters then hide members that they were free to hide before
(`Pipeline.run_not_idempotent`).
-/

namespace Restyle

namespace Rule

variable {rule other : Rule} {rules : List Rule} {tree tree' : Node}

/-- Whether a tree leaves a rule nothing to do. A renaming always has something to do. -/
def Settled : Rule → Node → Prop
  | .hiddenField rule, tree => HiddenField.Settled rule tree
  | .rename _, _ => False
  | .forHeader policy, tree => ForHeader.Settled policy tree
  | .typeParameterList, tree => TypeParameterList.Settled tree
  | .addFinal, tree => AddFinal.Settled tree

/-- The sketch in which one can see whether a tree is settled. -/
def view : Rule → Sketch
  | .hiddenField _ => .names
  | .rename _ => .skeleton
  | .forHeader _ => ForHeader.view
  | .typeParameterList => TypeParameterList.view
  | .addFinal => .bones

theorem apply_of_settled (htree : tree.WellFormed) (h : rule.Settled tree) :
    rule.apply tree = .ok (.unchanged tree) := by
  cases rule with
  | hiddenField rule => exact HiddenField.apply_of_settled htree.distinctIds h
  | rename r => exact h.elim
  | forHeader policy => exact ForHeader.apply_of_settled h
  | typeParameterList => exact TypeParameterList.apply_of_settled htree.distinctIds h
  | addFinal => exact AddFinal.apply_of_settled h

theorem Settled.of_sketch_eq (h : rule.Settled tree) (hids : tree.DistinctIds)
    (hsketch : tree.sketch rule.view = tree'.sketch rule.view) : rule.Settled tree' := by
  have halike := Node.alike_of_sketch_eq hsketch
  cases rule with
  | hiddenField rule => exact HiddenField.settled_of_alike rfl halike hids h
  | rename r => exact h.elim
  | forHeader policy => exact ForHeader.settled_of_alike halike h
  | typeParameterList => exact TypeParameterList.settled_of_sketch_eq hsketch h
  | addFinal => exact AddFinal.settled_of_sketch_eq hsketch h

/-- A rule changes nothing that rules of other names look at. -/
theorem spares_view (hrule : ∀ r, rule ≠ .rename r) (hname : rule.name ≠ other.name) :
    rule.Spares other.view := by
  cases rule with
  | rename r => exact absurd rfl (hrule r)
  | hiddenField _ =>
    cases other with
    | hiddenField _ => exact absurd rfl hname
    | rename _ | forHeader _ | typeParameterList | addFinal => rfl
  | forHeader _ =>
    cases other with
    | forHeader _ => exact absurd rfl hname
    | hiddenField _ | rename _ | typeParameterList | addFinal => rfl
  | typeParameterList =>
    cases other with
    | typeParameterList => exact absurd rfl hname
    | hiddenField _ | rename _ | forHeader _ | addFinal => exact ⟨rfl, rfl⟩
  | addFinal =>
    cases other with
    | addFinal => exact absurd rfl hname
    | hiddenField _ | rename _ | forHeader _ | typeParameterList => rfl

/-- No rule unsettles a tree for a rule of another name. -/
theorem Settled.of_turns (h : other.Settled tree) (htree : tree.WellFormed)
    (hrule : ∀ r, rule ≠ .rename r) (hname : rule.name ≠ other.name)
    (hturns : rule.Turns tree tree') : other.Settled tree' := by
  have hsketch := hturns.sketch_eq (spares_view hrule hname)
  exact h.of_sketch_eq htree.distinctIds hsketch.symm

/-- What a rule asks of the names of methods: if it exempts setters, no variable names a method. -/
def Admits : Rule → Node → Prop
  | .hiddenField rule, tree => rule.options.ignoreSetter = true → tree.PlainSignatures
  | _, _ => True

theorem Admits.of_alike {σ : Sketch} (h : rule.Admits tree) (halike : tree.Alike σ tree') :
    rule.Admits tree' := by
  cases rule with
  | hiddenField rule => exact fun hoption => halike.plainSignatures (h hoption)
  | rename _ | forHeader _ | typeParameterList | addFinal => trivial

/-- A rule leaves a tree that is settled for it. -/
theorem Turns.settled (h : rule.Turns tree tree') (htree : tree.WellFormed)
    (hrule : ∀ r, rule ≠ .rename r) (hadmits : rule.Admits tree) : rule.Settled tree' := by
  cases rule with
  | hiddenField rule =>
    obtain ⟨renamings, hscheduled, hpass⟩ := h
    exact HiddenField.settled_of_passes htree hscheduled hpass hadmits
  | rename r => exact absurd rfl (hrule r)
  | forHeader policy =>
    obtain ⟨out, hout, rfl⟩ := h
    exact ForHeader.settled_of_apply hout
  | typeParameterList =>
    obtain ⟨out, hout, rfl⟩ := h
    refine TypeParameterList.settled_of_apply hout fun n hn htag => ?_
    cases hkind : n.kind with
    | variableDecls _ _ _ =>
      exact ((Node.hasPlainDeclaration_iff hkind).mp (htree.plainDeclarations n hn)).2
    | _ => simp [Node.tag, hkind, Kind.tag] at htag
  | addFinal =>
    obtain ⟨out, hout, rfl⟩ := h
    exact AddFinal.settled_of_apply hout htree.distinctIds

/-! ## Sequences of rules -/

theorem Settled.of_passes (h : other.Settled tree) (hpass : Passes Turns rules tree tree')
    (htree : tree.WellFormed) (hrules : ∀ r, Rule.rename r ∉ rules)
    (hnames : other.name ∉ rules.map name) : other.Settled tree' := by
  induction hpass with
  | nil tree => exact h
  | @cons rule rules tree tree₁ tree' hturns _ ih =>
    have hrule (r : Renaming) : rule ≠ .rename r := by
      intro heq
      exact hrules r (by simp [heq])
    have hname : rule.name ≠ other.name := by
      intro heq
      exact hnames (by simp [heq])
    refine ih (h.of_turns htree hrule hname hturns) (hturns.wellFormed htree) ?_ ?_
    · intro r hr
      exact hrules r (List.mem_cons_of_mem _ hr)
    · intro hmem
      exact hnames (List.mem_cons_of_mem _ hmem)

/-- Rules of different names leave a tree that is settled for all of them. -/
theorem settled_of_passes (hpass : Passes Turns rules tree tree') (htree : tree.WellFormed)
    (hadmits : ∀ rule ∈ rules, rule.Admits tree) (hrules : ∀ r, Rule.rename r ∉ rules)
    (honce : (rules.map name).Nodup) :
    tree'.WellFormed ∧ ∀ rule ∈ rules, rule.Settled tree' := by
  induction hpass with
  | nil tree => exact ⟨htree, by simp⟩
  | @cons rule rules tree tree₁ tree' hturns hpass ih =>
    have hrule (r : Renaming) : rule ≠ .rename r := by
      intro heq
      exact hrules r (by simp [heq])
    have hrest (r : Renaming) : Rule.rename r ∉ rules := by
      intro hr
      exact hrules r (List.mem_cons_of_mem _ hr)
    have htree₁ := hturns.wellFormed htree
    obtain ⟨hname, honce⟩ := List.nodup_cons.mp honce
    have hadmits₁ : ∀ r ∈ rules, r.Admits tree₁ := fun r hr =>
      (hadmits r (List.mem_cons_of_mem _ hr)).of_alike hturns.alike
    obtain ⟨htree', hsettled⟩ := ih htree₁ hadmits₁ hrest honce
    refine ⟨htree', fun r hr => ?_⟩
    rcases List.mem_cons.mp hr with rfl | hr
    · -- The rest of the pipeline does not unsettle what the first rule settled.
      have hfirst := hturns.settled htree hrule (hadmits r List.mem_cons_self)
      exact hfirst.of_passes hpass htree₁ hrest hname
    · exact hsettled r hr

end Rule

/-! ## Runs -/

namespace Pipeline

/-- A pipeline in which every rule occurs once has nothing to do after it has run: a second run gives
    the tree back and replaces nothing. If setters are exempt, this asks that no declared variable
    names a method or its return type. -/
theorem run_idempotent {rules : List Rule} {tree : Node} {outcome : Outcome}
    (htree : tree.WellFormed) (hrules : ∀ r, Rule.rename r ∉ rules)
    (honce : (rules.map Rule.name).Nodup)
    (hsignatures : ∀ rule, Rule.hiddenField rule ∈ rules → rule.options.ignoreSetter = true →
      tree.PlainSignatures)
    (hrun : Pipeline.run rules tree = .ok outcome) :
    Pipeline.run rules outcome.tree = .ok ⟨outcome.tree, []⟩ := by
  have hadmits : ∀ rule ∈ rules, rule.Admits tree := by
    intro rule hrule
    cases rule with
    | hiddenField rule => exact hsignatures rule hrule
    | rename _ | forHeader _ | typeParameterList | addFinal => trivial
  obtain ⟨htree', hsettled⟩ :=
    Rule.settled_of_passes (passes_turns_of_run hrun) htree hadmits hrules honce
  refine run_of_idle fun rule hrule => ?_
  exact Rule.apply_of_settled htree' (hsettled rule hrule)

/-- One rule of each kind, with options as they are by default. -/
def oneOfEach : List Rule :=
  [.addFinal, .hiddenField ⟨.default, none⟩, .forHeader .noSpace, .typeParameterList]

/-- The first run changes `hidingLocal`, the second does not. -/
theorem run_idempotent_hidingLocal :
    ∃ outcome, Pipeline.run oneOfEach hidingLocal = .ok outcome ∧ outcome.isChanged = true ∧
      Pipeline.run oneOfEach outcome.tree = .ok ⟨outcome.tree, []⟩ := by
  have hchanged :
      (Pipeline.run oneOfEach hidingLocal).toOption.map Outcome.isChanged = some true := by
    decide +kernel
  have hsignatures : hidingLocal.PlainSignatures := by decide
  cases hrun : Pipeline.run oneOfEach hidingLocal with
  | error e =>
    rw [hrun] at hchanged
    cases hchanged
  | ok outcome =>
    rw [hrun] at hchanged
    refine ⟨outcome, rfl, Option.some.inj hchanged, ?_⟩
    exact run_idempotent (by decide) (by simp [oneOfEach]) (by decide) (fun _ _ _ => hsignatures)
      hrun

end Pipeline

/-! ## A method that is named by a variable -/

/-- `class A { int x; int İ; void setİ(int İ) { int x; } }`, where the name of the method refers to
    the local variable. The letter is one whose lower case does not depend on tables. -/
def namedByLocal : Node :=
  let name (id : NodeId) (spelling : String) (declaration : Option NodeId) : Node :=
    ⟨id, {}, .ident spelling .unknown declaration⟩
  let declared (id : NodeId) (spelling : String) : Node :=
    ⟨id, {}, .variableDecls [] (some (name (id + 1) "int" none))
      [⟨id + 2, {}, .namedVar (name (id + 3) spelling none) none⟩]⟩
  let body : Node := ⟨6, {}, .block [declared 40 "x"] ""⟩
  let method : Node :=
    ⟨3, {}, .methodDecl [] none (some (name 4 "void" none)) (name 5 "setİ" (some 42))
      ⟨"", [declared 30 "İ"]⟩ (some body)⟩
  ⟨0, {}, .classDecl [] ⟨"", .plain⟩ (name 1 "A" none) none none
    ⟨2, {}, .block [declared 10 "x", declared 20 "İ", method] ""⟩ .unknown⟩

/-- In `namedByLocal` the first run renames the local variable and with it the method, which is no
    setter any more. The second run then renames its parameter. -/
theorem Pipeline.run_not_idempotent :
    ¬∀ (rules : List Rule) (tree : Node) (outcome : Outcome), tree.WellFormed →
      (∀ r, Rule.rename r ∉ rules) → (rules.map Rule.name).Nodup →
      Pipeline.run rules tree = .ok outcome →
      Pipeline.run rules outcome.tree = .ok ⟨outcome.tree, []⟩ := by
  intro h
  let rules := [Rule.hiddenField ⟨{ HiddenFieldOptions.default with ignoreSetter := true }, none⟩]
  have hagain : ((Pipeline.run rules namedByLocal).toOption.bind fun outcome =>
      (Pipeline.run rules outcome.tree).toOption.map Outcome.isChanged) = some true := by
    decide +kernel
  cases hrun : Pipeline.run rules namedByLocal with
  | error e =>
    rw [hrun] at hagain
    cases hagain
  | ok outcome =>
    have hsecond := h rules namedByLocal outcome (by decide) (by simp [rules]) (by decide) hrun
    rw [hrun] at hagain
    change (Pipeline.run rules outcome.tree).toOption.map Outcome.isChanged = some true at hagain
    rw [hsecond] at hagain
    cases hagain

end Restyle
