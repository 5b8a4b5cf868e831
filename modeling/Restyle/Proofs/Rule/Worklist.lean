-- SUMMARY: Runs of arbitrary rules: in which order rules are applied, how many, and how a run ends.
import Restyle.Proofs.Tree.Runs
import Restyle.Rule.Pipeline

/-!
# Worklists

What a pipeline does with rules of any kind, which may schedule each other without end. The rules
that wait are served first come first served (`Served`). That is to go through them generation by
generation (`served_iff_generations`): all rules of a generation are applied before the first rule
that they schedule. The work on a rule of a pipeline ends when nothing waits any more, when an
application fails, or when the bound is reached (`runRule_eq_ok_iff`, `runRule_eq_error_iff`), and
these ends exclude each other. For a whole run this is `Pipeline.run_in_generations`.
-/

namespace Restyle

/-- A rule that was applied, and what it gave back. -/
structure Application (R : Type) where
  rule : R
  output : RuleOutput R

namespace Application

variable {R : Type}

/-- The rules that some applications schedule, in order. -/
def scheduled (applied : List (Application R)) : List R :=
  applied.flatMap fun a => a.output.followUps

/-- The nodes that some applications replace, in order. -/
def replaced (applied : List (Application R)) : List Transform :=
  applied.flatMap fun a => a.output.transforms

@[simp] theorem scheduled_nil : scheduled ([] : List (Application R)) = [] := rfl

@[simp] theorem scheduled_cons (a : Application R) (applied : List (Application R)) :
    scheduled (a :: applied) = a.output.followUps ++ scheduled applied := rfl

@[simp] theorem scheduled_append (applied later : List (Application R)) :
    scheduled (applied ++ later) = scheduled applied ++ scheduled later :=
  List.flatMap_append

@[simp] theorem replaced_nil : replaced ([] : List (Application R)) = [] := rfl

@[simp] theorem replaced_cons (a : Application R) (applied : List (Application R)) :
    replaced (a :: applied) = a.output.transforms ++ replaced applied := rfl

/-- An application of a rule, as a step from tree to tree. -/
def Steps [Fixer R] (a : Application R) (tree tree' : Node) : Prop :=
  Fixer.apply a.rule tree = .ok a.output ∧ a.output.tree = tree'

end Application

/-! ## The order of applications -/

section Order

open Application

variable {R : Type}

/-- Applications generation by generation: all rules of a generation are applied in order before any
    rule that they schedule, and what they schedule is the next generation. The last list has the
    rules that are left waiting, in the order in which their turn comes. -/
inductive Generations : List R → List (Application R) → List R → Prop
  /-- Not all of the generation has been applied. -/
  | within (applied : List (Application R)) (rest : List R) :
    Generations (applied.map Application.rule ++ rest) applied (rest ++ scheduled applied)
  /-- All of the generation has been applied, and then what comes after it. -/
  | past (generation : List (Application R)) {later : List (Application R)} {waiting : List R} :
    Generations (scheduled generation) later waiting →
      Generations (generation.map Application.rule) (generation ++ later) waiting

/-- Applications from a queue: the first rule is applied, and what it schedules joins the end. -/
inductive Served : List R → List (Application R) → List R → Prop
  | nil (queue : List R) : Served queue [] queue
  | cons (a : Application R) {rest waiting : List R} {applied : List (Application R)} :
    Served (rest ++ a.output.followUps) applied waiting →
      Served (a.rule :: rest) (a :: applied) waiting

namespace Served

variable {queue rest waiting : List R} {applied later : List (Application R)}
variable {a : Application R} {rule : R}

theorem nil_iff : Served queue [] waiting ↔ waiting = queue := by
  constructor
  · intro h
    cases h
    rfl
  · rintro rfl
    exact .nil _

theorem cons_iff : Served (rule :: rest) (a :: applied) waiting ↔
    a.rule = rule ∧ Served (rest ++ a.output.followUps) applied waiting := by
  constructor
  · intro h
    cases h with
    | cons _ h => exact ⟨rfl, h⟩
  · rintro ⟨rfl, h⟩
    exact .cons a h

theorem not_nil_cons : ¬Served [] (a :: applied) waiting := nofun

theorem append {waiting' : List R} (h : Served queue applied waiting)
    (hlater : Served waiting later waiting') : Served queue (applied ++ later) waiting' := by
  induction h with
  | nil queue => exact hlater
  | cons a _ ih => exact .cons a (ih hlater)

/-- Rules that stand in front are all applied before what they schedule. -/
theorem front (applied : List (Application R)) (rest : List R) :
    Served (applied.map Application.rule ++ rest) applied (rest ++ scheduled applied) := by
  induction applied generalizing rest with
  | nil =>
    rw [scheduled_nil, List.append_nil]
    exact .nil rest
  | cons a applied ih =>
    rw [List.map_cons, List.cons_append, scheduled_cons, ← List.append_assoc]
    refine .cons a ?_
    rw [List.append_assoc]
    exact ih (rest ++ a.output.followUps)

/-- In the middle of a generation, of which `done` has been applied and `rest` has not, the queue
    holds `rest` and what `done` has scheduled of the next generation. -/
theorem generations_of_middle (done : List (Application R))
    (h : Served (rest ++ scheduled done) applied waiting) :
    Generations (done.map Application.rule ++ rest) (done ++ applied) waiting := by
  induction applied generalizing rest done with
  | nil =>
    rw [nil_iff.mp h, List.append_nil]
    exact .within done rest
  | cons a applied ih =>
    cases rest with
    | cons rule rest =>
      rw [List.cons_append, cons_iff] at h
      obtain ⟨rfl, h⟩ := h
      have hrest : Served (rest ++ scheduled (done ++ [a])) applied waiting := by simpa using h
      simpa using ih (done ++ [a]) hrest
    | nil =>
      -- The generation is over, and `a` is the first application of the next one.
      rw [List.nil_append] at h
      cases hnext : scheduled done with
      | nil =>
        rw [hnext] at h
        exact absurd h not_nil_cons
      | cons rule rest =>
        rw [hnext, cons_iff] at h
        obtain ⟨rfl, h⟩ := h
        have hrest : Served (rest ++ scheduled [a]) applied waiting := by simpa using h
        rw [List.append_nil]
        refine .past done ?_
        rw [hnext]
        exact ih [a] hrest

end Served

/-- A queue is worked off generation by generation. -/
theorem served_iff_generations {queue waiting : List R} {applied : List (Application R)} :
    Served queue applied waiting ↔ Generations queue applied waiting := by
  constructor
  · intro h
    have hmiddle : Served (queue ++ scheduled []) applied waiting := by simpa using h
    exact Served.generations_of_middle [] hmiddle
  · intro h
    induction h with
    | within applied rest => exact .front applied rest
    | past generation _ ih =>
      have hfront := Served.front generation []
      rw [List.append_nil, List.nil_append] at hfront
      exact hfront.append ih

variable [Fixer R]

/-- Where the same queue was served for longer, the next rule that waits can be applied. -/
theorem Served.exists_next {queue waiting waiting' : List R}
    {applied applied' : List (Application R)} {tree tree' tree'' : Node}
    (h : Served queue applied waiting)
    (hpass : Passes Application.Steps applied tree tree') (h' : Served queue applied' waiting')
    (hpass' : Passes Application.Steps applied' tree tree'')
    (hlt : applied.length < applied'.length) :
    ∃ next later out, waiting = next :: later ∧ Fixer.apply next tree' = .ok out := by
  induction h generalizing tree applied' with
  | nil queue =>
    obtain rfl := Passes.nil_iff.mp hpass
    cases h' with
    | nil _ => simp at hlt
    | @cons a rest _ _ _ =>
      obtain ⟨_, hstep, _⟩ := Passes.cons_iff.mp hpass'
      exact ⟨a.rule, rest, a.output, rfl, hstep.1⟩
  | @cons a rest waiting applied _ ih =>
    obtain ⟨tree₁, hstep, hpass⟩ := Passes.cons_iff.mp hpass
    cases applied' with
    | nil => simp at hlt
    | cons a' applied' =>
      obtain ⟨hrule, h'⟩ := cons_iff.mp h'
      obtain ⟨tree₂, hstep', hpass'⟩ := Passes.cons_iff.mp hpass'
      -- Both begin with the same application, since a rule gives one result.
      have houtput : a'.output = a.output := by
        have happly := hstep'.1
        rw [hrule, hstep.1] at happly
        exact (Except.ok.inj happly).symm
      have htree : tree₂ = tree₁ := by rw [← hstep.2, ← hstep'.2, houtput]
      rw [houtput] at h'
      rw [htree] at hpass'
      exact ih hpass h' hpass' (by simpa using hlt)

end Order

/-! ## Working off a queue -/

namespace Pipeline

open Application

variable {R : Type} [Fixer R]

/-- As `drain`, with a list for a queue. -/
def work (origin : R) : (budget : Nat) → List R → Progress → Except PipelineError Progress
  | _, [], p => .ok p
  | 0, _ :: _, _ =>
    .error ⟨Fixer.name origin, .followUpBoundExceeded (Fixer.name origin) followUpLimit⟩
  | budget + 1, rule :: rest, p =>
    match applyRule rule p with
    | .ok (p, followUps) => work origin budget (rest ++ followUps) p
    | .error e => .error e

theorem drain_eq_work (origin : R) (budget : Nat) (queue : Worklist R) (p : Progress) :
    drain origin budget queue p = work origin budget queue.toList p := by
  induction budget generalizing queue p with
  | zero =>
    unfold drain
    cases hnext : queue.next? with
    | none =>
      rw [(queue.next?_eq_none_iff).mp hnext]
      rfl
    | some item =>
      rw [Worklist.toList_eq_cons_of_next? hnext]
      rfl
  | succ budget ih =>
    unfold drain
    cases hnext : queue.next? with
    | none =>
      rw [(queue.next?_eq_none_iff).mp hnext]
      rfl
    | some item =>
      obtain ⟨rule, rest⟩ := item
      rw [Worklist.toList_eq_cons_of_next? hnext]
      simp only [ih, Worklist.toList_append]
      rfl

/-- The work on a rule of a pipeline starts with the rule itself in the queue. -/
theorem runRule_eq_work (rule : R) (p : Progress) :
    runRule rule p = work rule (followUpLimit + 1) [rule] p := by
  rw [runRule, work]
  cases applyRule rule p with
  | error e => rfl
  | ok result =>
    obtain ⟨p', followUps⟩ := result
    simp only [bind, Except.bind, drain_eq_work, Worklist.toList_ofList, List.nil_append]

section Work

variable {origin rule : R} {budget : Nat} {queue rest waiting : List R} {p p' : Progress}
variable {tree tree' : Node} {a : Application R} {applied : List (Application R)}

/-- The first rule of a queue is applied to the tree, and the rest goes on with what it left. -/
theorem served_cons_iff {out : RuleOutput R} (happly : Fixer.apply rule tree = .ok out) :
    Served (rule :: rest) (a :: applied) waiting ∧ Passes Steps (a :: applied) tree tree' ↔
      a = ⟨rule, out⟩ ∧ Served (rest ++ out.followUps) applied waiting ∧
        Passes Steps applied out.tree tree' := by
  rw [Served.cons_iff, Passes.cons_iff]
  constructor
  · rintro ⟨⟨rfl, hserved⟩, tree₁, ⟨hout, rfl⟩, hpass⟩
    obtain rfl : a.output = out := Except.ok.inj (hout.symm.trans happly)
    exact ⟨rfl, hserved, hpass⟩
  · rintro ⟨rfl, hserved, hpass⟩
    exact ⟨⟨rfl, hserved⟩, out.tree, ⟨happly, rfl⟩, hpass⟩

/-- A rule that fails is not applied. -/
theorem not_served_cons {cause : RuleError} (happly : Fixer.apply rule tree = .error cause)
    (hserved : Served (rule :: rest) (a :: applied) waiting) :
    ¬Passes Steps (a :: applied) tree tree' := by
  intro hpass
  obtain ⟨rfl, _⟩ := Served.cons_iff.mp hserved
  obtain ⟨_, hstep, _⟩ := Passes.cons_iff.mp hpass
  rw [Steps, happly] at hstep
  cases hstep.1

theorem applyRule_eq_ok_iff {followUps : List R} : applyRule rule p = .ok (p', followUps) ↔
    ∃ out, Fixer.apply rule p.tree = .ok out ∧
      p' = ⟨out.tree, out.transforms.reverse ++ p.replaced⟩ ∧ followUps = out.followUps := by
  rw [applyRule]
  cases Fixer.apply rule p.tree <;> simp [eq_comm]

theorem applyRule_eq_error_iff {e : PipelineError} : applyRule rule p = .error e ↔
    ∃ cause, Fixer.apply rule p.tree = .error cause ∧ e = ⟨Fixer.name rule, cause⟩ := by
  rw [applyRule]
  cases Fixer.apply rule p.tree <;> simp [eq_comm]

/-- A queue is worked off if all that is scheduled can be applied within the budget. -/
theorem work_eq_ok_iff : work origin budget queue p = .ok p' ↔
    ∃ applied, (Served queue applied [] ∧ Passes Steps applied p.tree p'.tree) ∧
      applied.length ≤ budget ∧ p'.replaced = (replaced applied).reverse ++ p.replaced := by
  fun_induction work origin budget queue p with
  | case1 budget p =>
    constructor
    · intro h
      obtain rfl := Except.ok.inj h
      exact ⟨[], ⟨.nil [], .nil _⟩, by simp, by simp⟩
    · rintro ⟨applied, ⟨hserved, hpass⟩, _, hreplaced⟩
      cases hserved with
      | nil _ =>
        have htree := Passes.nil_iff.mp hpass
        cases p
        cases p'
        simp_all
  | case2 rule rest p =>
    constructor
    · nofun
    · rintro ⟨applied, ⟨hserved, _⟩, hle, _⟩
      cases hserved with
      | cons a _ => simp at hle
  | case3 budget rule rest p p₁ followUps happly ih =>
    obtain ⟨out, hout, rfl, rfl⟩ := applyRule_eq_ok_iff.mp happly
    rw [ih]
    constructor
    · rintro ⟨applied, hserved, hle, hreplaced⟩
      refine ⟨⟨rule, out⟩ :: applied, (served_cons_iff hout).mpr ⟨rfl, hserved⟩, ?_, ?_⟩
      · simpa using hle
      · simpa using hreplaced
    · rintro ⟨applied, hserved, hle, hreplaced⟩
      cases applied with
      | nil => cases Served.nil_iff.mp hserved.1
      | cons a applied =>
        obtain ⟨rfl, hrest⟩ := (served_cons_iff hout).mp hserved
        refine ⟨applied, hrest, ?_, ?_⟩
        · simpa using hle
        · simpa using hreplaced
  | case4 budget rule rest p e happly =>
    obtain ⟨cause, hcause, _⟩ := applyRule_eq_error_iff.mp happly
    constructor
    · nofun
    · rintro ⟨applied, ⟨hserved, hpass⟩, _⟩
      cases applied with
      | nil => cases Served.nil_iff.mp hserved
      | cons a applied => exact absurd hpass (not_served_cons hcause hserved)

/-- A queue is not worked off if a rule still waits when the budget is spent, or if the next rule
    fails before that. -/
theorem work_eq_error_iff {e : PipelineError} : work origin budget queue p = .error e ↔
    ∃ applied tree' next later,
      (Served queue applied (next :: later) ∧ Passes Steps applied p.tree tree') ∧
        (applied.length = budget ∧
            e = ⟨Fixer.name origin, .followUpBoundExceeded (Fixer.name origin) followUpLimit⟩ ∨
          applied.length < budget ∧ ∃ cause, Fixer.apply next tree' = .error cause ∧
            e = ⟨Fixer.name next, cause⟩) := by
  fun_induction work origin budget queue p with
  | case1 budget p =>
    constructor
    · nofun
    · rintro ⟨applied, tree', next, later, ⟨hserved, _⟩, _⟩
      cases hserved
  | case2 rule rest p =>
    constructor
    · intro h
      exact ⟨[], p.tree, rule, rest, ⟨.nil _, .nil _⟩, .inl ⟨rfl, (Except.error.inj h).symm⟩⟩
    · rintro ⟨applied, tree', next, later, _, ⟨_, rfl⟩ | ⟨hlt, _⟩⟩
      · rfl
      · simp at hlt
  | case3 budget rule rest p p₁ followUps happly ih =>
    obtain ⟨out, hout, rfl, rfl⟩ := applyRule_eq_ok_iff.mp happly
    rw [ih]
    constructor
    · rintro ⟨applied, tree', next, later, hserved, hend⟩
      refine ⟨⟨rule, out⟩ :: applied, tree', next, later,
        (served_cons_iff hout).mpr ⟨rfl, hserved⟩, ?_⟩
      simpa using hend
    · rintro ⟨applied, tree', next, later, hserved, hend⟩
      cases applied with
      | nil =>
        -- The first rule was applied, so it is not the one that fails.
        obtain ⟨rfl, rfl⟩ := List.cons_eq_cons.mp (Served.nil_iff.mp hserved.1)
        obtain rfl := Passes.nil_iff.mp hserved.2
        simp [hout] at hend
      | cons a applied =>
        obtain ⟨rfl, hrest⟩ := (served_cons_iff hout).mp hserved
        exact ⟨applied, tree', next, later, hrest, by simpa using hend⟩
  | case4 budget rule rest p e' happly =>
    obtain ⟨cause, hcause, rfl⟩ := applyRule_eq_error_iff.mp happly
    constructor
    · intro h
      refine ⟨[], p.tree, rule, rest, ⟨.nil _, .nil _⟩, .inr ⟨by simp, cause, hcause, ?_⟩⟩
      exact (Except.error.inj h).symm
    · rintro ⟨applied, tree', next, later, ⟨hserved, hpass⟩, hend⟩
      cases applied with
      | nil =>
        obtain ⟨rfl, rfl⟩ := List.cons_eq_cons.mp (Served.nil_iff.mp hserved)
        obtain rfl := Passes.nil_iff.mp hpass
        simpa [hcause, eq_comm] using hend
      | cons a applied => exact absurd hpass (not_served_cons hcause hserved)

end Work

/-! ## The rules of a pipeline -/

section Turns

variable {rule : R} {rules : List R} {tree tree' : Node} {applied : List (Application R)}

/-- Work on a rule of a pipeline: the rule and what it schedules are applied, each to the tree that
    the last one left, generation by generation. Some rules may be left waiting. -/
structure Works (rule : R) (tree : Node) (applied : List (Application R)) (tree' : Node)
    (waiting : List R) : Prop where
  passes : Passes Steps applied tree tree'
  inGenerations : Generations [rule] applied waiting

theorem works_iff {waiting : List R} : Works rule tree applied tree' waiting ↔
    Served [rule] applied waiting ∧ Passes Steps applied tree tree' := by
  rw [served_iff_generations]
  exact ⟨fun h => ⟨h.inGenerations, h.passes⟩, fun h => ⟨h.2, h.1⟩⟩

/-- The work on a rule is complete: nothing waits, and not too many rules were scheduled. What was
    replaced is added to what was replaced before, in the order of application. -/
def Completes (rule : R) (before after : Outcome) : Prop :=
  ∃ applied, Works rule before.tree applied after.tree [] ∧
    applied.length ≤ followUpLimit + 1 ∧
    after.transforms = before.transforms ++ replaced applied

/-- A rule waits when the rule of the pipeline and as many others as are allowed were applied. -/
def Exceeds (rule : R) (tree : Node) : Prop :=
  ∃ applied tree' waiting, Works rule tree applied tree' waiting ∧
    applied.length = followUpLimit + 1 ∧ waiting ≠ []

/-- The next rule fails while there is room for it. -/
def Fails (rule : R) (tree : Node) (e : PipelineError) : Prop :=
  ∃ applied tree' next later cause, Works rule tree applied tree' (next :: later) ∧
    applied.length ≤ followUpLimit ∧ Fixer.apply next tree' = .error cause ∧
    e = ⟨Fixer.name next, cause⟩

/-- Reaching the bound and failing before it exclude each other. -/
theorem Exceeds.not_fails {e : PipelineError} (h : Exceeds rule tree) : ¬Fails rule tree e := by
  rintro ⟨applied, tree', next, later, cause, hworks, hle, hcause, _⟩
  obtain ⟨applied', tree'', waiting, hworks', hlength, _⟩ := h
  obtain ⟨hserved, hpass⟩ := works_iff.mp hworks
  obtain ⟨hserved', hpass'⟩ := works_iff.mp hworks'
  obtain ⟨_, _, out, heq, hout⟩ := hserved.exists_next hpass hserved' hpass' (by omega)
  obtain ⟨rfl, rfl⟩ := List.cons_eq_cons.mp heq
  rw [hcause] at hout
  cases hout

/-- The work on a rule ends with an error: under its own name if the bound is reached, and otherwise
    under the name of the rule that fails. -/
def Breaks (rule : R) (tree : Node) (e : PipelineError) : Prop :=
  Exceeds rule tree ∧
      e = ⟨Fixer.name rule, .followUpBoundExceeded (Fixer.name rule) followUpLimit⟩ ∨
    ¬Exceeds rule tree ∧ Fails rule tree e

/-- The outcome that a run in progress has so far. -/
def Progress.outcome (p : Progress) : Outcome := ⟨p.tree, p.replaced.reverse⟩

theorem Progress.outcome_inj {p p' : Progress} : p.outcome = p'.outcome ↔ p = p' := by
  cases p
  cases p'
  simp [outcome]

theorem Progress.exists_outcome (o : Outcome) : ∃ p : Progress, p.outcome = o :=
  ⟨⟨o.tree, o.transforms.reverse⟩, by simp [outcome]⟩

theorem runRule_eq_ok_iff {p p' : Progress} :
    runRule rule p = .ok p' ↔ Completes rule p.outcome p'.outcome := by
  have hreplaced (applied : List (Application R)) :
      p'.replaced = (replaced applied).reverse ++ p.replaced ↔
        p'.replaced.reverse = p.replaced.reverse ++ replaced applied := by
    rw [← List.reverse_inj, List.reverse_append, List.reverse_reverse]
  simp only [runRule_eq_work, work_eq_ok_iff, Completes, works_iff, Progress.outcome, hreplaced]

theorem runRule_eq_error_iff {p : Progress} {e : PipelineError} :
    runRule rule p = .error e ↔ Breaks rule p.tree e := by
  rw [runRule_eq_work, work_eq_error_iff]
  constructor
  · rintro ⟨applied, tree', next, later, hserved, ⟨hlength, rfl⟩ | ⟨hlt, cause, hcause, rfl⟩⟩
    · exact .inl ⟨⟨applied, tree', _, works_iff.mpr hserved, hlength, by simp⟩, rfl⟩
    · have hfails : Fails rule p.tree ⟨Fixer.name next, cause⟩ :=
        ⟨applied, tree', next, later, cause, works_iff.mpr hserved, by omega, hcause, rfl⟩
      exact .inr ⟨fun hexceeds => hexceeds.not_fails hfails, hfails⟩
  · rintro (⟨⟨applied, tree', waiting, hworks, hlength, hwaiting⟩, rfl⟩ | ⟨_, hfails⟩)
    · obtain ⟨next, later, rfl⟩ := List.exists_cons_of_ne_nil hwaiting
      exact ⟨applied, tree', next, later, works_iff.mp hworks, .inl ⟨hlength, rfl⟩⟩
    · obtain ⟨applied, tree', next, later, cause, hworks, hle, hcause, rfl⟩ := hfails
      exact ⟨applied, tree', next, later, works_iff.mp hworks,
        .inr ⟨by omega, cause, hcause, rfl⟩⟩

theorem completes_iff {p : Progress} {o : Outcome} :
    Completes rule p.outcome o ↔ ∃ p', runRule rule p = .ok p' ∧ p'.outcome = o := by
  constructor
  · intro h
    obtain ⟨p', rfl⟩ := Progress.exists_outcome o
    exact ⟨p', runRule_eq_ok_iff.mpr h, rfl⟩
  · rintro ⟨p', hrun, rfl⟩
    exact runRule_eq_ok_iff.mp hrun

/-- The work on some rule of a pipeline breaks off, after that on all rules before it. -/
def Stops (rules : List R) (start : Outcome) (e : PipelineError) : Prop :=
  ∃ before rule after o, rules = before ++ rule :: after ∧ Passes Completes before start o ∧
    Breaks rule o.tree e

theorem not_stops_nil {start : Outcome} {e : PipelineError} : ¬Stops ([] : List R) start e := by
  rintro ⟨before, rule, after, o, heq, _⟩
  simp at heq

theorem stops_cons_iff {start : Outcome} {e : PipelineError} :
    Stops (rule :: rules) start e ↔
      Breaks rule start.tree e ∨ ∃ o, Completes rule start o ∧ Stops rules o e := by
  constructor
  · rintro ⟨before, rule', after, o, heq, hpass, hbreaks⟩
    cases before with
    | nil =>
      obtain ⟨rfl, rfl⟩ := List.cons_eq_cons.mp heq
      obtain rfl := Passes.nil_iff.mp hpass
      exact .inl hbreaks
    | cons first before =>
      obtain ⟨rfl, rfl⟩ := List.cons_eq_cons.mp heq
      obtain ⟨o₁, hfirst, hpass⟩ := Passes.cons_iff.mp hpass
      exact .inr ⟨o₁, hfirst, before, rule', after, o, rfl, hpass, hbreaks⟩
  · rintro (hbreaks | ⟨o₁, hfirst, before, rule', after, o, rfl, hpass, hbreaks⟩)
    · exact ⟨[], rule, rules, start, rfl, .nil _, hbreaks⟩
    · exact ⟨rule :: before, rule', after, o, rfl, .cons hfirst hpass, hbreaks⟩

theorem runAll_cons (p : Progress) :
    runAll (rule :: rules) p = runRule rule p >>= runAll rules :=
  List.foldlM_cons

theorem runAll_eq_ok_iff {p p' : Progress} :
    runAll rules p = .ok p' ↔ Passes Completes rules p.outcome p'.outcome := by
  induction rules generalizing p with
  | nil =>
    cases p
    cases p'
    simp [runAll, Progress.outcome, pure, Except.pure]
  | cons rule rules ih =>
    rw [runAll_cons, Except.bind_eq_ok, Passes.cons_iff]
    simp only [ih, completes_iff]
    constructor
    · rintro ⟨p₁, hfirst, hrest⟩
      exact ⟨p₁.outcome, ⟨p₁, hfirst, rfl⟩, hrest⟩
    · rintro ⟨_, ⟨p₁, hfirst, rfl⟩, hrest⟩
      exact ⟨p₁, hfirst, hrest⟩

theorem runAll_eq_error_iff {p : Progress} {e : PipelineError} :
    runAll rules p = .error e ↔ Stops rules p.outcome e := by
  induction rules generalizing p with
  | nil => exact ⟨nofun, fun h => absurd h not_stops_nil⟩
  | cons rule rules ih =>
    have hbreaks : Breaks rule p.outcome.tree e ↔ runRule rule p = .error e :=
      runRule_eq_error_iff.symm
    rw [runAll_cons, stops_cons_iff, hbreaks]
    simp only [completes_iff]
    cases hfirst : runRule rule p with
    | error e' => simp [bind, Except.bind]
    | ok p₁ => simp [bind, Except.bind, ih]

theorem run_eq_ok_iff {o : Outcome} :
    run rules tree = .ok o ↔ Passes Completes rules ⟨tree, []⟩ o := by
  have hstart : (⟨tree, []⟩ : Outcome) = (Progress.mk tree []).outcome := rfl
  obtain ⟨p, rfl⟩ := Progress.exists_outcome o
  rw [hstart, ← runAll_eq_ok_iff, run, Except.bind_eq_ok]
  constructor
  · rintro ⟨p', hrun, ho⟩
    rwa [← Progress.outcome_inj.mp (Except.ok.inj ho)]
  · intro hrun
    exact ⟨p, hrun, rfl⟩

theorem run_eq_error_iff {e : PipelineError} :
    run rules tree = .error e ↔ Stops rules ⟨tree, []⟩ e := by
  have hstart : (⟨tree, []⟩ : Outcome) = (Progress.mk tree []).outcome := rfl
  rw [hstart, ← runAll_eq_error_iff, run]
  cases runAll rules ⟨tree, []⟩ with
  | error e' => simp [bind, Except.bind]
  | ok p => simp [bind, Except.bind, pure, Except.pure]

/-! ## Pipelines one after the other -/

/-- What was replaced before does not matter for the work on rules. -/
theorem completes_after (earlier : List Transform) {start o : Outcome}
    (h : Passes Completes rules start o) :
    Passes Completes rules ⟨start.tree, earlier ++ start.transforms⟩
      ⟨o.tree, earlier ++ o.transforms⟩ := by
  refine h.image (fun o => (⟨o.tree, earlier ++ o.transforms⟩ : Outcome)) ?_
  rintro rule start o ⟨applied, hworks, hle, htransforms⟩
  exact ⟨applied, hworks, hle, by simp [htransforms]⟩

theorem Stops.append_left {more : List R} {start : Outcome} {e : PipelineError}
    (h : Stops rules start e) : Stops (rules ++ more) start e := by
  obtain ⟨before, rule, after, o, rfl, hpass, hbreaks⟩ := h
  exact ⟨before, rule, after ++ more, o, by simp, hpass, hbreaks⟩

theorem Stops.append_right {more : List R} {start o : Outcome} {e : PipelineError}
    (hpass : Passes Completes rules start o) (h : Stops more ⟨o.tree, []⟩ e) :
    Stops (rules ++ more) start e := by
  obtain ⟨before, rule, after, o', rfl, hbefore, hbreaks⟩ := h
  have hbefore := completes_after o.transforms hbefore
  rw [List.append_nil] at hbefore
  exact ⟨rules ++ before, rule, after, _, by simp, Passes.append_iff.mpr ⟨o, hpass, hbefore⟩,
    hbreaks⟩

theorem run_append (rules more : List R) (tree : Node) :
    run (rules ++ more) tree = (do
      let o ← run rules tree
      let o' ← run more o.tree
      return ⟨o'.tree, o.transforms ++ o'.transforms⟩) := by
  cases hrun : run rules tree with
  | error e => exact run_eq_error_iff.mpr (run_eq_error_iff.mp hrun).append_left
  | ok o =>
    have hpass := run_eq_ok_iff.mp hrun
    simp only [bind, Except.bind]
    cases hmore : run more o.tree with
    | error e => exact run_eq_error_iff.mpr (.append_right hpass (run_eq_error_iff.mp hmore))
    | ok o' =>
      have hlater := completes_after o.transforms (run_eq_ok_iff.mp hmore)
      rw [List.append_nil] at hlater
      exact run_eq_ok_iff.mpr (Passes.append_iff.mpr ⟨o, hpass, hlater⟩)

end Turns

/-- A run of any rules comes to an end. It succeeds if the work on each rule can be completed in
    turn, and it fails where the work on a rule breaks off. A pipeline in two parts runs as the
    first part and then the second on what it left. -/
theorem run_in_generations (rules : List R) (tree : Node) :
    ((∃ o, Passes Completes rules ⟨tree, []⟩ o) ∨ ∃ e, Stops rules ⟨tree, []⟩ e) ∧
      (∀ o, run rules tree = .ok o ↔ Passes Completes rules ⟨tree, []⟩ o) ∧
      (∀ e, run rules tree = .error e ↔ Stops rules ⟨tree, []⟩ e) ∧
      ∀ more : List R, run (rules ++ more) tree = (do
        let o ← run rules tree
        let o' ← run more o.tree
        return ⟨o'.tree, o.transforms ++ o'.transforms⟩) := by
  refine ⟨?_, fun _ => run_eq_ok_iff, fun _ => run_eq_error_iff, ?_⟩
  · cases hrun : run rules tree with
    | ok o => exact .inl ⟨o, run_eq_ok_iff.mp hrun⟩
    | error e => exact .inr ⟨e, run_eq_error_iff.mp hrun⟩
  · intro more
    exact run_append rules more tree

end Pipeline

end Restyle
