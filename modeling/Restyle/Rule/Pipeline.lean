-- SUMMARY: Running a list of rules and the rules that they schedule.
import Restyle.Rule.Basic

/-!
# Pipelines

The rules of a pipeline run in order, each on the tree that the last one left. The rules that a rule
schedules run before the next rule of the pipeline, first come first served, and what they schedule
joins the end of the same queue.
-/

namespace Restyle

/-- A queue as two lists: the items to take next, and the later ones with the last in front. -/
structure Worklist (α : Type) where
  front : List α
  back : List α

namespace Worklist

variable {α : Type}

/-- The waiting items in order. -/
def toList (w : Worklist α) : List α := w.front ++ w.back.reverse

def ofList (items : List α) : Worklist α := ⟨items, []⟩

/-- Adds items at the end. -/
def append (w : Worklist α) (items : List α) : Worklist α := ⟨w.front, items.reverse ++ w.back⟩

/-- Takes the first item. -/
def next? (w : Worklist α) : Option (α × Worklist α) :=
  match w.front with
  | item :: front => some (item, ⟨front, w.back⟩)
  | [] =>
    match w.back.reverse with
    | item :: front => some (item, ⟨front, []⟩)
    | [] => none

theorem toList_ofList (items : List α) : (ofList items).toList = items := by
  simp [toList, ofList]

theorem toList_append (w : Worklist α) (items : List α) :
    (w.append items).toList = w.toList ++ items := by
  simp [toList, append]

theorem next?_eq_none_iff (w : Worklist α) : w.next? = none ↔ w.toList = [] := by
  obtain ⟨front, back⟩ := w
  cases front with
  | cons item front => simp [next?, toList]
  | nil => cases h : back.reverse <;> simp [next?, toList, h]

theorem toList_eq_cons_of_next? {w w' : Worklist α} {item : α} (h : w.next? = some (item, w')) :
    w.toList = item :: w'.toList := by
  obtain ⟨front, back⟩ := w
  cases front with
  | cons x front =>
    simp only [next?, Option.some.injEq, Prod.mk.injEq] at h
    obtain ⟨rfl, rfl⟩ := h
    simp [toList]
  | nil =>
    cases hb : back.reverse with
    | nil => simp [next?, hb] at h
    | cons x front =>
      simp only [next?, hb, Option.some.injEq, Prod.mk.injEq] at h
      obtain ⟨rfl, rfl⟩ := h
      simp [toList, hb]

end Worklist

/-- A rule that failed, under the name of the rule that was applied. -/
structure PipelineError where
  rule : String
  cause : RuleError
  deriving DecidableEq

namespace PipelineError

def message (e : PipelineError) : String := s!"rule {e.rule} failed: {e.cause.message}"

end PipelineError

/-- The result of a run. -/
structure Outcome where
  tree : Node
  /-- The nodes replaced, in the order of application. -/
  transforms : List Transform

namespace Outcome

def isChanged (o : Outcome) : Bool := !o.transforms.isEmpty

end Outcome

namespace Pipeline

variable {R : Type} [Fixer R]

/-- The number of scheduled rules that may run for one rule of the pipeline. -/
def followUpLimit : Nat := 100000

/-- A run in progress: the tree, and the nodes replaced so far, the last in front. -/
structure Progress where
  tree : Node
  replaced : List Transform

/-- Applies one rule: the progress made, and the rules it schedules. -/
def applyRule (rule : R) (p : Progress) : Except PipelineError (Progress × List R) :=
  match Fixer.apply rule p.tree with
  | .ok output => .ok (⟨output.tree, output.transforms.reverse ++ p.replaced⟩, output.followUps)
  | .error cause => .error ⟨Fixer.name rule, cause⟩

/-- Works off the rules that `origin` and its follow-ups schedule. Only `budget` of them may run. -/
def drain (origin : R) : (budget : Nat) → Worklist R → Progress → Except PipelineError Progress
  | budget, queue, p =>
    match queue.next? with
    | none => .ok p
    | some (rule, rest) =>
      match budget with
      | 0 =>
        .error ⟨Fixer.name origin, .followUpBoundExceeded (Fixer.name origin) followUpLimit⟩
      | budget + 1 =>
        match applyRule rule p with
        | .ok (p, followUps) => drain origin budget (rest.append followUps) p
        | .error e => .error e

/-- Applies a rule of the pipeline and all that it schedules. -/
def runRule (rule : R) (p : Progress) : Except PipelineError Progress := do
  let (p, followUps) ← applyRule rule p
  drain rule followUpLimit (.ofList followUps) p

/-- Applies rules in order. -/
def runAll (rules : List R) (p : Progress) : Except PipelineError Progress :=
  rules.foldlM (fun p rule => runRule rule p) p

/-- Runs a pipeline on a tree. The first rule that fails ends the run. -/
def run (rules : List R) (tree : Node) : Except PipelineError Outcome := do
  let p ← runAll rules ⟨tree, []⟩
  return ⟨p.tree, p.replaced.reverse⟩

end Pipeline

end Restyle
