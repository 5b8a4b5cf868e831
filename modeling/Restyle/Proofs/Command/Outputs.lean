-- SUMMARY: What stands in the output directory after files were fixed side by side.
import Restyle.Command.Fix
import Restyle.Proofs.Files.Script
import Restyle.Proofs.Interchange.Nodes

/-!
# Outputs

The files of a command are fixed side by side, each by a task that reads its input and may write its
output. The name of an output is the stem of the input, so tasks can have the same output, and the
one that writes last wins. Whatever the order, the file at the output of a report holds the printed
tree of some report with that output, and of the report itself if no other report has it
(`Command.outputs_hold_sources`). Inputs of one name from two directories lose one of their trees
(`Command.output_overwritten`).
-/

namespace Restyle

namespace Command

variable {R : Type} [Fixer R] {rules : List R} {directory input : String}

/-! ## The work on one file -/

/-- The rules make an outcome of the tree in a text. -/
def Fixes (rules : List R) (text : String) (outcome : Outcome) : Prop :=
  ∃ tree, Node.ofText text = .ok tree ∧ Pipeline.run rules tree = .ok outcome

theorem Fixes.unique {text : String} {outcome outcome' : Outcome} (h : Fixes rules text outcome)
    (h' : Fixes rules text outcome') : outcome = outcome' := by
  obtain ⟨tree, htree, hrun⟩ := h
  obtain ⟨tree', htree', hrun'⟩ := h'
  obtain rfl : tree = tree' := Except.ok.inj (htree.symm.trans htree')
  exact Except.ok.inj (hrun.symm.trans hrun')

/-- The report on a file whose printed tree was written. -/
def writtenReport (directory input : String) (outcome : Outcome) : FileReport :=
  { FileReport.completed input outcome.transforms outcome.tree.print with
    output := some (Path.outputFor directory input) }

/-- What the work on a file leaves that has ended without an outcome: a report names the file and a
    fault. -/
def IsFailure (input : String) (result : Except Abort FileReport) : Prop :=
  ∀ report, result = .ok report → ∃ fault, report = .failed input fault

theorem isFailure_failed (input : String) (fault : Fault) :
    IsFailure input (.ok (.failed input fault)) :=
  fun _ h => ⟨fault, (Except.ok.inj h).symm⟩

theorem isFailure_error (input : String) (abort : Abort) : IsFailure input (.error abort) :=
  fun _ h => nomatch h

/-- How the work on a file goes on after its output was written. -/
def finish (directory input : String) (outcome : Outcome) :
    Except FileError Unit → Script (Except Abort FileReport)
  | .ok () => .done (.ok (writtenReport directory input outcome))
  | .error e => .done (.ok (.failed input (.io (Path.outputFor directory input) e.message)))

/-- How the work on a file goes on after its input was read. -/
def resume (rules : List R) (directory input : String) :
    Except FileError String → Script (Except Abort FileReport)
  | .error e => .done (.ok (.failed input (.io input e.message)))
  | .ok text =>
    match Node.ofText text with
    | .error e => .done (.ok (.failed input (.invalidInput input e.message)))
    | .ok tree =>
      match Pipeline.run rules tree with
      | .error e =>
        .done (if e.cause = .idOverflow then .error .idOverflow
          else .ok (.failed input (e.toFault input)))
      | .ok outcome =>
        .write (Path.outputFor directory input) outcome.tree.print (finish directory input outcome)

/-- The work on a file is one read and at most one write. -/
theorem fixFile_eq (rules : List R) (directory input : String) :
    (fixFile rules (some directory) input : Command Script FileReport) =
      Script.read input (resume rules directory input) := by
  change Script.read input _ = _
  congr 1
  funext answer
  cases answer with
  | error e => rfl
  | ok text =>
    simp only [resume, applyTo, bind, pure, ExceptT.bind, ExceptT.pure, ExceptT.mk,
      ExceptT.bindCont, Script.bind, Function.comp_apply]
    cases Node.ofText text with
    | error e => rfl
    | ok tree =>
      simp only [Script.bind, ExceptT.bindCont]
      cases Pipeline.run rules tree with
      | error e =>
        by_cases hoverflow : e.cause = .idOverflow
        · simp only [hoverflow, if_true]
          rfl
        · simp only [hoverflow, if_false]
          rfl
      | ok outcome =>
        change Script.write _ _ _ = Script.write _ _ _
        congr 1
        funext answer
        cases answer <;> rfl

theorem resume_of_fixes {text : String} {outcome : Outcome} (h : Fixes rules text outcome) :
    resume rules directory input (.ok text) =
      .write (Path.outputFor directory input) outcome.tree.print
        (finish directory input outcome) := by
  obtain ⟨tree, htree, hrun⟩ := h
  simp [resume, htree, hrun]

/-- After its input was read, a file fails or has an outcome that is written. -/
theorem resume_cases (rules : List R) (directory input : String)
    (answer : Except FileError String) :
    (∃ text outcome, answer = .ok text ∧ Fixes rules text outcome) ∨
      ∃ result, resume rules directory input answer = .done result ∧ IsFailure input result := by
  cases answer with
  | error e => exact .inr ⟨_, rfl, isFailure_failed _ _⟩
  | ok text =>
    cases htree : Node.ofText text with
    | error e => exact .inr ⟨_, by rw [resume, htree], isFailure_failed _ _⟩
    | ok tree =>
      cases hrun : Pipeline.run rules tree with
      | ok outcome => exact .inl ⟨text, outcome, rfl, tree, htree, hrun⟩
      | error e =>
        refine .inr ⟨_, by simp only [resume, htree, hrun]; rfl, ?_⟩
        split
        · exact isFailure_error _ _
        · exact isFailure_failed _ _

/-! ## Jobs -/

/-- How far the work on a file is. -/
inductive Job where
  | waiting
  /-- The work has ended without an outcome. -/
  | failed (result : Except Abort FileReport)
  /-- The input was read, and its outcome is to be written. -/
  | ready (text : String) (outcome : Outcome)
  | written (text : String) (outcome : Outcome)

namespace Job

variable {job job' : Job} {files files' : Files} {task' : Script (Except Abort FileReport)}

/-- What is left to do. -/
def task (rules : List R) (directory input : String) : Job → Script (Except Abort FileReport)
  | waiting => fixFile rules (some directory) input
  | failed result => .done result
  | ready _ outcome =>
    .write (Path.outputFor directory input) outcome.tree.print (finish directory input outcome)
  | written _ outcome => .done (.ok (writtenReport directory input outcome))

/-- One access in the work on a file. -/
inductive Moves (rules : List R) (directory input : String) (files : Files) :
    Job → Files → Job → Prop
  | read {text : String} {outcome : Outcome} : files input = .ok text →
    Fixes rules text outcome → Moves rules directory input files waiting files (ready text outcome)
  | fail {result : Except Abort FileReport} :
    resume rules directory input (files input) = .done result → IsFailure input result →
    Moves rules directory input files waiting files (failed result)
  | write {text : String} {outcome : Outcome} :
    Moves rules directory input files (ready text outcome)
      (Function.update files (Path.outputFor directory input) (.ok outcome.tree.print))
      (written text outcome)

theorem step_task_iff :
    (job.task rules directory input).step files = some (files', task') ↔
      ∃ job', Moves rules directory input files job files' job' ∧
        task' = job'.task rules directory input := by
  constructor
  · intro h
    cases job with
    | failed _ | written _ _ => cases h
    | ready text outcome =>
      obtain ⟨rfl, rfl⟩ := Prod.mk.inj (Option.some.inj h)
      exact ⟨_, .write, rfl⟩
    | waiting =>
      rw [task, fixFile_eq] at h
      obtain ⟨rfl, rfl⟩ := Prod.mk.inj (Option.some.inj h)
      rcases resume_cases rules directory input (files input) with
        ⟨text, outcome, hread, hfixes⟩ | ⟨result, hdone, hfailed⟩
      · exact ⟨_, .read hread hfixes, by rw [hread, resume_of_fixes hfixes]; rfl⟩
      · exact ⟨_, .fail hdone hfailed, hdone⟩
  · rintro ⟨job', hmoves, rfl⟩
    cases hmoves with
    | read hread hfixes =>
      rw [task, fixFile_eq, Script.step, hread, resume_of_fixes hfixes]
      rfl
    | fail hdone _ =>
      rw [task, fixFile_eq, Script.step, hdone]
      rfl
    | write => rfl

/-- A task that has ended with a report has failed, or has written its outcome. -/
theorem ended_cases {report : FileReport}
    (hdone : job.task rules directory input = .done (.ok report))
    (hfailed : ∀ result, job = failed result → IsFailure input result) :
    (∃ fault, report = .failed input fault) ∨
      ∃ text outcome, job = written text outcome ∧
        report = writtenReport directory input outcome := by
  cases job with
  | waiting =>
    rw [task, fixFile_eq] at hdone
    cases hdone
  | ready text outcome => cases hdone
  | failed result =>
    have hresult : result = .ok report := by simpa [task] using hdone
    exact .inl (hfailed result rfl report hresult)
  | written text outcome =>
    have hreport : writtenReport directory input outcome = report := by simpa [task] using hdone
    exact .inr ⟨text, outcome, rfl, hreport.symm⟩

end Job

/-! ## All files side by side -/

/-- The inputs of a command with how far the work on each is. -/
abbrev Jobs := List (String × Job)

/-- Jobs as tasks on files. -/
def pool (rules : List R) (directory : String) (files : Files) (jobs : Jobs) :
    Pool (Except Abort FileReport) :=
  ⟨files, jobs.map fun entry => entry.2.task rules directory entry.1⟩

section Pool

variable {files files' : Files} {jobs : Jobs} {job job' : Job} {i : Nat}

theorem pool_set (files : Files) :
    pool rules directory files' (jobs.set i (input, job)) =
      ⟨files', (pool rules directory files jobs).tasks.set i (job.task rules directory input)⟩ := by
  simp [pool, List.map_set]

theorem step_of_moves (hjob : jobs[i]? = some (input, job))
    (hmoves : job.Moves rules directory input files files' job') :
    (pool rules directory files jobs).Step
      (pool rules directory files' (jobs.set i (input, job'))) := by
  have htask : (pool rules directory files jobs).tasks[i]? =
      some (job.task rules directory input) := by
    simp [pool, hjob]
  rw [pool_set files]
  exact .access htask (Job.step_task_iff.mpr ⟨job', hmoves, rfl⟩)

/-- A task can be run to its end before any other task goes on. -/
theorem reaches_written (directory : String) {text : String} {outcome : Outcome}
    (hjob : jobs[i]? = some (input, .waiting)) (hread : files input = .ok text)
    (hfixes : Fixes rules text outcome) :
    (pool rules directory files jobs).Reaches
      (pool rules directory
        (Function.update files (Path.outputFor directory input) (.ok outcome.tree.print))
        (jobs.set i (input, .written text outcome))) := by
  have hready : (jobs.set i (input, .ready text outcome))[i]? = some (input, .ready text outcome) :=
    List.getElem?_set_self (List.getElem?_eq_some_iff.mp hjob).1
  have hmoves : Job.Moves rules directory input files (.ready text outcome)
      (Function.update files (Path.outputFor directory input) (.ok outcome.tree.print))
      (.written text outcome) := .write
  have hwrite := step_of_moves hready hmoves
  rw [List.set_set] at hwrite
  exact .tail (.single (step_of_moves hjob (.read hread hfixes))) hwrite

/-- Whatever comes next in a pool is an access in the work on one file. -/
theorem exists_moves_of_step {p' : Pool (Except Abort FileReport)}
    (h : (pool rules directory files jobs).Step p') :
    ∃ i input job files' job', jobs[i]? = some (input, job) ∧
      job.Moves rules directory input files files' job' ∧
      p' = pool rules directory files' (jobs.set i (input, job')) := by
  cases h with
  | @access i task task' files' htask hstep =>
    rw [pool, List.getElem?_map, Option.map_eq_some_iff] at htask
    obtain ⟨⟨input, job⟩, hjob, rfl⟩ := htask
    obtain ⟨job', hmoves, rfl⟩ := Job.step_task_iff.mp hstep
    exact ⟨i, input, job, files', job', hjob, hmoves, (pool_set files).symm⟩

/-! ## What holds in every order -/

/-- An element stays in a list if another one is replaced. -/
theorem mem_set_of_ne {α : Type} {l : List α} {a b c : α} (ha : a ∈ l) (hb : l[i]? = some b)
    (hne : a ≠ b) : a ∈ l.set i c := by
  obtain ⟨j, hj⟩ := List.mem_iff_getElem?.mp ha
  have hij : i ≠ j := by
    rintro rfl
    exact hne (Option.some.inj (hj.symm.trans hb))
  exact List.mem_iff_getElem?.mpr ⟨j, by rw [List.getElem?_set_ne hij, hj]⟩

theorem map_fst_set (hjob : jobs[i]? = some (input, job)) :
    (jobs.set i (input, job')).map Prod.fst = jobs.map Prod.fst := by
  have hinput : (jobs.map Prod.fst)[i]? = some input := by simp [hjob]
  obtain ⟨hlt, hget⟩ := List.getElem?_eq_some_iff.mp hinput
  rw [List.map_set, ← hget, List.set_getElem_self]

/-- All outcomes come from texts that their inputs have held. -/
def Made (rules : List R) (start p : Pool (Except Abort FileReport)) (jobs : Jobs) : Prop :=
  ∀ input text outcome,
    (input, .ready text outcome) ∈ jobs ∨ (input, .written text outcome) ∈ jobs →
      start.Held p input text ∧ Fixes rules text outcome

theorem Made.step {start : Pool (Except Abort FileReport)}
    (h : Made rules start (pool rules directory files jobs) jobs)
    (hreaches : start.Reaches (pool rules directory files jobs))
    (hjob : jobs[i]? = some (input, job))
    (hmoves : job.Moves rules directory input files files' job') :
    Made rules start (pool rules directory files' (jobs.set i (input, job')))
      (jobs.set i (input, job')) := by
  have hstep := step_of_moves hjob hmoves
  intro input' text outcome hentry
  have hold (hentry : (input', .ready text outcome) ∈ jobs ∨
      (input', .written text outcome) ∈ jobs) :
      start.Held (pool rules directory files' (jobs.set i (input, job'))) input' text ∧
        Fixes rules text outcome :=
    (h input' text outcome hentry).imp_left fun hheld => hheld.tail hstep
  rcases hentry with hentry | hentry
  · rcases List.mem_or_eq_of_mem_set hentry with hbefore | heq
    · exact hold (.inl hbefore)
    · cases heq
      cases hmoves with
      | read hread hfixes => exact ⟨⟨_, hreaches, .single hstep, hread⟩, hfixes⟩
  · rcases List.mem_or_eq_of_mem_set hentry with hbefore | heq
    · exact hold (.inr hbefore)
    · cases heq
      cases hmoves with
      | write => exact hold (.inl (List.mem_of_getElem? hjob))

/-- Each output that was written holds what some job has written to it. -/
def Kept (directory : String) (files : Files) (jobs : Jobs) : Prop :=
  ∀ input text outcome, (input, .written text outcome) ∈ jobs →
    ∃ writer text' outcome', (writer, .written text' outcome') ∈ jobs ∧
      Path.outputFor directory writer = Path.outputFor directory input ∧
      files (Path.outputFor directory input) = .ok outcome'.tree.print

theorem Kept.step (h : Kept directory files jobs) (hjob : jobs[i]? = some (input, job))
    (hmoves : job.Moves rules directory input files files' job') :
    Kept directory files' (jobs.set i (input, job')) := by
  intro input' text outcome hentry
  have hnew : (input, job') ∈ jobs.set i (input, job') :=
    List.mem_set (List.getElem?_eq_some_iff.mp hjob).1 _
  -- A job that has written stays as it is, and so does its output unless it is written again.
  have hold (hbefore : (input', .written text outcome) ∈ jobs)
      (hfile : files' (Path.outputFor directory input') =
        files (Path.outputFor directory input')) :
      ∃ writer text' outcome', (writer, .written text' outcome') ∈ jobs.set i (input, job') ∧
        Path.outputFor directory writer = Path.outputFor directory input' ∧
        files' (Path.outputFor directory input') = .ok outcome'.tree.print := by
    obtain ⟨writer, text', outcome', hwriter, hsame, hprinted⟩ := h _ _ _ hbefore
    refine ⟨writer, text', outcome', mem_set_of_ne hwriter hjob ?_, hsame, hfile.trans hprinted⟩
    rintro ⟨⟩
    cases hmoves
  rcases List.mem_or_eq_of_mem_set hentry with hbefore | heq
  · cases hmoves with
    | read _ _ | fail _ _ => exact hold hbefore rfl
    | @write text₁ outcome₁ =>
      by_cases hsame : Path.outputFor directory input' = Path.outputFor directory input
      · exact ⟨input, text₁, outcome₁, hnew, hsame.symm, by rw [hsame, Function.update_self]⟩
      · exact hold hbefore (Function.update_of_ne hsame _ _)
  · cases heq
    cases hmoves with
    | write => exact ⟨input, text, outcome, hnew, rfl, Function.update_self _ _ _⟩

/-- What holds while files are fixed, from the files and inputs at the start. -/
structure Accounts (rules : List R) (directory : String) (start : Pool (Except Abort FileReport))
    (inputs : List String) (files : Files) (jobs : Jobs) : Prop where
  inputs_eq : jobs.map Prod.fst = inputs
  made : Made rules start (pool rules directory files jobs) jobs
  failed : ∀ input result, (input, .failed result) ∈ jobs → IsFailure input result
  kept : Kept directory files jobs
  /-- Only outputs are written. -/
  untouched : ∀ path, (∀ input ∈ inputs, Path.outputFor directory input ≠ path) →
    files path = start.files path

theorem Accounts.step {start : Pool (Except Abort FileReport)} {inputs : List String}
    (h : Accounts rules directory start inputs files jobs)
    (hreaches : start.Reaches (pool rules directory files jobs))
    (hjob : jobs[i]? = some (input, job))
    (hmoves : job.Moves rules directory input files files' job') :
    Accounts rules directory start inputs files' (jobs.set i (input, job')) := by
  refine ⟨(map_fst_set hjob).trans h.inputs_eq, h.made.step hreaches hjob hmoves, ?_,
    h.kept.step hjob hmoves, ?_⟩
  · intro input' result hentry
    rcases List.mem_or_eq_of_mem_set hentry with hbefore | heq
    · exact h.failed input' result hbefore
    · cases heq
      cases hmoves with
      | fail _ hfailed => exact hfailed
  · intro path hpath
    cases hmoves with
    | read _ _ | fail _ _ => exact h.untouched path hpath
    | write =>
      have hinput : input ∈ inputs := by
        rw [← h.inputs_eq]
        exact List.mem_map.mpr ⟨_, List.mem_of_getElem? hjob, rfl⟩
      rw [Function.update_of_ne (hpath input hinput).symm]
      exact h.untouched path hpath

/-- The tasks of a command at the start. -/
def workers (rules : List R) (directory : String) (inputs : List String) (files : Files) :
    Pool (Except Abort FileReport) :=
  ⟨files, inputs.map (fixFile rules (some directory))⟩

theorem workers_eq {inputs : List String} :
    workers rules directory inputs files =
      pool rules directory files (inputs.map fun input => (input, .waiting)) := by
  simp [workers, pool, Function.comp_def, Job.task]

/-- Whatever the order of accesses, the jobs account for all that has happened. -/
theorem exists_accounts {inputs : List String} {p : Pool (Except Abort FileReport)}
    (hrun : (workers rules directory inputs files).Reaches p) :
    ∃ files' jobs, p = pool rules directory files' jobs ∧
      Accounts rules directory (workers rules directory inputs files) inputs files' jobs := by
  induction hrun with
  | refl =>
    refine ⟨files, _, workers_eq, by simp [Function.comp_def], ?_, ?_, ?_, fun _ _ => rfl⟩
    · simp [Made]
    · simp
    · simp [Kept]
  | tail hreaches hstep ih =>
    obtain ⟨files₁, jobs, rfl, haccounts⟩ := ih
    obtain ⟨i, input, job, files', job', hjob, hmoves, rfl⟩ := exists_moves_of_step hstep
    exact ⟨files', _, rfl, haccounts.step hreaches hjob hmoves⟩

/-! ## Reports -/

/-- The tasks of a command at the end. -/
def finished (files : Files) (reports : List FileReport) : Pool (Except Abort FileReport) :=
  ⟨files, reports.map fun report => .done (.ok report)⟩

/-- A report says what the rules have made of a text that its file held during the run. -/
structure Reports (rules : List R) (directory : String)
    (start final : Pool (Except Abort FileReport)) (input : String) (report : FileReport)
    (text : String) (outcome : Outcome) : Prop where
  held : start.Held final input text
  fixes : Fixes rules text outcome
  report_eq : report = writtenReport directory input outcome

theorem status_writtenReport (outcome : Outcome) :
    (writtenReport directory input outcome).status ≠ .failed := by
  rw [writtenReport, FileReport.completed]
  dsimp only
  split <;> simp

theorem output_writtenReport (outcome : Outcome) :
    (writtenReport directory input outcome).output = some (Path.outputFor directory input) := rfl

/-- An input to which no task writes holds one text all the time. -/
theorem eq_of_held {inputs : List String} {final : Pool (Except Abort FileReport)} {text : String}
    (hinput : ∀ other ∈ inputs, Path.outputFor directory other ≠ input)
    (hheld : (workers rules directory inputs files).Held final input text) :
    files input = .ok text := by
  obtain ⟨q, hreaches, _, htext⟩ := hheld
  obtain ⟨files', jobs, rfl, haccounts⟩ := exists_accounts hreaches
  rw [← htext]
  exact (haccounts.untouched input hinput).symm

/-- What a report says is settled by the first text of an input to which no task writes. -/
theorem Reports.outcome_eq {inputs : List String} {final : Pool (Except Abort FileReport)}
    {report : FileReport} {text text' : String} {outcome outcome' : Outcome}
    (h : Reports rules directory (workers rules directory inputs files) final input report text
      outcome)
    (hinput : ∀ other ∈ inputs, Path.outputFor directory other ≠ input)
    (hread : files input = .ok text') (hfixes : Fixes rules text' outcome') :
    outcome = outcome' := by
  obtain rfl : text = text' := Except.ok.inj ((eq_of_held hinput h.held).symm.trans hread)
  exact h.fixes.unique hfixes

section Finished

variable {reports : List FileReport}

theorem report_of_written (hpool : finished files' reports = pool rules directory files jobs)
    {text : String} {outcome : Outcome} (hjob : jobs[i]? = some (input, .written text outcome)) :
    reports[i]? = some (writtenReport directory input outcome) := by
  have htask := congrArg (fun p => p.tasks[i]?) hpool
  simpa [finished, pool, hjob, Job.task] using htask

theorem report_cases (hpool : finished files' reports = pool rules directory files jobs)
    (hfailed : ∀ input result, (input, .failed result) ∈ jobs → IsFailure input result)
    {report : FileReport} (hreport : reports[i]? = some report) :
    ∃ input job, jobs[i]? = some (input, job) ∧
      ((∃ fault, report = .failed input fault) ∨
        ∃ text outcome, job = .written text outcome ∧
          report = writtenReport directory input outcome) := by
  have htask := congrArg (fun p => p.tasks[i]?) hpool
  simp only [finished, pool, List.getElem?_map, hreport, Option.map_some] at htask
  obtain ⟨⟨input, job⟩, hjob, htask⟩ := Option.map_eq_some_iff.mp htask.symm
  refine ⟨input, job, hjob, Job.ended_cases htask fun result hresult => ?_⟩
  exact hfailed input result (hresult ▸ List.mem_of_getElem? hjob)

/-- Each report is about the file of its job. -/
theorem map_path (hpool : finished files' reports = pool rules directory files jobs)
    (hfailed : ∀ input result, (input, .failed result) ∈ jobs → IsFailure input result) :
    reports.map FileReport.path = jobs.map Prod.fst := by
  have hlength : reports.length = jobs.length := by
    simpa [finished, pool] using congrArg (fun p => p.tasks.length) hpool
  refine List.ext_getElem (by simpa using hlength) fun i hi hi' => ?_
  rw [List.length_map] at hi hi'
  obtain ⟨input, job, hjob, hcases⟩ :=
    report_cases hpool hfailed (List.getElem?_eq_getElem hi)
  obtain ⟨_, hget⟩ := List.getElem?_eq_some_iff.mp hjob
  rw [List.getElem_map, List.getElem_map, hget]
  rcases hcases with ⟨fault, hreport⟩ | ⟨text, outcome, -, hreport⟩
  · rw [hreport]
    rfl
  · rw [hreport]
    rfl

end Finished

/-- Files that are fixed side by side, with any order of accesses, are reported in order, each under
    its path. A report that did not fail is about a text that its input held during the run, the
    first one if no task writes to the input. The file at its output holds the printed tree of a
    report with that output, and its own if no other report has it. -/
theorem outputs_hold_sources (rules : List R) (directory : String) (inputs : List String)
    (files files' : Files) (reports : List FileReport)
    (hrun : (workers rules directory inputs files).Reaches (finished files' reports)) :
    reports.map FileReport.path = inputs ∧
    ∀ (i : Nat) input report, inputs[i]? = some input → reports[i]? = some report →
      report.status ≠ .failed →
      ∃ text outcome,
        Reports rules directory (workers rules directory inputs files) (finished files' reports)
          input report text outcome ∧
        ((∀ other ∈ inputs, Path.outputFor directory other ≠ input) → files input = .ok text) ∧
        ((∀ (j : Nat) other, j ≠ i → reports[j]? = some other → other.status ≠ .failed →
            other.output ≠ report.output) →
          files' (Path.outputFor directory input) = .ok outcome.tree.print) ∧
        ∃ (j : Nat) (writer : String) (other : FileReport) (text' : String) (outcome' : Outcome),
          inputs[j]? = some writer ∧ reports[j]? = some other ∧ other.status ≠ .failed ∧
          other.output = report.output ∧
          Reports rules directory (workers rules directory inputs files) (finished files' reports)
            writer other text' outcome' ∧
          files' (Path.outputFor directory input) = .ok outcome'.tree.print := by
  obtain ⟨files₁, jobs, hpool, haccounts⟩ := exists_accounts hrun
  obtain rfl : files' = files₁ := congrArg Pool.files hpool
  have hinputs (k : Nat) : inputs[k]? = jobs[k]?.map Prod.fst := by
    rw [← haccounts.inputs_eq, List.getElem?_map]
  have hreports {k : Nat} {input text : String} {outcome : Outcome}
      (hk : jobs[k]? = some (input, .written text outcome)) :
      Reports rules directory (workers rules directory inputs files) (finished files' reports)
        input (writtenReport directory input outcome) text outcome := by
    obtain ⟨hheld, hfixes⟩ := haccounts.made input text outcome (.inr (List.mem_of_getElem? hk))
    rw [← hpool] at hheld
    exact ⟨hheld, hfixes, rfl⟩
  refine ⟨(map_path hpool haccounts.failed).trans haccounts.inputs_eq, ?_⟩
  intro i input report hinput hreport hstatus
  obtain ⟨input', job, hjob, hcases⟩ := report_cases hpool haccounts.failed hreport
  obtain rfl : input' = input := by simpa [hinputs, hjob] using hinput
  rcases hcases with ⟨fault, rfl⟩ | ⟨text, outcome, rfl, rfl⟩
  · exact absurd rfl hstatus
  obtain ⟨writer, text', outcome', hwriter, hsame, hfile⟩ :=
    haccounts.kept _ _ _ (List.mem_of_getElem? hjob)
  obtain ⟨j, hj⟩ := List.mem_iff_getElem?.mp hwriter
  refine ⟨text, outcome, hreports hjob, fun hfree => eq_of_held hfree (hreports hjob).held, ?_,
    j, writer, _, text', outcome', by simp [hinputs, hj], report_of_written hpool hj,
    status_writtenReport outcome', by simp [output_writtenReport, hsame], hreports hj, hfile⟩
  intro hunique
  -- The report of the job that wrote last has the same output, so it is this one.
  have hji : j = i := by
    by_contra hne
    refine hunique j _ hne (report_of_written hpool hj) (status_writtenReport outcome') ?_
    rw [output_writtenReport, output_writtenReport, hsame]
  subst hji
  obtain ⟨_, heq⟩ := Prod.mk.inj (Option.some.inj (hj.symm.trans hjob))
  rw [hfile, (Job.written.inj heq).2]

end Pool

/-! ## One name in two directories -/

/-- A loop without an initializer, with some text in its place. -/
def bareLoop (padding condition : String) : Node :=
  ⟨1, {}, .forLoop
    ⟨2, {}, .forControl [⟨3, { lead := padding }, .empty⟩] ⟨4, {}, .ident condition .unknown none⟩
      []⟩
    ⟨5, {}, .empty⟩⟩

/-- What a rule that asks for a space makes of the loop. -/
def paddedLoop (condition : String) : Outcome :=
  ⟨bareLoop " " condition, [⟨ForHeader.ruleName, 1⟩]⟩

theorem fixes_bareLoop (condition : String) :
    Fixes [Rule.forHeader .space] (bareLoop "" condition).toText (paddedLoop condition) := by
  have hnesting : (bareLoop "" condition).toJson.nesting ≤ Json.nestingLimit :=
    Nat.le_of_ble_eq_true rfl
  exact ⟨bareLoop "" condition, Node.ofText_toText_of_nesting hnesting, rfl⟩

/-- Two files of one name in two directories, and one of another name, each with a tree of its
    own. -/
def twoDirectories : Files := fun path =>
  if path = "a/A.json" then .ok (bareLoop "" "first").toText
  else if path = "b/A.json" then .ok (bareLoop "" "second").toText
  else if path = "b/B.json" then .ok (bareLoop "" "third").toText
  else .error .notFound

/-- The files of `twoDirectories`, and one that is not there. -/
def fourInputs : List String := ["a/A.json", "b/A.json", "b/B.json", "b/C.json"]

theorem map_outputFor_fourInputs :
    fourInputs.map (Path.outputFor "out") =
      ["out/A.java", "out/A.java", "out/B.java", "out/C.java"] := by
  decide +kernel

theorem outputFor_ne_of_mem_fourInputs {input other : String} (hinput : input ∈ fourInputs)
    (hother : other ∈ fourInputs) : Path.outputFor "out" other ≠ input := by
  have hmem := List.mem_map_of_mem (f := Path.outputFor "out") hother
  rw [map_outputFor_fourInputs] at hmem
  have hdisjoint : ∀ output ∈ ["out/A.java", "out/A.java", "out/B.java", "out/C.java"],
      output ∉ fourInputs := by decide
  exact fun heq => hdisjoint _ hmem (heq ▸ hinput)

def fourReports : List FileReport :=
  [writtenReport "out" "a/A.json" (paddedLoop "first"),
    writtenReport "out" "b/A.json" (paddedLoop "second"),
    writtenReport "out" "b/B.json" (paddedLoop "third"),
    .failed "b/C.json" (.io "b/C.json" FileError.notFound.message)]

theorem map_output_fourReports :
    fourReports.map FileReport.output =
      [some "out/A.java", some "out/A.java", some "out/B.java", none] := by
  decide +kernel

/-- The files of `twoDirectories` can be fixed one after the other. -/
theorem exists_reaches_fourReports :
    ∃ files', (workers [Rule.forHeader .space] "out" fourInputs twoDirectories).Reaches
        (finished files' fourReports) ∧
      files' "out/A.java" = .ok (paddedLoop "second").tree.print := by
  let jobs₀ : Jobs := fourInputs.map fun input => (input, .waiting)
  let jobs₁ := jobs₀.set 0 ("a/A.json", .written (bareLoop "" "first").toText (paddedLoop "first"))
  let jobs₂ := jobs₁.set 1 ("b/A.json", .written (bareLoop "" "second").toText (paddedLoop "second"))
  let jobs₃ := jobs₂.set 2 ("b/B.json", .written (bareLoop "" "third").toText (paddedLoop "third"))
  let files₁ := Function.update twoDirectories "out/A.java" (.ok (paddedLoop "first").tree.print)
  let files₂ := Function.update files₁ "out/A.java" (.ok (paddedLoop "second").tree.print)
  let files₃ := Function.update files₂ "out/B.java" (.ok (paddedLoop "third").tree.print)
  obtain ⟨hfirst, hsecond, hthird, -⟩ :
      Path.outputFor "out" "a/A.json" = "out/A.java" ∧
        Path.outputFor "out" "b/A.json" = "out/A.java" ∧
        Path.outputFor "out" "b/B.json" = "out/B.java" ∧ _ := by
    simpa [fourInputs] using map_outputFor_fourInputs
  have hrun₁ := reaches_written "out" (rfl : jobs₀[0]? = _) (rfl : twoDirectories "a/A.json" = _)
    (fixes_bareLoop "first")
  have hrun₂ := reaches_written "out" (rfl : jobs₁[1]? = _) (rfl : files₁ "b/A.json" = _)
    (fixes_bareLoop "second")
  have hrun₃ := reaches_written "out" (rfl : jobs₂[2]? = _) (rfl : files₂ "b/B.json" = _)
    (fixes_bareLoop "third")
  rw [hfirst] at hrun₁
  rw [hsecond] at hrun₂
  rw [hthird] at hrun₃
  have hmoves : Job.Moves [Rule.forHeader .space] "out" "b/C.json" files₃ .waiting files₃
      (.failed (.ok (.failed "b/C.json" (.io "b/C.json" FileError.notFound.message)))) :=
    .fail rfl (isFailure_failed _ _)
  refine ⟨files₃, ?_, rfl⟩
  rw [workers_eq]
  exact ((hrun₁.trans hrun₂).trans hrun₃).tail (step_of_moves (rfl : jobs₃[3]? = _) hmoves)

/-- Where two inputs have one output, the tree of the first one is lost if the second one is written
    last. -/
theorem output_overwritten :
    ¬∀ (rules : List Rule) (directory : String) (inputs : List String) (files files' : Files)
      (reports : List FileReport), inputs.Nodup →
      (workers rules directory inputs files).Reaches (finished files' reports) →
      ∀ (i : Nat) input report, inputs[i]? = some input → reports[i]? = some report →
        report.status ≠ .failed →
        ∃ text outcome,
          Reports rules directory (workers rules directory inputs files) (finished files' reports)
            input report text outcome ∧
          ∃ output, report.output = some output ∧ files' output = .ok outcome.tree.print := by
  intro h
  obtain ⟨files', hrun, hlast⟩ := exists_reaches_fourReports
  obtain ⟨text, outcome, hreports, output, houtput, hfile⟩ :=
    h _ "out" fourInputs _ _ _ (by decide) hrun 0 "a/A.json" _ rfl rfl
      (status_writtenReport (paddedLoop "first"))
  obtain rfl : outcome = paddedLoop "first" :=
    hreports.outcome_eq (fun _ => outputFor_ne_of_mem_fourInputs (by decide)) rfl
      (fixes_bareLoop "first")
  obtain rfl : "out/A.java" = output := by
    have hfirst : Path.outputFor "out" "a/A.json" = "out/A.java" := by decide +kernel
    rw [output_writtenReport, hfirst] at houtput
    exact Option.some.inj houtput
  have hprints : (paddedLoop "second").tree.print ≠ (paddedLoop "first").tree.print := by
    decide +kernel
  exact hprints (Except.ok.inj (hlast.symm.trans hfile))

/-- All reports on `twoDirectories` name their inputs, the third one has an output of its own, and
    what is found at the output of the first two belongs to one of the reports. -/
theorem outputs_hold_sources_twoDirectories :
    ∃ files', (workers [Rule.forHeader .space] "out" fourInputs twoDirectories).Reaches
        (finished files' fourReports) ∧
      fourReports.map FileReport.path = fourInputs ∧
      files' "out/B.java" = .ok "for( ;third;);" ∧
      ∃ (j : Nat) (writer : String) (report : FileReport) (text : String) (outcome : Outcome),
        fourInputs[j]? = some writer ∧ fourReports[j]? = some report ∧
        report.output = some "out/A.java" ∧
        Reports [Rule.forHeader .space] "out"
          (workers [Rule.forHeader .space] "out" fourInputs twoDirectories)
          (finished files' fourReports) writer report text outcome ∧
        files' "out/A.java" = .ok outcome.tree.print := by
  obtain ⟨files', hrun, -⟩ := exists_reaches_fourReports
  obtain ⟨hpaths, hkept⟩ := outputs_hold_sources _ "out" fourInputs _ _ _ hrun
  have houtput {j : Nat} {report : FileReport} (h : fourReports[j]? = some report) :
      [some "out/A.java", some "out/A.java", some "out/B.java", none][j]? = some report.output := by
    rw [← map_output_fourReports, List.getElem?_map, h, Option.map_some]
  have hfirst := Option.some.inj (houtput (rfl : fourReports[0]? = _))
  have hthird := Option.some.inj (houtput (rfl : fourReports[2]? = _))
  -- No other report has the output of the third one.
  have hunique (j : Nat) (other : FileReport) (hj : j ≠ 2) (hother : fourReports[j]? = some other) :
      other.output ≠ some "out/B.java" := by
    have hmem := houtput hother
    match j with
    | 0 | 1 | 3 =>
      rw [← Option.some.inj hmem]
      decide
    | 2 => exact absurd rfl hj
    | j + 4 => cases hmem
  obtain ⟨_, third, hreports, -, hown, -⟩ :=
    hkept 2 "b/B.json" _ rfl rfl (status_writtenReport (paddedLoop "third"))
  obtain rfl : third = paddedLoop "third" :=
    hreports.outcome_eq (fun _ => outputFor_ne_of_mem_fourInputs (by decide)) rfl
      (fixes_bareLoop "third")
  have hfile := hown fun j other hj hother _ => hthird ▸ hunique j other hj hother
  rw [← Option.some.inj hthird] at hfile
  have hprint : (paddedLoop "third").tree.print = "for( ;third;);" := by decide +kernel
  -- The first report shares its output with the second one, and either tree could be found there.
  obtain ⟨_, _, -, -, -, j, writer, report, text, outcome, hwriter, hreport, -, hsame, hreports,
    hshared⟩ := hkept 0 "a/A.json" _ rfl rfl (status_writtenReport (paddedLoop "first"))
  rw [← Option.some.inj hfirst] at hshared
  exact ⟨files', hrun, hpaths, hprint ▸ hfile, j, writer, report, text, outcome, hwriter, hreport,
    hsame.trans hfirst.symm, hreports, hshared⟩

end Command

end Restyle
