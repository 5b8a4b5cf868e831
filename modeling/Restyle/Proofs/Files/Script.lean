-- SUMMARY: Programs on files as values, and pools of programs that run side by side.
import Mathlib.Logic.Function.Basic
import Mathlib.Logic.Relation
import Restyle.Files.Store

/-!
# Scripts

A program that reaches files through `FileSystem` can be run as a value: a `Script` says which
access comes next and how the program goes on with the answer. Scripts that share files run side by
side in a `Pool`, where any of them may make the next access (`Pool.Step`). The files are a map from
paths to contents, in which a write replaces what was there.
-/

namespace Restyle

/-- A program on files: its next access, and how it goes on with the answer. -/
inductive Script (α : Type) where
  | done (result : α)
  | read (path : String) (next : Except FileError String → Script α)
  | write (path text : String) (next : Except FileError Unit → Script α)
  | makeDirectories (path : String) (next : Except FileError Unit → Script α)

/-- The texts of all files, by their paths. -/
abbrev Files := String → Except FileError String

namespace Script

variable {α β : Type}

protected def bind (script : Script α) (f : α → Script β) : Script β :=
  match script with
  | done result => f result
  | read path next => .read path fun answer => (next answer).bind f
  | write path text next => .write path text fun answer => (next answer).bind f
  | makeDirectories path next => .makeDirectories path fun answer => (next answer).bind f

instance : Monad Script where
  pure := .done
  bind := Script.bind

instance : FileSystem Script where
  read path := .read path .done
  write path text := .write path text .done
  makeDirectories path := .makeDirectories path .done

/-- The next access and what it leaves. All writes succeed. -/
def step (files : Files) : Script α → Option (Files × Script α)
  | done _ => none
  | read path next => some (files, next (files path))
  | write path text next => some (Function.update files path (.ok text), next (.ok ()))
  | makeDirectories _ next => some (files, next (.ok ()))

end Script

/-- Scripts that run side by side on the same files. -/
structure Pool (α : Type) where
  files : Files
  tasks : List (Script α)

namespace Pool

variable {α : Type} {p p' : Pool α}

/-- Some task of the pool makes its next access. -/
inductive Step (p : Pool α) : Pool α → Prop
  | access {i : Nat} {task task' : Script α} {files' : Files} :
    p.tasks[i]? = some task → task.step p.files = some (files', task') →
      Step p ⟨files', p.tasks.set i task'⟩

/-- The tasks of a pool make accesses in some order. -/
abbrev Reaches : Pool α → Pool α → Prop := Relation.ReflTransGen Step

/-- A file has some text at some moment of a run. -/
def Held (p p' : Pool α) (path text : String) : Prop :=
  ∃ q, p.Reaches q ∧ q.Reaches p' ∧ q.files path = .ok text

theorem Held.tail {p'' : Pool α} {path text : String} (h : p.Held p' path text)
    (hstep : p'.Step p'') : p.Held p'' path text := by
  obtain ⟨q, hbefore, hafter, htext⟩ := h
  exact ⟨q, hbefore, hafter.tail hstep, htext⟩

end Pool

end Restyle
