-- SUMMARY: Bottom-up editing of trees with a log of the nodes that were replaced.
import Restyle.Tree.Cursor
import Restyle.Tree.Repeats

/-!
# Editing

`Node.edit` rebuilds a tree from the bottom up. An edit sees where the node stands in the old
tree and gets the node with its new children; it may fail, keep state of its own, and record the
node in the log of the session.
-/

namespace Restyle

/-- A node that a rule replaced. -/
structure Transform where
  rule : String
  node : NodeId
  deriving DecidableEq

/-- The nodes that a rule replaced since the log was last emptied. -/
structure TransformLog where
  rule : String
  entries : List Transform := []

namespace TransformLog

def record (log : TransformLog) (node : NodeId) : TransformLog :=
  { log with entries := log.entries ++ [⟨log.rule, node⟩] }

/-- The entries, and the log without them. -/
def take (log : TransformLog) : List Transform × TransformLog :=
  (log.entries, { log with entries := [] })

end TransformLog

/-- What an editing session carries along: state of the edits, and the log. -/
structure Session (σ : Type) where
  state : σ
  log : TransformLog

/-- Edits that may fail. What was recorded before a failure stays recorded. -/
abbrev Edit (σ ε : Type) := ExceptT ε (StateM (Session σ))

namespace Edit

variable {σ ε : Type}

def record (node : NodeId) : Edit σ ε Unit :=
  modify fun s => { s with log := s.log.record node }

/-- Records a node and replaces it. -/
def replace (old new : Node) : Edit σ ε Node := do
  record old.id
  return new

end Edit

namespace Node

variable {m : Type → Type} [Monad m]

/-- Replaces every child by an action, from the first to the last. -/
def mapChildren (f : Node → m Node) (n : Node) : m Node := do
  return n.rebuild (← n.kind.traverse f)

/-- Rebuilds a tree with the given ancestors and place: children first, from left to right. -/
def editBelow (edit : Cursor → Node → m Node) : Node → List Node → Nat → m Node :=
  fold fun n kind ancestors index => do
    let kind ← kind.traverseIdx fun below i => below (n :: ancestors) i
    edit ⟨n, ancestors, index⟩ (n.rebuild kind)

/-- Rebuilds a tree. `edit` gets the old node in its place and the node with its new children. -/
def edit (edit : Cursor → Node → m Node) (n : Node) : m Node := n.editBelow edit [] 0

/-- Runs an editing session on behalf of a rule. -/
def editAs {σ ε : Type} (rule : String) (state : σ) (edit : Cursor → Node → Edit σ ε Node)
    (n : Node) : Except ε Node × Session σ :=
  (n.edit edit).run ⟨state, { rule }⟩

end Node

end Restyle
