-- SUMMARY: Walks over a tree that report visits and leaves, under a policy that may skip or stop.
import Restyle.Tree.Cursor

/-!
# Walks

A walk visits a node, then its children from the first to the last, then leaves the node. A policy
says at each visit whether to go on, to skip the children, or to stop the whole walk. It is asked at
a station (`Station`): a node in its surroundings, and the way to it from the start of the walk.
-/

namespace Restyle

/-- What a walk does after a visit. -/
inductive Step where
  | proceed | skipChildren | stop
  deriving DecidableEq

/-- A place that a walk comes to: the child positions on the way from its start, and the cursor
    there. -/
structure Station where
  path : List Nat
  cursor : Cursor

/-- What a walk reports. -/
inductive Mark (α : Type) where
  | visit (a : α)
  | leave (a : α)

namespace Mark

def map {α β : Type} (f : α → β) : Mark α → Mark β
  | visit a => visit (f a)
  | leave a => leave (f a)

end Mark

/-- A finished walk: its events in order, and whether it was stopped. -/
structure Trail (α : Type) where
  events : List (Mark α)
  stopped : Bool

namespace Trail

variable {α β : Type}

/-- The walk of nothing. -/
def nothing : Trail α := ⟨[], false⟩

/-- One walk after the other; a stopped walk is the last. -/
def andThen (first second : Trail α) : Trail α :=
  if first.stopped then first else ⟨first.events ++ second.events, second.stopped⟩

/-- Walks one after another, up to the first that is stopped. -/
def inOrder : List (Trail α) → Trail α
  | [] => nothing
  | w :: ws => w.andThen (inOrder ws)

/-- The walk of a node around the walk of its children. A node is left only if nothing below it
    stopped. -/
def around (a : α) (below : Trail α) : Trail α :=
  if below.stopped then ⟨.visit a :: below.events, true⟩
  else ⟨.visit a :: below.events ++ [.leave a], false⟩

def map (f : α → β) (w : Trail α) : Trail β := ⟨w.events.map (Mark.map f), w.stopped⟩

end Trail

/-- An event of a walk at a node. -/
abbrev WalkEvent := Mark Node

/-- A finished walk over nodes. -/
abbrev Walk := Trail Node

namespace Node

/-- Walks a tree with the given ancestors and place, at the end of a path from the start. -/
def walkBelow (policy : Station → Step) : Node → List Node → Nat → List Nat → Trail Station :=
  fold fun n kind ancestors index path =>
    let here : Station := ⟨path, ⟨n, ancestors, index⟩⟩
    match policy here with
    | .stop => ⟨[.visit here], true⟩
    | .skipChildren => Trail.around here .nothing
    | .proceed =>
      Trail.around here
        (Trail.inOrder
          (kind.children.zipIdx.map fun (below, i) => below (n :: ancestors) i (path ++ [i])))

end Node

namespace Station

/-- The start of a walk. -/
def start (c : Cursor) : Station := ⟨[], c⟩

def node (s : Station) : Node := s.cursor.node

/-- The walk over the tree at a station. -/
def trail (policy : Station → Step) (s : Station) : Trail Station :=
  s.node.walkBelow policy s.cursor.ancestors s.cursor.index s.path

end Station

namespace Cursor

/-- Walks the tree at a cursor. -/
def walk (policy : Cursor → Step) (c : Cursor) : Walk :=
  ((Station.start c).trail fun s => policy s.cursor).map Station.node

end Cursor

end Restyle
