-- SUMMARY: Nodes that stand in a list more than once.
import Restyle.Tree.Node

/-!
# Repeated nodes

A list that was built from nodes may hold one node at several places. Nodes with the same contents
are not one node for that, so the list of type parameters tells which of its places share a node. A
node that is replaced at a place is not shared any more.
-/

namespace Restyle

namespace Repeats

/-- For each key the first place of an equal one; nothing if all keys differ. -/
def ofKeys (keys : List Nat) : List Nat :=
  let places := keys.map fun key => keys.idxOf key
  if places = List.range keys.length then [] else places

/-- Whether one node stands at two places of a list. Nodes with different ids never are one node. -/
def sameAt (nodes : List Node) (repeats : List Nat) (i j : Nat) : Bool :=
  i == j ||
    (repeats[i]?.isSome && repeats[i]? == repeats[j]? &&
      nodes[i]?.map Node.id == nodes[j]?.map Node.id)

/-- What is left of the repetitions if only some places keep their node. -/
def keepWhere (repeats : List Nat) (kept : List Bool) : List Nat :=
  ofKeys <| repeats.zipIdx.map fun (first, i) =>
    if kept[i]? = some true then first else repeats.length + i

end Repeats

namespace Node

/-- A node with new children. As long as no child differs from the old one, all repetitions stay. -/
def rebuild (n : Node) (kind : Kind Node) : Node :=
  match n.kind, kind with
  | .typeParameters old repeats, .typeParameters new _ =>
    let kept := old.zipWith same new
    if repeats.isEmpty || !kept.contains false then n.withKind kind
    else n.withKind (.typeParameters new (Repeats.keepWhere repeats kept))
  | _, _ => n.withKind kind

end Node

end Restyle
