-- SUMMARY: Trees without the record of which type parameters are one node.
import Restyle.Proofs.Tree.Children
import Restyle.Tree.Node

/-!
# Sharing

A list of type parameters tells which of its places hold the very same node. That is no part of what
a tree looks like: it can be neither printed nor written as data. `Node.unshared` leaves it out.
-/

namespace Restyle

/-- A kind in which no two children are one node. -/
def Kind.unshared {α : Type} : Kind α → Kind α
  | typeParameters params _ => typeParameters params []
  | kind => kind

/-- The tree in which no two nodes are one. -/
def Node.unshared : Node → Node :=
  fold fun n kind => ⟨n.id, n.formatting, kind.unshared⟩

namespace Kind

variable {α β : Type}

theorem unshared_unshared (k : Kind α) : k.unshared.unshared = k.unshared := by
  cases k <;> rfl

theorem unshared_map (f : α → β) (k : Kind α) : (k.map f).unshared = k.unshared.map f := by
  cases k <;> rfl

@[simp] theorem children_unshared (k : Kind α) : k.unshared.children = k.children := by
  cases k <;> rfl

@[simp] theorem tag_unshared (k : Kind α) : k.unshared.tag = k.tag := by
  cases k <;> rfl

end Kind

namespace Node

theorem unshared_eq (n : Node) :
    n.unshared = ⟨n.id, n.formatting, (n.kind.map unshared).unshared⟩ := by
  rw [unshared, fold_eq]

@[simp] theorem id_unshared (n : Node) : n.unshared.id = n.id := by
  rw [unshared_eq]

@[simp] theorem formatting_unshared (n : Node) : n.unshared.formatting = n.formatting := by
  rw [unshared_eq]

theorem kind_unshared (n : Node) : n.unshared.kind = (n.kind.map unshared).unshared := by
  rw [unshared_eq]

theorem children_unshared (n : Node) : n.unshared.children = n.children.map unshared := by
  rw [children, kind_unshared, Kind.children_unshared, Kind.children_map]
  rfl

@[simp] theorem unshared_unshared (n : Node) : n.unshared.unshared = n.unshared := by
  induction n using induct with
  | step n ih =>
    have hkind : n.kind.map (unshared ∘ unshared) = n.kind.map unshared := Kind.map_congr ih
    rw [unshared_eq, id_unshared, formatting_unshared, kind_unshared, ← Kind.unshared_map,
      Kind.unshared_unshared, Kind.map_map, hkind, unshared_eq]

theorem kind_unshared_of_unshared {n : Node} (h : n.unshared = n) : n.kind.unshared = n.kind := by
  rw [← h, kind_unshared, Kind.unshared_unshared]

theorem unshared_of_mem_children {n child : Node} (h : n.unshared = n) (hchild : child ∈ n.children) :
    child.unshared = child := by
  have hchildren : n.children.map unshared = n.children.map fun child => child := by
    rw [← children_unshared, h, List.map_id']
  exact List.map_inj_left.mp hchildren child hchild

end Node

end Restyle
