-- SUMMARY: The cursors of a tree in the order in which a session leaves them, and what it logs.
import Mathlib.Data.List.Perm.Basic
import Restyle.Proofs.Tree.Editing

/-!
# Post-order

A session edits the children of a node before the node itself, so it leaves the nodes in post-order.
If an edit records its node or nothing, and its place decides which, the log of the session lists
the nodes so decided in that order (`Cursor.log_of_edited`).
-/

namespace Restyle

namespace Node

/-- The cursors of a tree with the given ancestors and place, children first. -/
def leavingBelow : Node → List Node → Nat → List Cursor :=
  fold fun n kind ancestors index =>
    (kind.children.zipIdx.flatMap fun (below, i) => below (n :: ancestors) i) ++
      [⟨n, ancestors, index⟩]

/-- The nodes of a tree, children first. -/
def postorder : Node → List Node := fold fun n kind => kind.children.flatten ++ [n]

theorem postorder_eq (n : Node) : n.postorder = n.children.flatMap postorder ++ [n] := by
  rw [postorder, fold_eq, Kind.children_map, List.flatMap_def]
  rfl

end Node

namespace Cursor

/-- The cursors at and below a cursor, children first. -/
def postorder (c : Cursor) : List Cursor := c.node.leavingBelow c.ancestors c.index

theorem postorder_eq (c : Cursor) : c.postorder = c.children.flatMap postorder ++ [c] := by
  rw [postorder, Node.leavingBelow, Node.fold_eq, Kind.children_map, List.zipIdx_map,
    List.flatMap_map, children, List.flatMap_map]
  rfl

theorem postorder_perm (c : Cursor) : c.postorder.Perm c.below := by
  induction c using induct with
  | step c ih =>
    rw [postorder_eq, below_eq]
    exact (List.perm_append_singleton _ _).trans ((List.Perm.flatMap_left _ ih).cons c)

/-- The nodes below a cursor do not depend on what is above it. -/
theorem map_node_postorder (c : Cursor) :
    c.postorder.map (fun d => d.node) = c.node.postorder := by
  induction c using induct with
  | step c ih =>
    rw [postorder_eq, Node.postorder_eq, List.map_append, List.map_flatMap, ← c.map_node_children,
      List.flatMap_map]
    congr 1
    exact List.flatMap_congr ih

/-- The cursors of the children, given the children with others beside them. -/
theorem children_eq_map_pairs {c : Cursor} {z : Kind (Node × Node)}
    (hfst : z.map Prod.fst = c.node.kind) :
    c.children = z.children.zipIdx.map fun p => ⟨p.1.1, c.path, p.2⟩ := by
  rw [children, Node.children, ← hfst, Kind.children_map, List.zipIdx_map, List.map_map]
  rfl

variable {σ ε : Type} {edit : Cursor → Node → Edit σ ε Node} {records : Cursor → Bool}

/-- The session logs the nodes that its edits record, children first. -/
theorem log_of_edited
    (hedit : ∀ (d : Cursor) (rebuilt n' : Node) (s s' : Session σ),
      Yields (edit d rebuilt) s n' s' →
        s'.log = if records d then s.log.record d.node.id else s.log)
    {c : Cursor} {n' : Node} {s s' : Session σ} (h : Yields (c.edited edit) s n' s') :
    s'.log = (c.postorder.filter records).foldl (fun log d => log.record d.node.id) s.log := by
  refine edit_induct (P := fun c s _ s' =>
    s'.log = (c.postorder.filter records).foldl (fun log d => log.record d.node.id) s.log) ?_ h
  intro c z n' s s₁ s' hfst hpass hyields
  have hpasses (ds : List Cursor) (s s' : Session σ)
      (hds : Passes (fun d (s s' : Session σ) => s'.log =
        (d.postorder.filter records).foldl (fun log d => log.record d.node.id) s.log) ds s s') :
      s'.log = ((ds.flatMap postorder).filter records).foldl
        (fun log d => log.record d.node.id) s.log := by
    induction hds with
    | nil s => rfl
    | cons hd _ ih => rw [ih, hd, List.flatMap_cons, List.filter_append, List.foldl_append]
  have hbelow := hpasses c.children s s₁
    (by rw [children_eq_map_pairs hfst]; exact Passes.map_iff.mpr hpass)
  rw [hedit c _ n' s₁ s' hyields, hbelow, postorder_eq, List.filter_append, List.foldl_append]
  cases hc : records c <;> simp [hc]

end Cursor

theorem TransformLog.entries_foldl_record {α : Type} (rule : String) (id : α → NodeId)
    (l : List α) :
    (l.foldl (fun log a => log.record (id a)) ({ rule } : TransformLog)).entries =
      l.map fun a => ⟨rule, id a⟩ := by
  suffices ∀ log : TransformLog, l.foldl (fun log a => log.record (id a)) log =
      ⟨log.rule, log.entries ++ l.map fun a => ⟨log.rule, id a⟩⟩ by
    rw [this]
    rfl
  induction l with
  | nil => simp
  | cons a l ih =>
    intro log
    rw [List.foldl_cons, ih]
    simp [TransformLog.record]

end Restyle
