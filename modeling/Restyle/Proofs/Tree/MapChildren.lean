-- SUMMARY: Replacing the children of a node goes through exactly its children, in their order.
import Restyle.Proofs.Tree.Failure
import Restyle.Proofs.Tree.Retouch

/-!
# Replacing children

`Node.mapChildren` is the step of an editing session at one node (`Cursor.edited_eq_mapChildren`).
Whatever its action does with errors and state, it is run on the list of the children from left to
right, ends with the first error, and leaves what the node holds beside its children
(`Node.mapChildren_agrees`).
-/

namespace Restyle

namespace Kind

variable {α β : Type}

/-- What a kind holds beside its children, with a mark in the place of each child. Which children
    are one node is left out. -/
def frame (k : Kind α) : Kind Unit := (k.map fun _ => ()).unshared

@[simp] theorem frame_map (f : α → β) (k : Kind α) : (k.map f).frame = k.frame := by
  rw [frame, map_map]
  rfl

@[simp] theorem frame_unshared (k : Kind α) : k.unshared.frame = k.frame := by
  rw [frame, frame, ← unshared_map, unshared_unshared]

/-- The effects of a traversal are those of the action on the list of the children. -/
theorem traverse_discard_eq_mapM {m : Type → Type} [Monad m] [LawfulMonad m] {γ : Type}
    (f : α → m β) (k : Kind α) (x : m γ) :
    (k.traverse f >>= fun _ => x) = k.children.mapM f >>= fun _ => x := by
  rw [traverse_discard, mapM_discard]

end Kind

theorem Node.frame_rebuild (n : Node) (kind : Kind Node) :
    (n.rebuild kind).kind.frame = kind.frame := by
  rw [← Kind.frame_unshared, unshared_kind_rebuild, Kind.frame_unshared]

-- ---------------------------------------------------------------------------
-- Failing actions with state
-- ---------------------------------------------------------------------------

section Failing

variable {ε σ α β : Type}

/-- What an action that may fail gives when it is started in a state, and the state it leaves. -/
abbrev outcome (x : ExceptT ε (StateM σ) α) (s : σ) : Except ε α × σ := x.run s

/-- An action fails where it fails when its result is put into another form. -/
theorem outcome_bind_pure_eq_error_iff {x : ExceptT ε (StateM σ) α} {g : α → β} {s s' : σ}
    {e : ε} :
    outcome (x >>= fun a => pure (g a)) s = (.error e, s') ↔ outcome x s = (.error e, s') := by
  simp only [outcome, bind, ExceptT.bind, ExceptT.mk, ExceptT.run, StateT.bind]
  rcases (x s : Except ε α × σ) with ⟨e' | a, s₁⟩
  · change @Eq (Except ε β × σ) (.error e', s₁) (.error e, s') ↔ _
    simp
  · change @Eq (Except ε β × σ) (.ok (g a), s₁) (.error e, s') ↔ _
    simp

/-- A traversal fails where the action fails on the list of the children. -/
theorem Kind.outcome_traverse_eq_error_iff {f : α → ExceptT ε (StateM σ) β} {k : Kind α}
    {s s' : σ} {e : ε} :
    outcome (k.traverse f) s = (.error e, s') ↔
      outcome (k.children.mapM f) s = (.error e, s') := by
  rw [← outcome_bind_pure_eq_error_iff (g := fun _ => PUnit.unit), traverse_discard_eq_mapM,
    outcome_bind_pure_eq_error_iff]

end Failing

-- ---------------------------------------------------------------------------
-- Nodes
-- ---------------------------------------------------------------------------

namespace Node

variable {ε σ : Type}

/-- A run that replaces the children succeeds where the action succeeds on all of them, in order. -/
theorem exists_pairs_of_mapChildren {m : Type → Type} [Monad m] [LawfulMonad m] {S : Type}
    [Watchable m S] {f : Node → m Node} {n r : Node} {s s' : S}
    (h : Yields (n.mapChildren f) s r s') :
    ∃ z : Kind (Node × Node), z.map Prod.fst = n.kind ∧ r = n.rebuild (z.map Prod.snd) ∧
      Yields (n.children.mapM f) s r.children s' := by
  obtain ⟨_, s₁, hkind, hr⟩ := yields_bind.mp h
  obtain ⟨rfl, rfl⟩ := yields_pure.mp hr
  obtain ⟨z, hfst, rfl, hpass⟩ := Kind.yields_traverse.mp hkind
  refine ⟨z, hfst, rfl, yields_mapM.mpr ⟨z.children, ?_, ?_, hpass⟩⟩
  · rw [children, ← hfst, Kind.children_map]
  · rw [children_rebuild, Kind.children_map]

/-- Replacing the children of a node runs the action on exactly its children, once each, from the
    first to the last and up to the first error. If there is none, the node has what the action made
    of its children and is otherwise as it was; it is the same node if they all stay. -/
theorem mapChildren_agrees (f : Node → ExceptT ε (StateM σ) Node) (n : Node) (s : σ) :
    match outcome (n.children.mapM f) s with
    | (.error e, s') => outcome (n.mapChildren f) s = (.error e, s')
    | (.ok children, s') =>
      ∃ r, outcome (n.mapChildren f) s = (.ok r, s') ∧ r.children = children ∧
        r.id = n.id ∧ r.formatting = n.formatting ∧ r.tag = n.tag ∧ r.kind.frame = n.kind.frame ∧
        (children = n.children → r = n) := by
  rcases hrun : outcome (n.mapChildren f) s with ⟨e | r, s'⟩
  · have hkind : outcome (n.kind.traverse f) s = (.error e, s') :=
      outcome_bind_pure_eq_error_iff.mp hrun
    have hchildren : outcome (n.children.mapM f) s = (.error e, s') :=
      Kind.outcome_traverse_eq_error_iff.mp hkind
    rw [hchildren]
  · have hyields : Yields (n.mapChildren f) s r s' := hrun
    obtain ⟨z, hfst, rfl, hmapM⟩ := exists_pairs_of_mapChildren hyields
    have hchildren : outcome (n.children.mapM f) s = (.ok _, s') := hmapM
    rw [hchildren]
    refine ⟨_, rfl, rfl, id_rebuild n _, formatting_rebuild n _, tag_rebuild_pairs hfst, ?_, ?_⟩
    · rw [frame_rebuild, ← hfst, Kind.frame_map, Kind.frame_map]
    · intro hsame
      refine rebuild_pairs_self hfst fun p hp => ?_
      rw [children_rebuild, children, ← hfst, Kind.children_map, Kind.children_map] at hsame
      exact List.map_inj_left.mp hsame p hp

end Node

/-- A session replaces the children of a node, counting them, and then edits the node. -/
theorem Cursor.edited_eq_mapChildren {m : Type → Type} [Monad m] [LawfulMonad m]
    (edit : Cursor → Node → m Node) (c : Cursor) :
    c.edited edit =
      (c.node.mapChildren (Kind.numbered fun child i => edited edit ⟨child, c.path, i⟩)).run 0 >>=
        fun r => edit c r.1 := by
  rw [edited_eq, Kind.traverseIdx, Node.mapChildren]
  simp only [bind_assoc, pure_bind, StateT.run_bind, StateT.run_pure]

end Restyle
