-- SUMMARY: When an editing session succeeds.
import Mathlib.Algebra.GroupWithZero.Nat
import Restyle.Proofs.Tree.Editing

/-!
# Sessions that succeed

A session succeeds if all of its edits do. What an edit needs in order to succeed is counted: it may
use up some of a supply, and the supply has to last for all nodes (`Cursor.exists_yields_edited`).
-/

namespace Restyle

instance : Watchable Id Unit where
  Yields x _ a _ := x.run = a
  pure_iff := by simp
  bind_iff x f _ _ b := by simp

namespace Kind

variable {α : Type}

/-- Takes the next of the waiting values, and the argument itself if there is none. -/
def takeNext (a : α) : StateM (List α) α := fun waiting =>
  match waiting with
  | [] => (a, [])
  | b :: rest => (b, rest)

theorem map_snd_of_passes {zs : List (α × α)} {waiting rest : List α}
    (h : Passes (stepOf takeNext) zs (waiting, ()) (rest, ()))
    (hlen : zs.length ≤ waiting.length) : zs.map Prod.snd = waiting.take zs.length := by
  induction zs generalizing waiting with
  | nil => rfl
  | cons p zs ih =>
    cases waiting with
    | nil => simp at hlen
    | cons b waiting =>
      obtain ⟨⟨waiting', _⟩, hp, hzs⟩ := Passes.cons_iff.mp h
      obtain ⟨hb, hwaiting⟩ : b = p.2 ∧ waiting = waiting' := by
        have hrun : ((b, waiting) : α × List α) = (p.2, waiting') := hp
        simpa using hrun
      subst hwaiting
      rw [List.map_cons, ih hzs (by simpa using hlen), hb]
      rfl

/-- The children of a kind can be paired with any others. -/
theorem exists_pairs (k : Kind α) {ps : List (α × α)} (h : ps.map Prod.fst = k.children) :
    ∃ z : Kind (α × α), z.map Prod.fst = k ∧ z.children = ps := by
  -- A traversal that takes its values from a list gives them to the children in order.
  let run := ((k.traverse takeNext).run (ps.map Prod.snd)).run
  have hrun : Yields (k.traverse takeNext) (ps.map Prod.snd, ()) run.1 (run.2, ()) := rfl
  obtain ⟨z, hfst, _, hpass⟩ := yields_traverse.mp hrun
  have hchildren : z.children.map Prod.fst = ps.map Prod.fst := by
    rw [h, ← hfst, children_map]
  have hlen : z.children.length = ps.length := by
    simpa using congrArg List.length hchildren
  refine ⟨z, hfst, ?_⟩
  have hsnd := map_snd_of_passes hpass (by simp [hlen])
  rw [List.take_of_length_le (by simp [hlen])] at hsnd
  rw [List.zip_of_prod hchildren hsnd, ← List.zip_of_prod rfl rfl]

end Kind

/-- Numbered values with others beside them have the others in their order. -/
theorem zipIdx_of_map_fst {α β : Type} {l : List α} {qs : List ((α × Nat) × β)} {i : Nat}
    (h : qs.map Prod.fst = l.zipIdx i) :
    (qs.map fun q => (q.1.1, q.2)).zipIdx i = qs.map fun q => ((q.1.1, q.2), q.1.2) := by
  induction l generalizing qs i with
  | nil =>
    obtain rfl := List.map_eq_nil_iff.mp h
    rfl
  | cons a l ih =>
    obtain ⟨q, qs, rfl, hq, hqs⟩ := List.map_eq_cons_iff.mp h
    rw [List.map_cons, List.map_cons, List.zipIdx_cons, ih hqs, hq]

section Supply

variable {m : Type → Type} [Monad m] [LawfulMonad m] {S : Type} [Watchable m S]
variable {edit : Cursor → Node → m Node} {enough : Nat → S → Prop}

omit [LawfulMonad m] in
/-- Actions that each succeed if there is enough for them succeed one after another if there is
    enough for all. -/
theorem exists_passes {γ : Type} {run : γ → m Node} {need : γ → Nat} {xs : List γ}
    (hrun : ∀ x ∈ xs, ∀ k s, enough (k + need x) s →
      ∃ n' s', Yields (run x) s n' s' ∧ enough k s') {k : Nat} {s : S}
    (h : enough (k + (xs.map need).sum) s) :
    ∃ (qs : List (γ × Node)) (s' : S), qs.map Prod.fst = xs ∧
      Passes (stepOf run) qs s s' ∧ enough k s' := by
  induction xs generalizing s with
  | nil => exact ⟨[], s, rfl, .nil s, by simpa using h⟩
  | cons x xs ih =>
    rw [List.map_cons, List.sum_cons, Nat.add_comm (need x), ← Nat.add_assoc] at h
    obtain ⟨n', s₁, hx, h⟩ := hrun x (by simp) _ s h
    obtain ⟨qs, s', hfst, hqs, h⟩ := ih (fun y hy => hrun y (by simp [hy])) h
    exact ⟨(x, n') :: qs, s', by rw [List.map_cons, hfst], .cons hx hqs, h⟩

/-- A session succeeds if there is enough for the edits of all nodes. -/
theorem Cursor.exists_yields_edited {cost : Cursor → Nat} {c : Cursor}
    (hedit : ∀ d ∈ c.below, ∀ rebuilt k s, enough (k + cost d) s →
      ∃ n' s', Yields (edit d rebuilt) s n' s' ∧ enough k s') {k : Nat} {s : S}
    (h : enough (k + (c.below.map cost).sum) s) :
    ∃ n' s', Yields (c.edited edit) s n' s' ∧ enough k s' := by
  induction c using induct generalizing k s with
  | step c ih =>
    let need (p : Node × Nat) : Nat := ((Cursor.below ⟨p.1, c.path, p.2⟩).map cost).sum
    have hcost : (c.below.map cost).sum = cost c + (c.node.children.zipIdx.map need).sum := by
      rw [below_eq, List.map_cons, List.sum_cons, children, List.flatMap_map, List.map_flatMap,
        List.flatMap_def, List.sum_flatten, List.map_map]
      rfl
    have hchildren : ∀ p ∈ c.node.children.zipIdx, ∀ k s, enough (k + need p) s →
        ∃ n' s', Yields (edited edit ⟨p.1, c.path, p.2⟩) s n' s' ∧ enough k s' := by
      intro p hp k s hk
      have hchild : (⟨p.1, c.path, p.2⟩ : Cursor) ∈ c.children := List.mem_map_of_mem hp
      refine ih _ hchild ?_ hk
      intro d hd
      exact hedit d (mem_below.mpr (.inr ⟨_, hchild, hd⟩))
    rw [hcost, ← Nat.add_assoc] at h
    obtain ⟨qs, s₁, hqs, hpass, h⟩ := exists_passes hchildren h
    have hfirst : (qs.map fun q => (q.1.1, q.2)).map Prod.fst = c.node.kind.children := by
      have hnodes := congrArg (List.map Prod.fst) hqs
      simpa [Node.children, Function.comp_def] using hnodes
    obtain ⟨z, hfst, hz⟩ := c.node.kind.exists_pairs hfirst
    obtain ⟨n', s', hyields, h⟩ :=
      hedit c c.mem_below_self (c.node.rebuild (z.map Prod.snd)) k s₁ h
    refine ⟨n', s', yields_edited.mpr ⟨z, s₁, hfst, ?_, hyields⟩, h⟩
    rw [hz, zipIdx_of_map_fst hqs]
    exact Passes.map_iff.mpr hpass

/-- A session whose edits always succeed does so itself. -/
theorem Cursor.exists_yields_of_forall {c : Cursor}
    (hedit : ∀ d ∈ c.below, ∀ rebuilt s, ∃ n' s', Yields (edit d rebuilt) s n' s') (s : S) :
    ∃ n' s', Yields (c.edited edit) s n' s' := by
  have hsupply : ∀ d ∈ c.below, ∀ rebuilt (k : Nat) s, True →
      ∃ n' s', Yields (edit d rebuilt) s n' s' ∧ True := by
    intro d hd rebuilt _ s _
    obtain ⟨n', s', hyields⟩ := hedit d hd rebuilt s
    exact ⟨n', s', hyields, trivial⟩
  obtain ⟨n', s', hyields, _⟩ :=
    @exists_yields_edited m _ _ S _ edit (fun _ _ => True) (fun _ => 0) c hsupply 0 s trivial
  exact ⟨n', s', hyields⟩

/-- In a session that succeeds, every edit has succeeded. -/
theorem Cursor.exists_yields_of_edited {c : Cursor} {n' : Node} {s s' : S}
    (h : Yields (c.edited edit) s n' s') :
    ∀ d ∈ c.below, ∃ (rebuilt n' : Node) (s s' : S), Yields (edit d rebuilt) s n' s' := by
  refine edit_induct_pairs (P := fun c _ => ∀ d ∈ c.below, ∃ (rebuilt n' : Node) (s s' : S),
    Yields (edit d rebuilt) s n' s') ?_ h
  intro c z n' s₁ s' hfst hpairs hyields d hd
  rcases mem_below.mp hd with rfl | ⟨e, he, hde⟩
  · exact ⟨_, n', s₁, s', hyields⟩
  · obtain ⟨p, hp, rfl⟩ := exists_pair_of_mem_children hfst he
    exact hpairs p hp d hde

end Supply

end Restyle
