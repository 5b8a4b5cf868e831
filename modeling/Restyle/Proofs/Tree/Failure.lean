-- SUMMARY: The error with which an editing session ends.
import Restyle.Proofs.Tree.Postorder

/-!
# Sessions that fail

A session ends at the first edit that fails. If it can be told from the place of a node whether its
edit fails, the error of the session is that of the first such place in post-order
(`Cursor.raises_edited`). A traversal fails as the walk through its children does that forgets what
it finds (`Kind.traverse_discard`).
-/

namespace Restyle

/-! ## Traversals whose result is not used -/

section Discard

variable {m : Type → Type} [Monad m] [LawfulMonad m] {α β γ : Type}

/-- Acts on each element and forgets the results. -/
def visitAll (f : α → m β) (l : List α) : m PUnit :=
  l.forM fun a => do
    let _ ← f a

omit [LawfulMonad m] in
@[simp] theorem visitAll_nil (f : α → m β) : visitAll f [] = pure ⟨⟩ := rfl

@[simp] theorem visitAll_cons (f : α → m β) (a : α) (l : List α) :
    visitAll f (a :: l) = f a >>= fun _ => visitAll f l := by
  simp [visitAll]

@[simp] theorem visitAll_append (f : α → m β) (l l' : List α) :
    visitAll f (l ++ l') = visitAll f l >>= fun _ => visitAll f l' := by
  simp [visitAll]

theorem mapM_discard (f : α → m β) (l : List α) (x : m γ) :
    (l.mapM f >>= fun _ => x) = visitAll f l >>= fun _ => x := by
  induction l with
  | nil => simp
  | cons a l ih => simp [List.mapM_cons, ih]

theorem mapM_option_discard (f : α → m β) (o : Option α) (x : m γ) :
    (o.mapM f >>= fun _ => x) = visitAll f o.toList >>= fun _ => x := by
  cases o <;> simp

namespace Kind

/-- A traversal visits the children in their order. -/
theorem traverse_discard (f : α → m β) (k : Kind α) (x : m γ) :
    (k.traverse f >>= fun _ => x) = visitAll f k.children >>= fun _ => x := by
  cases k with
  | classDecl modifiers keyword name typeParams superclass body ty =>
    cases superclass <;>
      simp [traverse, children, Padded.traverse, mapM_discard, mapM_option_discard]
  | namedVar name initializer => cases initializer <;> simp [traverse, children, Padded.traverse]
  | typeParameter name bounds =>
    cases bounds <;> simp [traverse, children, Padded.traverse, mapM_discard]
  | _ => simp [traverse, children, Padded.traverse, mapM_discard, mapM_option_discard]

theorem run_visitAll_numbered (f : α → Nat → m β) (l : List α) (i : Nat) :
    (visitAll (numbered f) l).run i =
      visitAll (fun p : α × Nat => f p.1 p.2) (l.zipIdx i) >>= fun _ =>
        pure (⟨⟩, i + l.length) := by
  induction l generalizing i with
  | nil => simp
  | cons a l ih =>
    have hstep : (numbered f a).run i = f a i >>= fun b => pure (b, i + 1) := rfl
    rw [visitAll_cons, StateT.run_bind, hstep, List.zipIdx_cons, visitAll_cons]
    simp [ih, Nat.add_assoc, Nat.add_comm 1]

theorem traverseIdx_discard (f : α → Nat → m β) (k : Kind α) (x : m γ) :
    (k.traverseIdx f >>= fun _ => x) =
      visitAll (fun p : α × Nat => f p.1 p.2) k.children.zipIdx >>= fun _ => x := by
  let forgotten : StateT Nat m PUnit := k.traverse (numbered f) >>= fun _ => pure ⟨⟩
  calc (k.traverseIdx f >>= fun _ => x)
    _ = (k.traverse (numbered f)).run 0 >>= fun _ => x := by
      rw [traverseIdx, bind_assoc]
      simp only [pure_bind]
    _ = forgotten.run 0 >>= fun _ => x := by simp [forgotten]
    _ = visitAll (fun p : α × Nat => f p.1 p.2) k.children.zipIdx >>= fun _ => x := by
      have hvisits : forgotten = visitAll (numbered f) k.children >>= fun _ => pure ⟨⟩ :=
        traverse_discard _ _ _
      simp [hvisits, run_visitAll_numbered]

end Kind

end Discard

/-! ## Errors -/

/-- The action, started in a state, ends with an error. -/
def Raises {σ ε α : Type} (x : Edit σ ε α) (s : Session σ) (e : ε) : Prop :=
  ∃ s', @Eq (Except ε α × Session σ) (x.run s) (.error e, s')

section Raises

variable {σ ε α β : Type} {s : Session σ} {e : ε}

theorem not_raises_pure {a : α} : ¬Raises (pure a : Edit σ ε α) s e := by
  rintro ⟨s', h⟩
  cases h

theorem raises_bind {x : Edit σ ε α} {f : α → Edit σ ε β} :
    Raises (x >>= f) s e ↔ Raises x s e ∨ ∃ a s', Yields x s a s' ∧ Raises (f a) s' e := by
  simp only [Raises, Yields, bind, ExceptT.bind, ExceptT.mk, ExceptT.run, StateT.bind]
  rcases (x s : Except ε α × Session σ) with ⟨e' | a, s'⟩
  · change (∃ s'', @Eq (Except ε β × Session σ) (.error e', s') (.error e, s'')) ↔ _
    simp
  · simp [ExceptT.bindCont]

theorem yields_or_raises (x : Edit σ ε α) (s : Session σ) :
    (∃ a s', Yields x s a s') ∨ ∃ e, Raises x s e := by
  rcases hrun : (x.run s : Except ε α × Session σ) with ⟨e | a, s'⟩
  · exact .inr ⟨e, s', hrun⟩
  · exact .inl ⟨a, s', hrun⟩

theorem not_raises_of_yields {x : Edit σ ε α} {a : α} {s' : Session σ} (h : Yields x s a s') :
    ¬Raises x s e := by
  rintro ⟨s'', hrun⟩
  have hok : @Eq (Except ε α × Session σ) (x.run s) (.ok a, s') := h
  rw [hok] at hrun
  cases hrun

theorem raises_throw {e' : ε} : Raises (throw e' : Edit σ ε α) s e ↔ e' = e := by
  have hrun : (throw e' : Edit σ ε α).run s = ((.error e', s) : Except ε α × Session σ) := rfl
  simp [Raises, hrun]

/-- Of two actions whose errors are known, the first that fails decides. -/
theorem raises_bind_of_fault {x : Edit σ ε α} {f : α → Edit σ ε β} {first second : Option ε}
    (hx : ∀ e, Raises x s e ↔ first = some e)
    (hf : ∀ a s e, Raises (f a) s e ↔ second = some e) :
    Raises (x >>= f) s e ↔ first.or second = some e := by
  rw [raises_bind]
  cases first with
  | some e' =>
    have hnone : ¬∃ a s', Yields x s a s' ∧ Raises (f a) s' e := by
      rintro ⟨a, s', hyields, _⟩
      exact not_raises_of_yields hyields ((hx e').mpr rfl)
    rw [hx, or_iff_left hnone, Option.some_or]
  | none =>
    have hnone (e : ε) : ¬Raises x s e := by simp [hx]
    obtain ⟨a, s₁, hyields⟩ := (yields_or_raises x s).resolve_right fun ⟨e, he⟩ => hnone e he
    rw [or_iff_right (hnone e), Option.none_or]
    exact ⟨fun ⟨_, _, _, h⟩ => (hf _ _ e).mp h, fun h => ⟨a, s₁, hyields, (hf a s₁ e).mpr h⟩⟩

/-- A walk ends with the error of the first element at which it fails. -/
theorem raises_visitAll {run : α → Edit σ ε β} {fault : α → Option ε} {l : List α}
    (h : ∀ a ∈ l, ∀ s e, Raises (run a) s e ↔ fault a = some e) :
    Raises (visitAll run l) s e ↔ l.findSome? fault = some e := by
  induction l generalizing s e with
  | nil => exact iff_of_false not_raises_pure (by simp)
  | cons a l ih =>
    have hrest (s : Session σ) (e : ε) := ih (s := s) (e := e) fun b hb => h b (by simp [hb])
    rw [visitAll_cons, List.findSome?_cons,
      raises_bind_of_fault (h a (by simp) s) fun _ => hrest]
    cases fault a <;> rfl

theorem raises_traverseIdx {f : α → Nat → Edit σ ε β} {k : Kind α} :
    Raises (k.traverseIdx f) s e ↔
      Raises (visitAll (fun p : α × Nat => f p.1 p.2) k.children.zipIdx) s e := by
  -- What fails does so as well if its result is not used.
  have hforget {γ : Type} (x : Edit σ ε γ) :
      Raises (x >>= fun _ => (pure ⟨⟩ : Edit σ ε PUnit)) s e ↔ Raises x s e := by
    simp only [raises_bind, not_raises_pure, and_false, exists_false, or_false]
  rw [← hforget, Kind.traverseIdx_discard, hforget]

end Raises

/-! ## Sessions -/

theorem findSome?_flatMap {α β γ : Type} (f : β → Option γ) (g : α → List β) (l : List α) :
    (l.flatMap g).findSome? f = l.findSome? fun a => (g a).findSome? f := by
  induction l with
  | nil => rfl
  | cons a l ih =>
    rw [List.flatMap_cons, List.findSome?_append, ih, List.findSome?_cons]
    cases (g a).findSome? f <;> rfl

/-- The value of the first element with a property. -/
theorem findSome?_ite {α β : Type} (p : α → Bool) (f : α → β) (l : List α) :
    (l.findSome? fun a => if p a then some (f a) else none) = (l.find? p).map f := by
  induction l with
  | nil => rfl
  | cons a l ih =>
    rw [List.findSome?_cons, List.find?_cons, ih]
    cases p a <;> rfl

namespace Cursor

variable {σ ε : Type} {edit : Cursor → Node → Edit σ ε Node}

/-- A session ends with the error of the first place in post-order at which the edit fails. -/
theorem raises_edited {fault : Cursor → Option ε} {c : Cursor}
    (hfault : ∀ d ∈ c.below, ∀ rebuilt s e, Raises (edit d rebuilt) s e ↔ fault d = some e)
    {s : Session σ} {e : ε} :
    Raises (c.edited edit) s e ↔ c.postorder.findSome? fault = some e := by
  induction c using induct generalizing s e with
  | step c ih =>
    let below (p : Node × Nat) : Cursor := ⟨p.1, c.path, p.2⟩
    have hbelow : ∀ p ∈ c.node.children.zipIdx, ∀ s e,
        Raises ((below p).edited edit) s e ↔ (below p).postorder.findSome? fault = some e := by
      intro p hp s e
      have hchild : below p ∈ c.children := List.mem_map_of_mem hp
      exact ih _ hchild fun d hd => hfault d (mem_below.mpr (.inr ⟨_, hchild, hd⟩))
    have hself := hfault c c.mem_below_self
    have hkids (s : Session σ) (e : ε) :
        Raises (c.node.kind.traverseIdx fun child i => edited edit ⟨child, c.path, i⟩) s e ↔
          (c.children.flatMap postorder).findSome? fault = some e := by
      rw [raises_traverseIdx]
      refine (raises_visitAll hbelow).trans ?_
      rw [findSome?_flatMap, children, List.findSome?_map]
      rfl
    rw [edited_eq, postorder_eq, List.findSome?_append,
      raises_bind_of_fault (hkids s) fun kind => hself (c.node.rebuild kind)]
    simp

end Cursor

end Restyle
