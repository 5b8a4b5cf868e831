-- SUMMARY: Successful runs of monadic code, and what they make of lists and kinds.
import Restyle.Tree.Kind

/-!
# Successful runs

Code that may fail and keeps state is judged by its successful runs only: where they start, where
they end and what they return. `Watchable` collects the monads for which this is enough to follow
`pure` and `bind`; a run over a list or over the children of a kind is then a run from element to
element (`Passes`).
-/

namespace Restyle

/-- Monads whose successful runs can be watched. `Yields x s a s'` says that `x`, started in `s`,
    returns `a` and leaves `s'`. -/
class Watchable (m : Type → Type) [Monad m] (S : outParam Type) where
  Yields {α : Type} : m α → S → α → S → Prop
  pure_iff {α : Type} (a b : α) (s s' : S) : Yields (pure a) s b s' ↔ a = b ∧ s = s'
  bind_iff {α β : Type} (x : m α) (f : α → m β) (s s'' : S) (b : β) :
    Yields (x >>= f) s b s'' ↔ ∃ a s', Yields x s a s' ∧ Yields (f a) s' b s''

export Watchable (Yields)

section

variable {m : Type → Type} [Monad m] {S : Type} [Watchable m S] {α β : Type}

theorem yields_pure {a b : α} {s s' : S} : Yields (pure a : m α) s b s' ↔ a = b ∧ s = s' :=
  Watchable.pure_iff a b s s'

theorem yields_bind {x : m α} {f : α → m β} {s s'' : S} {b : β} :
    Yields (x >>= f) s b s'' ↔ ∃ a s', Yields x s a s' ∧ Yields (f a) s' b s'' :=
  Watchable.bind_iff x f s s'' b

end

theorem Except.bind_eq_ok {ε α β : Type} {x : Except ε α} {f : α → Except ε β} {b : β} :
    x >>= f = .ok b ↔ ∃ a, x = .ok a ∧ f a = .ok b := by
  cases x <;> simp [bind, Except.bind]

namespace Except

variable {ε α β : Type}

theorem exists_ok_of_isOk {x : Except ε α} (h : x.isOk = true) : ∃ a, x = .ok a := by
  cases x with
  | error e => cases h
  | ok a => exact ⟨a, rfl⟩

theorem exists_ok_of_toOption_map {x : Except ε α} {f : α → β} {b : β}
    (h : x.toOption.map f = some b) : ∃ a, x = .ok a ∧ f a = b := by
  cases x with
  | error e => cases h
  | ok a => exact ⟨a, rfl, Option.some.inj h⟩

/-- Actions that all succeed succeed together. -/
theorem mapM_eq_ok {f : α → Except ε β} {g : α → β} {l : List α}
    (h : ∀ a ∈ l, f a = .ok (g a)) : l.mapM f = .ok (l.map g) := by
  induction l with
  | nil => rfl
  | cons a l ih =>
    rw [List.mapM_cons, h a (by simp), ih fun b hb => h b (by simp [hb])]
    rfl

theorem exists_ok_of_mapM {f : α → Except ε β} {l : List α} {l' : List β}
    (h : l.mapM f = .ok l') : ∀ a ∈ l, ∃ b, f a = .ok b := by
  induction l generalizing l' with
  | nil => simp
  | cons a l ih =>
    rw [List.mapM_cons] at h
    obtain ⟨b, hb, h⟩ := bind_eq_ok.mp h
    obtain ⟨bs, hbs, _⟩ := bind_eq_ok.mp h
    intro c hc
    rcases List.mem_cons.mp hc with rfl | hc
    · exact ⟨b, hb⟩
    · exact ih hbs c hc

theorem filterAuxM_eq_ok {p : α → Except ε Bool} {q : α → Bool} {l acc : List α}
    (h : ∀ a ∈ l, p a = .ok (q a)) :
    l.filterAuxM p acc = .ok ((l.filter q).reverse ++ acc) := by
  induction l generalizing acc with
  | nil => rfl
  | cons a l ih =>
    have hl (acc : List α) : l.filterAuxM p acc = .ok ((l.filter q).reverse ++ acc) :=
      ih fun b hb => h b (by simp [hb])
    rw [List.filterAuxM, h a (by simp)]
    cases hq : q a
    · simpa [hq, bind, Except.bind] using hl acc
    · simpa [hq, bind, Except.bind] using hl (a :: acc)

/-- Tests that all succeed filter as one. -/
theorem filterM_eq_ok {p : α → Except ε Bool} {q : α → Bool} {l : List α}
    (h : ∀ a ∈ l, p a = .ok (q a)) : l.filterM p = .ok (l.filter q) := by
  rw [List.filterM, filterAuxM_eq_ok h]
  simp [bind, Except.bind, pure, Except.pure]

theorem exists_ok_of_filterAuxM {p : α → Except ε Bool} {l acc l' : List α}
    (h : l.filterAuxM p acc = .ok l') : ∀ a ∈ l, ∃ b, p a = .ok b := by
  induction l generalizing acc with
  | nil => simp
  | cons a l ih =>
    rw [List.filterAuxM] at h
    obtain ⟨b, hb, h⟩ := bind_eq_ok.mp h
    intro c hc
    rcases List.mem_cons.mp hc with rfl | hc
    · exact ⟨b, hb⟩
    · exact ih h c hc

theorem exists_ok_of_filterM {p : α → Except ε Bool} {l l' : List α}
    (h : l.filterM p = .ok l') : ∀ a ∈ l, ∃ b, p a = .ok b := by
  obtain ⟨_, haux, _⟩ := bind_eq_ok.mp h
  exact exists_ok_of_filterAuxM haux

end Except

instance {ε : Type} : Watchable (Except ε) Unit where
  Yields x _ a _ := x = .ok a
  pure_iff := by simp [pure, Except.pure]
  bind_iff x f _ _ b := by simp [Except.bind_eq_ok]

instance {ε S : Type} : Watchable (ExceptT ε (StateM S)) S where
  Yields {α} x s a s' := @Eq (Except ε α × S) (x.run s) (.ok a, s')
  pure_iff a b s s' := by
    change @Eq (Except ε _ × S) (.ok a, s) (.ok b, s') ↔ _
    simp
  bind_iff {α β} x f s s'' b := by
    simp only [bind, ExceptT.bind, ExceptT.mk, ExceptT.run, StateT.bind]
    rcases (x s : Except ε α × S) with ⟨_ | a, s'⟩
    · change @Eq (Except ε β × S) (.error _, s') (.ok b, s'') ↔ _
      simp
    · simp [ExceptT.bindCont, and_assoc]

/-- State on top of a monad that can be watched: both states are seen. -/
instance {m : Type → Type} [Monad m] {S N : Type} [Watchable m S] :
    Watchable (StateT N m) (N × S) where
  Yields x s a s' := Yields (x.run s.1) s.2 (a, s'.1) s'.2
  pure_iff a b s s' := by
    change Yields (pure (a, s.1) : m _) s.2 (b, s'.1) s'.2 ↔ _
    simp [yields_pure, Prod.ext_iff, and_assoc]
  bind_iff x f s s'' b := by
    simp [StateT.run, bind, StateT.bind, yields_bind]

/-! ## Runs over lists -/

section Passes

variable {γ δ S : Type} {step step' : γ → S → S → Prop}

/-- One step for each element of a list, each from where the last one ended. -/
inductive Passes (step : γ → S → S → Prop) : List γ → S → S → Prop
  | nil (s : S) : Passes step [] s s
  | cons {x : γ} {xs : List γ} {s s' s'' : S} :
    step x s s' → Passes step xs s' s'' → Passes step (x :: xs) s s''

namespace Passes

@[simp] theorem nil_iff {s s' : S} : Passes step [] s s' ↔ s = s' := by
  constructor
  · intro h
    cases h
    rfl
  · rintro rfl
    exact .nil s

@[simp] theorem cons_iff {x : γ} {xs : List γ} {s s'' : S} :
    Passes step (x :: xs) s s'' ↔ ∃ s', step x s s' ∧ Passes step xs s' s'' := by
  constructor
  · intro h
    cases h with
    | cons hx hxs => exact ⟨_, hx, hxs⟩
  · rintro ⟨s', hx, hxs⟩
    exact .cons hx hxs

@[simp] theorem append_iff {xs ys : List γ} {s s'' : S} :
    Passes step (xs ++ ys) s s'' ↔ ∃ s', Passes step xs s s' ∧ Passes step ys s' s'' := by
  induction xs generalizing s with
  | nil => simp
  | cons x xs ih =>
    simp only [List.cons_append, cons_iff, ih]
    constructor
    · rintro ⟨s₁, hx, s₂, hxs, hys⟩
      exact ⟨s₂, ⟨s₁, hx, hxs⟩, hys⟩
    · rintro ⟨s₂, ⟨s₁, hx, hxs⟩, hys⟩
      exact ⟨s₁, hx, s₂, hxs, hys⟩

theorem map_iff {f : δ → γ} {xs : List δ} {s s' : S} :
    Passes step (xs.map f) s s' ↔ Passes (fun x => step (f x)) xs s s' := by
  induction xs generalizing s with
  | nil => simp
  | cons x xs ih => simp [ih]

theorem mono {xs : List γ} {s s' : S} (h : Passes step xs s s')
    (hstep : ∀ x ∈ xs, ∀ s s', step x s s' → step' x s s') : Passes step' xs s s' := by
  induction h with
  | nil s => exact .nil s
  | cons hx _ ih =>
    exact .cons (hstep _ (by simp) _ _ hx) (ih fun x hmem => hstep x (by simp [hmem]))

/-- Steps that can be followed in another state are a run there. -/
theorem image {S' : Type} {step' : γ → S' → S' → Prop} (f : S → S') {xs : List γ} {s s' : S}
    (h : Passes step xs s s') (hstep : ∀ x s s', step x s s' → step' x (f s) (f s')) :
    Passes step' xs (f s) (f s') := by
  induction h with
  | nil s => exact .nil _
  | cons hx _ ih => exact .cons (hstep _ _ _ hx) ih

/-- What every step says of its element holds of all elements. -/
theorem forall_mem {P : γ → Prop} {xs : List γ} {s s' : S} (h : Passes step xs s s')
    (hstep : ∀ x ∈ xs, ∀ s s', step x s s' → P x) : ∀ x ∈ xs, P x := by
  induction h with
  | nil s => simp
  | cons hx _ ih =>
    intro x hmem
    rcases List.mem_cons.mp hmem with rfl | hmem
    · exact hstep x (by simp) _ _ hx
    · exact ih (fun y hy => hstep y (by simp [hy])) x hmem

/-- Every element has its step, with the run behind it and the run ahead. -/
theorem exists_step {R : S → S → Prop} (hrefl : ∀ s, R s s)
    (htrans : ∀ s s' s'', R s s' → R s' s'' → R s s'') (hstep : ∀ x s s', step x s s' → R s s')
    {xs : List γ} {s s' : S} (h : Passes step xs s s') :
    R s s' ∧ ∀ x ∈ xs, ∃ t t', R s t ∧ step x t t' ∧ R t' s' := by
  induction h with
  | nil s => exact ⟨hrefl s, by simp⟩
  | @cons x xs s t s' hx _ ih =>
    have hst := hstep x s t hx
    refine ⟨htrans _ _ _ hst ih.1, ?_⟩
    intro y hy
    rcases List.mem_cons.mp hy with rfl | hy
    · exact ⟨s, t, hrefl s, hx, ih.1⟩
    · obtain ⟨u, u', hbehind, hy, hahead⟩ := ih.2 y hy
      exact ⟨u, u', htrans _ _ _ hst hbehind, hy, hahead⟩

/-- Steps that all stay where they are. -/
theorem of_forall {xs : List γ} {s : S} (h : ∀ x ∈ xs, step x s s) : Passes step xs s s := by
  induction xs with
  | nil => exact .nil s
  | cons x xs ih => exact .cons (h x (by simp)) (ih fun y hy => h y (by simp [hy]))

end Passes

end Passes

section Watching

variable {m : Type → Type} [Monad m] [LawfulMonad m] {S : Type} [Watchable m S]
variable {α β : Type}

theorem yields_map {g : α → β} {x : m α} {s s' : S} {b : β} :
    Yields (g <$> x) s b s' ↔ ∃ a, Yields x s a s' ∧ g a = b := by
  rw [map_eq_pure_bind, yields_bind]
  constructor
  · rintro ⟨a, s₁, hx, hpure⟩
    obtain ⟨rfl, rfl⟩ := yields_pure.mp hpure
    exact ⟨a, hx, rfl⟩
  · rintro ⟨a, hx, rfl⟩
    exact ⟨a, s', hx, yields_pure.mpr ⟨rfl, rfl⟩⟩

/-- The step that an action makes from its argument to its value. -/
abbrev stepOf (f : α → m β) (p : α × β) (s s' : S) : Prop := Yields (f p.1) s p.2 s'

theorem yields_mapM {f : α → m β} {l : List α} {l' : List β} {s s' : S} :
    Yields (l.mapM f) s l' s' ↔
      ∃ z : List (α × β), z.map Prod.fst = l ∧ z.map Prod.snd = l' ∧
        Passes (stepOf f) z s s' := by
  induction l generalizing l' s s' with
  | nil =>
    rw [List.mapM_nil, yields_pure]
    constructor
    · rintro ⟨rfl, rfl⟩
      exact ⟨[], rfl, rfl, .nil s⟩
    · rintro ⟨z, hz, rfl, hpass⟩
      obtain rfl := List.map_eq_nil_iff.mp hz
      exact ⟨rfl, Passes.nil_iff.mp hpass⟩
  | cons a l ih =>
    simp only [List.mapM_cons, yields_bind, yields_pure, ih]
    constructor
    · rintro ⟨b, s₁, ha, _, s₂, ⟨z, rfl, rfl, hpass⟩, rfl, rfl⟩
      exact ⟨(a, b) :: z, rfl, rfl, .cons ha hpass⟩
    · rintro ⟨z, hz, rfl, hpass⟩
      obtain ⟨p, z, rfl, rfl, rfl⟩ := List.map_eq_cons_iff.mp hz
      obtain ⟨s₁, ha, hpass⟩ := Passes.cons_iff.mp hpass
      exact ⟨p.2, s₁, ha, _, s', ⟨z, rfl, rfl, hpass⟩, rfl, rfl⟩

end Watching

end Restyle
