-- SUMMARY: Which declarations are to be marked, said without the counting of writes.
import Restyle.Finality.AddFinal
import Restyle.Proofs.Tree.Sketch

/-!
# Final local variables, declaratively

`AddFinal.qualifies` counts writes, and counts those in loops twice. Here it is said what that count
is for: a local variable with a value is never written, and one without a value is written at most
once and not where this may happen again (`Node.KeepsValue`). The two agree at every place
(`AddFinal.qualifies_iff`). What is declared at such a place is a local variable and never a field
or a parameter (`AddFinal.IsFinalLocal.ofOwners_eq`).
-/

namespace Restyle

/-! ## Writes -/

namespace Node

variable {target : NodeId} {n scope var : Node}

/-- A name that refers to a declaration. -/
def Names (target : NodeId) (n : Node) : Prop := ∃ name ty, n.kind = .ident name ty (some target)

/-- A write to a variable: an assignment to a name that refers to it, or an increment or decrement
    of such a name. -/
inductive Writes (target : NodeId) (n : Node) : Prop
  | assign {written : Node} {value : Padded Node} :
    n.kind = .assign written value → written.Names target → Writes target n
  | step {operator : String} {operand : Node} {isPostfix : Bool} :
    n.kind = .unary operator operand isPostfix → operator = "++" ∨ operator = "--" →
    operand.Names target → Writes target n

theorem refersTo_iff : n.refersTo target = true ↔ n.Names target := by
  unfold refersTo Names
  cases n.kind <;> simp

theorem writesTo_iff : n.writesTo target = true ↔ n.Writes target := by
  unfold writesTo
  constructor
  · intro h
    split at h
    · rename_i hkind
      exact .assign hkind (refersTo_iff.mp h)
    · rename_i hkind
      simp only [Bool.and_eq_true, Bool.or_eq_true, beq_iff_eq] at h
      exact .step hkind h.1 (refersTo_iff.mp h.2)
    · cases h
  · rintro (⟨hkind, hnames⟩ | ⟨hkind, hoperator, hnames⟩)
    · rw [hkind]
      exact refersTo_iff.mpr hnames
    · simp [hkind, hoperator, refersTo_iff.mpr hnames]

instance (target : NodeId) : DecidablePred (Writes target) :=
  fun _ => decidable_of_iff _ writesTo_iff

/-- The variable gets no other value inside of the scope: if it has one from the start, it is not
    written there, and otherwise at most once, and not inside of a loop of the scope. -/
def KeepsValue (scope var : Node) : Prop :=
  if var.isInitialized then ∀ w ∈ scope.cursors, ¬w.node.Writes var.id
  else scope.cursors.countP (fun w => w.node.Writes var.id) ≤ 1 ∧
    ∀ w ∈ scope.cursors, w.node.Writes var.id → ∀ a ∈ w.ancestors, a.tag ≠ .forLoop

/-- Weights of one and two add up to at most one if there is at most one weight and it is one. -/
theorem foldr_weights_le_one_iff {α : Type} (twice : α → Bool) (l : List α) :
    (l.map fun a => if twice a then 2 else 1).foldr (· + ·) 0 ≤ 1 ↔
      l.length ≤ 1 ∧ ∀ a ∈ l, twice a = false := by
  cases l with
  | nil => simp
  | cons a l =>
    have hpos (b : α) : 1 ≤ if twice b then 2 else 1 := by split <;> omega
    cases l with
    | nil => cases h : twice a <;> simp [h]
    | cons b l =>
      have ha := hpos a
      have hb := hpos b
      simp only [List.map_cons, List.foldr_cons, List.length_cons]
      omega

theorem foldr_weights_eq_zero_iff {α : Type} (twice : α → Bool) (l : List α) :
    (l.map fun a => if twice a then 2 else 1).foldr (· + ·) 0 = 0 ↔ l = [] := by
  cases l with
  | nil => simp
  | cons a l =>
    simp only [List.map_cons, List.foldr_cons]
    split <;> simp

/-- The weighted count of writes decides whether a variable keeps its value. -/
theorem isEffectivelyFinal_iff : scope.isEffectivelyFinal var = true ↔ scope.KeepsValue var := by
  unfold isEffectivelyFinal KeepsValue countWrites
  dsimp only
  rw [decide_eq_true_iff]
  split
  · rw [Nat.le_zero, foldr_weights_eq_zero_iff]
    simp [List.filter_eq_nil_iff, ← writesTo_iff]
  · rw [foldr_weights_le_one_iff, List.countP_eq_length_filter]
    simp [← writesTo_iff]

end Node

/-! ## Declarations -/

namespace Cursor

/-- The place of a statement or of a part of the header of a loop: the parent is such a header, or a
    block that is not the child of a class. -/
def IsInBody (c : Cursor) : Prop :=
  ∃ owner outer, c.ancestors = owner :: outer ∧
    (owner.tag = .forControl ∨
      owner.tag = .block ∧ ∀ around ∈ outer.head?, around.tag ≠ .classDecl)

/-- The scope of a place: the nearest ancestor that opens one. -/
def HasScope (c : Cursor) (scope : Node) : Prop :=
  ∃ inner outer, c.ancestors = inner ++ scope :: outer ∧ scope.opensScope = true ∧
    ∀ n ∈ inner, n.opensScope = false

variable {c : Cursor} {scope : Node}

theorem scope?_eq_some_iff : c.scope? = some scope ↔ c.HasScope scope := by
  rw [scope?, enclosing?, List.find?_eq_some_iff_append, HasScope]
  simp only [Bool.not_eq_true']
  constructor
  · rintro ⟨hopens, inner, outer, hanc, hinner⟩
    exact ⟨inner, outer, hanc, hopens, hinner⟩
  · rintro ⟨inner, outer, hanc, hopens, hinner⟩
    exact ⟨hopens, inner, outer, hanc, hinner⟩

end Cursor

namespace AddFinal

variable {c : Cursor}

/-- A declaration with a type but without `final`, in the body of a method or the header of a loop,
    whose variables all keep their values in its scope. -/
def IsFinalLocal (c : Cursor) : Prop :=
  ∃ modifiers typeExpr vars scope, c.node.kind = .variableDecls modifiers (some typeExpr) vars ∧
    c.IsInBody ∧ vars ≠ [] ∧ (∀ m ∈ modifiers, m.kind ≠ .modifier "final") ∧
    c.HasScope scope ∧ ∀ v ∈ vars, scope.KeepsValue v

theorem isLocal_iff : isLocal c = true ↔ c.IsInBody := by
  unfold isLocal Cursor.IsInBody
  cases c.ancestors with
  | nil => simp
  | cons owner outer =>
    cases htag : owner.tag <;> cases outer <;> simp [htag]

/-- The rule marks the declarations that could have been declared `final`, and no others. -/
theorem qualifies_iff (c : Cursor) : qualifies c = true ↔ IsFinalLocal c := by
  unfold qualifies IsFinalLocal
  cases hkind : c.node.kind with
  | variableDecls modifiers typeExpr vars =>
    have hunmarked : (!modifiers.any (Node.isModifier "final")) = true ↔
        ∀ m ∈ modifiers, m.kind ≠ .modifier "final" := by
      simp [← Node.isModifier_iff]
    have hscope : (c.scope?.any fun scope => vars.all scope.isEffectivelyFinal) = true ↔
        ∃ scope, c.HasScope scope ∧ ∀ v ∈ vars, scope.KeepsValue v := by
      simp [Option.any_eq_true, Cursor.scope?_eq_some_iff, Node.isEffectivelyFinal_iff]
    have htype : typeExpr.isSome = true ↔ ∃ type, typeExpr = some type := Option.isSome_iff_exists
    have hvars : (!vars.isEmpty) = true ↔ vars ≠ [] := by simp
    simp only [Bool.and_eq_true, isLocal_iff, htype, hvars, hunmarked, hscope]
    constructor
    · rintro ⟨⟨⟨⟨hbody, type, rfl⟩, hvars⟩, hmodifiers⟩, scope, hrest⟩
      exact ⟨modifiers, type, vars, scope, rfl, hbody, hvars, hmodifiers, hrest⟩
    · rintro ⟨_, type, _, scope, heq, hbody, hvars, hmodifiers, hrest⟩
      obtain ⟨rfl, rfl, rfl⟩ := Kind.variableDecls.inj heq
      exact ⟨⟨⟨⟨hbody, type, rfl⟩, hvars⟩, hmodifiers⟩, scope, hrest⟩
  | _ => simp

instance : DecidablePred IsFinalLocal := fun c => decidable_of_iff _ (qualifies_iff c)

/-- Fields, parameters and parameters of lambdas are no such declarations. -/
theorem IsFinalLocal.ofOwners_eq (h : IsFinalLocal c) :
    DeclarationKind.ofOwners c.ancestors = .localVariable := by
  obtain ⟨_, _, _, _, _, ⟨owner, outer, hanc, howner⟩, _⟩ := h
  rw [hanc, DeclarationKind.ofOwners]
  rcases howner with htag | ⟨htag, hclass⟩
  · rw [htag]
  · rw [htag]
    cases outer with
    | nil => rfl
    | cons around outer => simp [hclass around rfl]

end AddFinal

end Restyle
