-- SUMMARY: The successors of a name never repeat, so the search for a free one misses none.
import Mathlib.Data.List.Dedup
import Mathlib.Logic.Function.Iterate
import Mathlib.Order.Monotone.Basic
import Restyle.Proofs.Naming.Footprint

/-!
# Successors

A name is counted up at its end, and where that cannot be done a digit is put behind it. In both
cases the number that its last digits spell grows (`Name.suffix_lt_next`): leading zeros, names
of digits alone and numbers that do not fit make no difference. So the successors of a name are
pairwise distinct, and a search that gives up has seen as many names as it made attempts
(`Renaming.apply_tries_successors`).
-/

namespace Restyle

namespace Name

/-! ## The number at the end of a name -/

/-- The number that the digits at the end of a name spell; zero if there are none. -/
def suffix (name : String) : Nat := number (splitDigits name).2

theorem number_concat (digits : List Char) (c : Char) :
    number (digits ++ [c]) = number digits * 10 + (c.toNat - '0'.toNat) := by
  simp [number]

theorem number_toDigits (n : Nat) : number (Nat.toDigits 10 n) = n := by
  have hvalue := Nat.ofDigitChars_ten_toDigits (n := n)
  simpa [number, Nat.ofDigitChars, Nat.mul_comm] using hvalue

theorem splitDigits_append (name : String) {digits : List Char}
    (h : ∀ c ∈ digits, c.isDigit = true) :
    (splitDigits (name ++ String.ofList digits)).2 = (splitDigits name).2 ++ digits := by
  have hreverse : ∀ c ∈ digits.reverse, c.isDigit = true := by simpa using h
  simp only [splitDigits, String.toList_append, String.toList_ofList, List.reverse_append]
  rw [List.takeWhile_append_of_pos hreverse]
  simp

/-- The stem of a name does not end in a digit. -/
theorem splitDigits_stem (name : String) :
    (splitDigits (String.ofList (splitDigits name).1)).2 = [] := by
  simp only [splitDigits, String.toList_ofList, List.reverse_reverse, List.reverse_eq_nil_iff]
  generalize name.toList.reverse = reversed
  cases hdrop : reversed.dropWhile Char.isDigit with
  | nil => rfl
  | cons c rest =>
    have hc := List.head?_dropWhile_not Char.isDigit reversed
    rw [hdrop] at hc
    simp [show c.isDigit = false from hc]

/-- The number at the end of a name grows from name to name. -/
theorem suffix_lt_next (name : String) : suffix name < suffix (next name) := by
  have happend : suffix (name ++ "1") = suffix name * 10 + 1 := by
    rw [suffix, show "1" = String.ofList ['1'] from rfl, splitDigits_append name (by simp),
      number_concat]
    rfl
  unfold next
  dsimp only
  split
  · -- The stem has no digits of its own, so the new number is all that is spelled.
    have hcount (n : Nat) : suffix (String.ofList (splitDigits name).1 ++ toString n) = n := by
      rw [suffix, Nat.toString_eq_ofList_toDigits, splitDigits_append, splitDigits_stem,
        List.nil_append, number_toDigits]
      exact fun c hc => Nat.isDigit_of_mem_toDigits (by omega) (by omega) hc
    rw [hcount, suffix]
    omega
  · rw [happend]
    omega

/-- No name comes back among its successors. -/
theorem iterate_next_injective (name : String) : Function.Injective fun i => next^[i] name := by
  have hmono : StrictMono fun i => suffix (next^[i] name) := by
    refine strictMono_nat_of_lt_succ fun i => ?_
    rw [Function.iterate_succ_apply']
    exact suffix_lt_next _
  intro i j heq
  exact hmono.injective (congrArg suffix heq)

/-! ## The search -/

variable {taken : String → Bool} {name found : String} {attempts : Nat}

theorem findFree_eq_none_iff :
    findFree taken name attempts = none ↔ ∀ i < attempts, taken (next^[i + 1] name) = true := by
  induction attempts generalizing name with
  | zero => simp [findFree]
  | succ attempts ih =>
    rw [Nat.forall_lt_succ_left, findFree]
    by_cases htaken : taken (next name)
    · simp [htaken, ih]
    · simp [htaken]

/-- The search takes the first successor that is not taken. -/
theorem findFree_of_first {i : Nat} (hi : i < attempts) (hfree : taken (next^[i + 1] name) = false)
    (htaken : ∀ j < i, taken (next^[j + 1] name) = true) :
    findFree taken name attempts = some (next^[i + 1] name) := by
  induction attempts generalizing name i with
  | zero => cases hi
  | succ attempts ih =>
    rw [findFree]
    cases i with
    | zero =>
      have hnext : taken (next name) = false := hfree
      simp [hnext]
    | succ i =>
      have hnext : taken (next name) = true := htaken 0 (Nat.succ_pos i)
      rw [Function.iterate_succ_apply] at hfree ⊢
      rw [if_pos hnext]
      refine ih (Nat.lt_of_succ_lt_succ hi) hfree fun j hj => ?_
      rw [← Function.iterate_succ_apply next (j + 1)]
      exact htaken (j + 1) (Nat.succ_lt_succ hj)

/-- Of more successors than there are names in a list, one is not in the list. -/
theorem exists_not_mem_of_length_lt {names : List String} (h : names.dedup.length < attempts) :
    ∃ i < attempts, next^[i + 1] name ∉ names := by
  by_contra hall
  push Not at hall
  let successors := (List.range attempts).map fun i => next^[i + 1] name
  have hnodup : successors.Nodup := by
    refine List.nodup_range.map fun i j heq => ?_
    have := iterate_next_injective name heq
    omega
  have hsubset : successors ⊆ names.dedup := by
    intro candidate hcandidate
    obtain ⟨i, hi, rfl⟩ := List.mem_map.mp hcandidate
    exact List.mem_dedup.mpr (hall i (List.mem_range.mp hi))
  have hle := hnodup.length_le_of_subset hsubset
  rw [List.length_map, List.length_range] at hle
  omega

end Name

/-! ## The rule -/

namespace Renaming

variable {R : Type} {r : Renaming} {tree : Node} {target : Binding} {candidate : String}

/-- A name that the target cannot get: that of a member to avoid, of an inherited member in view, or
    of another variable that can be seen in one place with the target. -/
def Taken (r : Renaming) (tree : Node) (target : Binding) (candidate : String) : Prop :=
  (∃ m ∈ r.members, m.name = candidate) ∨ candidate ∈ r.inheritedInView tree ∨
    ∃ other ∈ tree.bindings, other.id ≠ target.id ∧ other.name = candidate ∧ other.overlaps target

theorem collides_iff :
    r.collides (r.inheritedInView tree) tree.bindings target candidate = true ↔
      r.Taken tree target candidate := by
  simp [collides, Taken, or_assoc, and_assoc]

/-- The names that a search may have to avoid. -/
def knownNames (r : Renaming) (tree : Node) : List String :=
  r.members.map Member.name ++ r.inheritedInView tree ++ tree.bindings.map Binding.name

theorem Taken.mem_knownNames (h : r.Taken tree target candidate) :
    candidate ∈ r.knownNames tree := by
  simp only [knownNames, List.mem_append, List.mem_map]
  rcases h with ⟨m, hm, hname⟩ | hinherited | ⟨other, hother, _, hname, _⟩
  · exact .inl (.inl ⟨m, hm, hname⟩)
  · exact .inl (.inr hinherited)
  · exact .inr ⟨other, hother, hname⟩

theorem freshName_of_first {i : Nat} (hi : i < Name.attemptLimit)
    (hfree : ¬r.Taken tree target (Name.next^[i + 1] target.name))
    (htaken : ∀ j < i, r.Taken tree target (Name.next^[j + 1] target.name)) :
    r.freshName tree target = .ok (Name.next^[i + 1] target.name) := by
  rw [freshName, Name.findFree_of_first hi (Bool.eq_false_iff.mpr (mt collides_iff.mp hfree))
    fun j hj => collides_iff.mpr (htaken j hj)]

theorem freshName_eq_error_iff {e : RuleError} :
    r.freshName tree target = .error e ↔
      e = .renameBoundExceeded target.name target.id Name.attemptLimit ∧
        ∀ i < Name.attemptLimit, r.Taken tree target (Name.next^[i + 1] target.name) := by
  have hnone : Name.findFree (r.collides (r.inheritedInView tree) tree.bindings target) target.name
      Name.attemptLimit = none ↔
        ∀ i < Name.attemptLimit, r.Taken tree target (Name.next^[i + 1] target.name) := by
    simp only [Name.findFree_eq_none_iff, collides_iff]
  rw [← hnone, freshName]
  split
  · simp_all
  · simp_all [eq_comm]

theorem apply_eq_error_iff {e : RuleError}
    (hfind : tree.bindings.find? (fun b => b.id == r.target) = some target) :
    (r.apply tree : Except RuleError (RuleOutput R)) = .error e ↔
      r.freshName tree target = .error e := by
  cases hfresh : r.freshName tree target with
  | error e' => simp [apply, hfind, hfresh, bind, Except.bind]
  | ok name =>
    obtain ⟨out, hout, _⟩ := exists_apply_renamed (R := R) hfind hfresh
    simp [hout]

theorem exists_not_taken (target : Binding)
    (h : (r.knownNames tree).dedup.length < Name.attemptLimit) :
    ∃ i < Name.attemptLimit, ¬r.Taken tree target (Name.next^[i + 1] target.name) := by
  obtain ⟨i, hi, hfree⟩ := Name.exists_not_mem_of_length_lt h
  exact ⟨i, hi, mt Taken.mem_knownNames hfree⟩

/-- The successors of every name are pairwise distinct. A renaming of a variable of the tree tries
    the first 10000 of them in order: it gives the target the first one that is not taken, it fails
    if and only if all of them are, and this cannot happen as long as fewer than 10000 names are
    known. -/
theorem apply_tries_successors (r : Renaming) (tree : Node)
    (htarget : ∃ c ∈ tree.cursors, c.node.id = r.target ∧ ∃ old, c.IsVariable old) :
    (∀ name : String, Function.Injective fun i => Name.next^[i] name) ∧
    ∃ target, tree.bindings.find? (fun b => b.id == r.target) = some target ∧
      (∀ i < 10000, ¬r.Taken tree target (Name.next^[i + 1] target.name) →
        (∀ j < i, r.Taken tree target (Name.next^[j + 1] target.name)) →
        ∃ out : RuleOutput R, r.apply tree = .ok out ∧
          List.Forall₂ (Cursor.Respelled r.target (Name.next^[i + 1] target.name))
            tree.cursors out.tree.cursors) ∧
      (∀ e, (r.apply tree : Except RuleError (RuleOutput R)) = .error e ↔
        e = .renameBoundExceeded target.name r.target 10000 ∧
          ∀ i < 10000, r.Taken tree target (Name.next^[i + 1] target.name)) ∧
      ((r.knownNames tree).dedup.length < 10000 →
        ∃ out : RuleOutput R, r.apply tree = .ok out) := by
  refine ⟨Name.iterate_next_injective, ?_⟩
  cases hfind : tree.bindings.find? fun b => b.id == r.target with
  | none =>
    obtain ⟨c, hc, hid, old, hold⟩ := htarget
    exact absurd hold (find?_eq_none_iff.mp hfind c hc hid old)
  | some target =>
    have hid : target.id = r.target := by simpa using List.find?_some hfind
    have herror (e : RuleError) : (r.apply tree : Except RuleError (RuleOutput R)) = .error e ↔
        e = .renameBoundExceeded target.name r.target 10000 ∧
          ∀ i < 10000, r.Taken tree target (Name.next^[i + 1] target.name) := by
      rw [apply_eq_error_iff hfind, freshName_eq_error_iff, hid]
      rfl
    refine ⟨target, rfl, ?_, herror, ?_⟩
    · intro i hi hfree htaken
      obtain ⟨out, hout, _, hrenamed⟩ :=
        exists_apply_renamed (R := R) hfind (freshName_of_first hi hfree htaken)
      exact ⟨out, hout, Node.forall₂_respelled hrenamed⟩
    · intro hknown
      obtain ⟨i, hi, hfree⟩ := exists_not_taken target hknown
      cases hout : (r.apply tree : Except RuleError (RuleOutput R)) with
      | error e => exact absurd (((herror e).mp hout).2 i hi) hfree
      | ok out => exact ⟨out, rfl⟩

/-- With members `x1` and `x2` to be avoided, the local variable of `hidingLocal` becomes `x3`. -/
theorem apply_tries_successors_hidingLocal :
    ∃ out : RuleOutput Rule,
      (⟨22, [⟨"x1", .unknown, []⟩, ⟨"x2", .unknown, []⟩]⟩ : Renaming).apply hidingLocal = .ok out ∧
        List.Forall₂ (Cursor.Respelled 22 "x3") hidingLocal.cursors out.tree.cursors := by
  let r : Renaming := ⟨22, [⟨"x1", .unknown, []⟩, ⟨"x2", .unknown, []⟩]⟩
  obtain ⟨_, target, hfind, hfirst, _⟩ :=
    apply_tries_successors (R := Rule) r hidingLocal exists_isVariable_hidingLocal
  have hname : target.name = "x" := by
    have hnames : (hidingLocal.bindings.find? fun b => b.id == 22).map Binding.name = some "x" := by
      decide
    rw [show (22 : NodeId) = r.target from rfl, hfind] at hnames
    simpa using hnames
  have hfree :
      r.collides (r.inheritedInView hidingLocal) hidingLocal.bindings target "x3" = false := by
    have hnone : (hidingLocal.bindings.find? fun b => b.id == 22).map (fun b =>
        r.collides (r.inheritedInView hidingLocal) hidingLocal.bindings b "x3") = some false := by
      decide
    rw [show (22 : NodeId) = r.target from rfl, hfind] at hnone
    simpa using hnone
  have hnext : Name.next^[3] target.name = "x3" := by rw [hname]; decide
  rw [← hnext]
  refine hfirst 2 (by decide) ?_ fun j hj => ?_
  · rw [hnext, ← collides_iff, hfree]
    simp
  · rw [hname]
    have htaken : ∀ j < 2, Name.next^[j + 1] "x" ∈ r.members.map Member.name := by decide
    exact .inl (List.mem_map.mp (htaken j hj))

end Renaming

end Restyle
