-- SUMMARY: Which members a class inherits visibly: what hides a member, stated by positions.
import Mathlib.Data.List.Induction
import Mathlib.Data.List.Nodup
import Restyle.Tree.Types

/-!
# Inherited members

The search for inherited members goes through the supertypes once and keeps a list of the names it
has met (`ClassType.visibleAmong`). Here its result is described by positions instead: a member is
visible if nothing that stands closer to the class has its name (`ClassType.Sees`). The search over
a list is split at any place first (`visibleAmong_append`), with the names met so far as a set
(`visibleAmong_congr`).
-/

namespace Restyle

namespace ClassType

/-! ## The chain of supertypes -/

theorem supertypes_eq (c : ClassType) :
    c.supertypes = match c.supertype with
      | none => []
      | some s => s :: s.supertypes := by
  obtain ⟨name, kind, supertype, members⟩ := c
  cases supertype <;> simp [supertypes]

/-- Every supertype is followed by its own supertype. -/
theorem getElem?_supertypes_succ (c : ClassType) (i : Nat) :
    c.supertypes[i + 1]? = c.supertypes[i]?.bind ClassType.supertype := by
  induction i generalizing c with
  | zero =>
    rw [supertypes_eq]
    cases c.supertype with
    | none => rfl
    | some s =>
      simp only [List.getElem?_cons_succ, List.getElem?_cons_zero, Option.bind_some]
      rw [supertypes_eq]
      cases s.supertype <;> rfl
  | succ i ih =>
    rw [supertypes_eq]
    cases c.supertype with
    | none => rfl
    | some s => exact ih s

/-! ## The search through a list -/

/-- Only which names are hidden matters. -/
theorem visibleAmong_congr {hidden hidden' : List String} (h : ∀ n, n ∈ hidden ↔ n ∈ hidden')
    (ms : List Member) : visibleAmong hidden ms = visibleAmong hidden' ms := by
  induction ms generalizing hidden hidden' with
  | nil => rfl
  | cons m ms ih =>
    have hcons : ∀ n, n ∈ m.name :: hidden ↔ n ∈ m.name :: hidden' := fun n => by simp [h n]
    simp only [visibleAmong, List.contains_iff_mem, h m.name, ih h, ih hcons]

/-- The members of a first list are hidden from the second, private ones included. -/
theorem visibleAmong_append (hidden : List String) (ms ns : List Member) :
    visibleAmong hidden (ms ++ ns) =
      visibleAmong hidden ms ++ visibleAmong (hidden ++ ms.map Member.name) ns := by
  induction ms generalizing hidden with
  | nil => simp [visibleAmong]
  | cons m ms ih =>
    have hmet : visibleAmong (m.name :: hidden ++ ms.map Member.name) ns =
        visibleAmong (hidden ++ (m :: ms).map Member.name) ns :=
      visibleAmong_congr (fun n => by simp; tauto) ns
    simp only [List.cons_append, visibleAmong, List.contains_iff_mem]
    split_ifs with hhidden hprivate
    · rw [ih]
      congr 1
      exact visibleAmong_congr (fun n => by simp; grind) ns
    · rw [ih, hmet]
    · rw [ih, hmet, List.cons_append]

/-- A member is found where it stands if it is not private and no hidden name nor an earlier member
    has its name. -/
theorem visibleAmong_eq_filterMap (hidden : List String) (ms : List Member) :
    visibleAmong hidden ms = ms.zipIdx.filterMap fun (m, k) =>
      if m.isPrivate = false ∧ m.name ∉ hidden ∧ ∀ o ∈ ms.take k, o.name ≠ m.name then some m
      else none := by
  induction ms using List.reverseRecOn with
  | nil => rfl
  | append_singleton ms m ih =>
    rw [visibleAmong_append, ih, List.zipIdx_append, List.filterMap_append]
    congr 1
    · refine List.filterMap_congr fun (n, k) hmem => ?_
      have hlt : k < ms.length := by simpa using List.snd_lt_of_mem_zipIdx hmem
      simp only [List.take_append_of_le_length (Nat.le_of_lt hlt)]
    · simp [visibleAmong]
      grind

/-- The search through several lists, one after the other. -/
theorem visibleAmong_flatMap (hidden : List String) (ss : List ClassType) :
    visibleAmong hidden (ss.flatMap ClassType.members) = ss.zipIdx.flatMap fun (s, i) =>
      visibleAmong (hidden ++ ((ss.take i).flatMap ClassType.members).map Member.name)
        s.members := by
  induction ss using List.reverseRecOn with
  | nil => rfl
  | append_singleton ss s ih =>
    rw [List.flatMap_append, visibleAmong_append, ih, List.zipIdx_append, List.flatMap_append]
    congr 1
    · refine List.flatMap_congr fun (t, i) hmem => ?_
      have hlt : i < ss.length := by simpa using List.snd_lt_of_mem_zipIdx hmem
      simp only [List.take_append_of_le_length (Nat.le_of_lt hlt)]
    · simp

/-- The names found are new and pairwise distinct. -/
theorem nodup_names_visibleAmong (hidden : List String) (ms : List Member) :
    ((visibleAmong hidden ms).map Member.name).Nodup ∧
      ∀ m ∈ visibleAmong hidden ms, m.name ∉ hidden := by
  induction ms generalizing hidden with
  | nil => simp [visibleAmong]
  | cons m ms ih =>
    obtain ⟨hnodup, hnew⟩ := ih (m.name :: hidden)
    simp only [visibleAmong, List.contains_iff_mem]
    split_ifs with hhidden hprivate
    · exact ih hidden
    · exact ⟨hnodup, fun n hn hmem => hnew n hn (List.mem_cons_of_mem _ hmem)⟩
    · rw [List.map_cons, List.nodup_cons, List.mem_map, List.forall_mem_cons]
      refine ⟨⟨?_, hnodup⟩, hhidden, fun n hn hmem => hnew n hn (List.mem_cons_of_mem _ hmem)⟩
      rintro ⟨n, hn, heq⟩
      exact hnew n hn (heq ▸ List.mem_cons_self)

/-! ## What a class sees -/

/-- The member `m` at place `k` of the supertype `s` at place `i` is visible in the class. -/
structure Sees (c : ClassType) (i : Nat) (s : ClassType) (k : Nat) (m : Member) : Prop where
  not_private : m.isPrivate = false
  not_own : ∀ o ∈ c.members, o.name ≠ m.name
  /-- Members of closer supertypes hide, private ones too. -/
  not_closer : ∀ t ∈ c.supertypes.take i, ∀ o ∈ t.members, o.name ≠ m.name
  not_earlier : ∀ o ∈ s.members.take k, o.name ≠ m.name

theorem sees_iff {c : ClassType} {i : Nat} {s : ClassType} {k : Nat} {m : Member} :
    c.Sees i s k m ↔ m.isPrivate = false ∧
      m.name ∉ c.members.map Member.name ++
        ((c.supertypes.take i).flatMap ClassType.members).map Member.name ∧
      ∀ o ∈ s.members.take k, o.name ≠ m.name := by
  constructor
  · rintro ⟨hprivate, hown, hcloser, hearlier⟩
    refine ⟨hprivate, ?_, hearlier⟩
    simpa using ⟨hown, fun o t ht ho => hcloser t ht o ho⟩
  · rintro ⟨hprivate, hnew, hearlier⟩
    have hnew : (∀ o ∈ c.members, o.name ≠ m.name) ∧
        ∀ o t, t ∈ c.supertypes.take i → o ∈ t.members → o.name ≠ m.name := by
      simpa using hnew
    exact ⟨hprivate, hnew.1, fun t ht o ho => hnew.2 o t ht ho, hearlier⟩

instance (c : ClassType) (i : Nat) (s : ClassType) (k : Nat) (m : Member) :
    Decidable (c.Sees i s k m) := decidable_of_iff _ sees_iff.symm

/-- The inherited members are those that the class sees, by supertypes from the nearest one and by
    place within a supertype. So each name occurs once, and none of the class itself. -/
theorem visibleSupertypeMembers_spec (c : ClassType) :
    (c.supertypes[0]? = c.supertype ∧
      ∀ i, c.supertypes[i + 1]? = c.supertypes[i]?.bind ClassType.supertype) ∧
    c.visibleSupertypeMembers = (c.supertypes.zipIdx.flatMap fun (s, i) =>
      s.members.zipIdx.filterMap fun (m, k) => if c.Sees i s k m then some m else none) ∧
    (c.visibleSupertypeMembers.map Member.name).Nodup ∧
    (c.visibleSupertypeMembers.map Member.name).Disjoint (c.members.map Member.name) := by
  obtain ⟨hnodup, hnew⟩ := nodup_names_visibleAmong (c.members.map Member.name)
    (c.supertypes.flatMap ClassType.members)
  refine ⟨⟨?_, c.getElem?_supertypes_succ⟩, ?_, hnodup, ?_⟩
  · rw [supertypes_eq]
    cases c.supertype <;> rfl
  · rw [visibleSupertypeMembers, visibleAmong_flatMap]
    refine List.flatMap_congr fun (s, i) _ => ?_
    simp only [visibleAmong_eq_filterMap, sees_iff]
  · intro name hname hown
    obtain ⟨m, hm, rfl⟩ := List.mem_map.mp hname
    exact hnew m hm hown

/-- A private member of a closer supertype hides the member of the farther one. -/
example :
    let far : ClassType := ⟨"C", .plain, none, [⟨"x", .unknown, []⟩, ⟨"y", .unknown, []⟩]⟩
    let near : ClassType := ⟨"B", .plain, some far, [⟨"x", .unknown, [.isPrivate]⟩]⟩
    let own : ClassType := ⟨"A", .plain, some near, []⟩
    own.visibleSupertypeMembers.map Member.name = ["y"] := by
  decide

end ClassType

end Restyle
