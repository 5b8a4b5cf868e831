-- SUMMARY: Matching finds the stretches of a text that a pattern describes.
import Mathlib.Data.Nat.Bitwise
import Restyle.Pattern.Match

/-!
# Matches

Which stretches of a text a pattern matches is said by recursion on the pattern (`Matches`), without
regard to how they are searched for. The search lays the pattern on the text and goes from sets of
places to sets of places; it reaches the ends of the matches that start in a set, and no other place
(`testBit_reach`). Repetitions without a bound are searched for a bounded number of rounds, which is
enough, since a round that stays where it is can be left out (`Rounds.shorten`).
-/

namespace Restyle

/-! ## Rounds -/

/-- Places that are joined by a given number of rounds. -/
def Rounds (R : Nat → Nat → Prop) : Nat → Nat → Nat → Prop
  | 0, i, j => i = j
  | n + 1, i, j => ∃ k, R i k ∧ Rounds R n k j

namespace Rounds

variable {R : Nat → Nat → Prop} {m n i j k size : Nat}

theorem add_iff : Rounds R (m + n) i j ↔ ∃ k, Rounds R m i k ∧ Rounds R n k j := by
  induction m generalizing i with
  | zero => simp [Rounds]
  | succ m ih =>
    rw [Nat.succ_add_eq_add_succ, Nat.add_succ]
    simp only [Rounds, ih]
    constructor
    · rintro ⟨l, hl, k, hk, hj⟩
      exact ⟨k, ⟨l, hl, hk⟩, hj⟩
    · rintro ⟨k, ⟨l, hl, hk⟩, hj⟩
      exact ⟨l, hl, k, hk, hj⟩

/-- Each round goes forward and stays in the text. -/
def Advances (size : Nat) (R : Nat → Nat → Prop) : Prop :=
  ∀ i j, R i j → i ≤ j ∧ (i = j ∨ j ≤ size)

theorem advances (hR : Advances size R) : Advances size (Rounds R n) := by
  induction n with
  | zero =>
    rintro i j rfl
    exact ⟨le_rfl, .inl rfl⟩
  | succ n ih =>
    rintro i j ⟨k, hik, hkj⟩
    have hk := hR i k hik
    have hj := ih k j hkj
    exact ⟨by omega, by omega⟩

/-- Rounds that stay where they are can be left out. -/
theorem shorten (hR : Advances size R) (h : Rounds R n i j) :
    ∃ m, m ≤ n ∧ m ≤ j - i ∧ Rounds R m i j := by
  induction n generalizing i with
  | zero => exact ⟨0, le_rfl, Nat.zero_le _, h⟩
  | succ n ih =>
    obtain ⟨k, hik, hkj⟩ := h
    obtain ⟨m, hmn, hmj, hm⟩ := ih hkj
    have hk := hR i k hik
    have hj := advances hR k j hkj
    by_cases hstay : i = k
    · subst hstay
      exact ⟨m, by omega, hmj, hm⟩
    · exact ⟨m + 1, by omega, by omega, k, hik, hm⟩

end Rounds

/-! ## Sets of places -/

namespace Places

theorem testBit_filter (count : Nat) (p : Nat → Bool) (i : Nat) :
    (filter count p).testBit i ↔ i < count ∧ p i := by
  induction count with
  | zero => simp [filter]
  | succ count ih =>
    have hstep : filter (count + 1) p =
        if p count then filter count p ||| 1 <<< count else filter count p := by
      simp [filter, List.range_succ, List.foldl_append]
    rw [hstep]
    split
    · rename_i hp
      rw [Nat.testBit_or, Bool.or_eq_true, ih, Nat.one_shiftLeft, Nat.testBit_two_pow]
      simp only [decide_eq_true_eq]
      constructor
      · rintro (⟨hi, hpi⟩ | rfl)
        · exact ⟨by omega, hpi⟩
        · exact ⟨by omega, hp⟩
      · rintro ⟨hi, hpi⟩
        by_cases heq : count = i
        · exact .inr heq
        · exact .inl ⟨by omega, hpi⟩
    · rename_i hp
      rw [ih]
      constructor
      · rintro ⟨hi, hpi⟩
        exact ⟨by omega, hpi⟩
      · rintro ⟨hi, hpi⟩
        refine ⟨?_, hpi⟩
        by_contra hnot
        obtain rfl : i = count := by omega
        exact hp hpi

theorem testBit_minus (s t : Places) (i : Nat) :
    (minus s t).testBit i ↔ s.testBit i ∧ ¬t.testBit i := by
  simp only [minus, Nat.testBit_xor, Nat.testBit_and]
  cases s.testBit i <;> cases t.testBit i <;> simp

theorem testBit_or_iff (s t : Places) (i : Nat) :
    (s ||| t).testBit i ↔ s.testBit i ∨ t.testBit i := by
  rw [Nat.testBit_or, Bool.or_eq_true]

/-- A step from sets of places to sets of places follows a relation between places. -/
def Follows (step : Places → Places) (R : Nat → Nat → Prop) : Prop :=
  ∀ s j, (step s).testBit j ↔ ∃ i, s.testBit i ∧ R i j

variable {step : Places → Places} {R : Nat → Nat → Prop}

/-- From a set that a step maps to itself, no number of rounds leads elsewhere. -/
theorem testBit_of_fixed (hstep : Follows step R) {s : Places} (hfixed : step s = s) (n j : Nat) :
    s.testBit j ↔ ∃ i, s.testBit i ∧ Rounds R n i j := by
  induction n generalizing j with
  | zero => simp [Rounds]
  | succ n ih =>
    rw [ih]
    constructor
    · rintro ⟨i, hi, hij⟩
      rw [← hfixed, hstep] at hi
      obtain ⟨k, hk, hki⟩ := hi
      exact ⟨k, hk, i, hki, hij⟩
    · rintro ⟨i, hi, k, hik, hkj⟩
      refine ⟨k, ?_, hkj⟩
      rw [← hfixed, hstep]
      exact ⟨i, hi, hik⟩

theorem testBit_exactly (hstep : Follows step R) (n : Nat) (s : Places) (j : Nat) :
    (exactly step n s).testBit j ↔ ∃ i, s.testBit i ∧ Rounds R n i j := by
  induction n generalizing s with
  | zero => simp [exactly, Rounds]
  | succ n ih =>
    rw [exactly]
    split
    · rename_i hfixed
      exact testBit_of_fixed hstep hfixed _ _
    · rw [ih]
      simp only [hstep s, Rounds]
      constructor
      · rintro ⟨k, ⟨i, hi, hik⟩, hkj⟩
        exact ⟨i, hi, k, hik, hkj⟩
      · rintro ⟨i, hi, k, hik, hkj⟩
        exact ⟨k, ⟨i, hi, hik⟩, hkj⟩

/-- No number of rounds leaves a closed set. -/
theorem testBit_of_closed {s : Places} (hclosed : ∀ i j, s.testBit i → R i j → s.testBit j)
    {n i j : Nat} (hi : s.testBit i) (hij : Rounds R n i j) : s.testBit j := by
  induction n generalizing i with
  | zero => exact hij ▸ hi
  | succ n ih =>
    obtain ⟨k, hik, hkj⟩ := hij
    exact ih (hclosed i k hi hik) hkj

/-- What has been done is closed but for the places that were reached last. -/
structure Frontier (R : Nat → Nat → Prop) (done latest : Places) : Prop where
  reached : ∀ i, latest.testBit i → done.testBit i
  closed : ∀ i j, done.testBit i → R i j → latest.testBit i ∨ done.testBit j

namespace Frontier

variable {done latest : Places}

theorem testBit_fresh (hstep : Follows step R) (i : Nat) :
    (minus (step latest) done).testBit i ↔
      (∃ k, latest.testBit k ∧ R k i) ∧ ¬done.testBit i := by
  rw [testBit_minus, hstep]

/-- One more step from what was reached last covers all steps from what has been done. -/
theorem covered (h : Frontier R done latest) (hstep : Follows step R) {i j : Nat}
    (hi : done.testBit i) (hij : R i j) :
    done.testBit j ∨ (minus (step latest) done).testBit j := by
  rcases h.closed i j hi hij with hlatest | hj
  · by_cases hj : done.testBit j
    · exact .inl hj
    · exact .inr ((testBit_fresh hstep j).mpr ⟨⟨i, hlatest, hij⟩, hj⟩)
  · exact .inl hj

theorem grown (h : Frontier R done latest) (hstep : Follows step R) :
    Frontier R (done ||| minus (step latest) done) (minus (step latest) done) := by
  constructor
  · intro i hi
    exact (testBit_or_iff _ _ i).mpr (.inr hi)
  · intro i j hi hij
    rcases (testBit_or_iff _ _ i).mp hi with hi | hi
    · exact .inr ((testBit_or_iff _ _ j).mpr (h.covered hstep hi hij))
    · exact .inl hi

end Frontier

theorem testBit_upTo (hstep : Follows step R) (count : Nat) {done latest : Places}
    (h : Frontier R done latest) (j : Nat) :
    (upTo step count done latest).testBit j ↔
      ∃ n ≤ count, ∃ i, done.testBit i ∧ Rounds R n i j := by
  induction count generalizing done latest with
  | zero => simp [upTo, Rounds]
  | succ count ih =>
    rw [upTo]
    split
    · -- Nothing new is reached, so no round leaves what has been done.
      rename_i hnone
      have hclosed (i k : Nat) (hi : done.testBit i) (hik : R i k) : done.testBit k := by
        have hk := h.covered hstep hi hik
        rwa [hnone, Nat.zero_testBit, or_iff_left Bool.false_ne_true] at hk
      constructor
      · exact fun hj => ⟨0, Nat.zero_le _, j, hj, rfl⟩
      · rintro ⟨n, -, i, hi, hij⟩
        exact testBit_of_closed hclosed hi hij
    · rw [ih (h.grown hstep)]
      simp only [testBit_or_iff]
      constructor
      · rintro ⟨n, hn, i, hi | hi, hij⟩
        · exact ⟨n, by omega, i, hi, hij⟩
        · obtain ⟨⟨k, hk, hki⟩, -⟩ := (Frontier.testBit_fresh hstep i).mp hi
          exact ⟨n + 1, by omega, k, h.reached k hk, i, hki, hij⟩
      · rintro ⟨n, hn, i, hi, hij⟩
        cases n with
        | zero => exact ⟨0, Nat.zero_le _, i, .inl hi, hij⟩
        | succ n =>
          obtain ⟨k, hik, hkj⟩ := hij
          exact ⟨n, by omega, k, h.covered hstep hi hik, hkj⟩

end Places

/-! ## Matches -/

namespace Pattern

/-- A pattern matches the stretch between two places of a text. -/
def Matches (text : Array Char) : Pattern → Nat → Nat → Prop
  | empty, i, j => i = j ∧ i ≤ text.size
  | one set _, i, j => j = i + 1 ∧ ∃ c, text[i]? = some c ∧ set.contains c
  | anchor a, i, j => i = j ∧ i ≤ text.size ∧ a.holds text i
  | group _ body, i, j => body.Matches text i j
  | seq first second, i, j => ∃ k, first.Matches text i k ∧ second.Matches text k j
  | either first second, i, j => first.Matches text i j ∨ second.Matches text i j
  | repeated least most _ body, i, j =>
    ∃ n, least ≤ n ∧ (∀ m ∈ most, n ≤ max least m) ∧ Rounds (body.Matches text) n i j

/-- A pattern matches a text from its start to its end. -/
def MatchesWhole (p : Pattern) (text : String) : Prop :=
  p.Matches text.toList.toArray 0 text.toList.length

variable {text : Array Char}

theorem matches_advances (p : Pattern) : Rounds.Advances text.size (p.Matches text) := by
  induction p with
  | empty =>
    rintro i j ⟨rfl, -⟩
    exact ⟨le_rfl, .inl rfl⟩
  | one set levels =>
    rintro i j ⟨rfl, c, hc, -⟩
    obtain ⟨hi, -⟩ := Array.getElem?_eq_some_iff.mp hc
    exact ⟨by omega, .inr (by omega)⟩
  | anchor a =>
    rintro i j ⟨rfl, -⟩
    exact ⟨le_rfl, .inl rfl⟩
  | group captures body ih => exact ih
  | seq first second ihf ihs =>
    rintro i j ⟨k, hik, hkj⟩
    have hk := ihf i k hik
    have hj := ihs k j hkj
    exact ⟨by omega, by omega⟩
  | either first second ihf ihs =>
    rintro i j (h | h)
    · exact ihf i j h
    · exact ihs i j h
  | repeated least most greedy body ih =>
    rintro i j ⟨n, -, -, h⟩
    exact Rounds.advances ih i j h

/-- A repetition is searched for in as many rounds as it can need. -/
theorem rounds_iff {R : Nat → Nat → Prop} (hR : Rounds.Advances text.size R) (least : Nat)
    (most : Option Nat) (i j : Nat) :
    (∃ n, least ≤ n ∧ (∀ m ∈ most, n ≤ max least m) ∧ Rounds R n i j) ↔
      ∃ n ≤ most.elim (text.size + 1) (fun most => min (most - least) (text.size + 1)), ∃ k,
        Rounds R least i k ∧ Rounds R n k j := by
  constructor
  · rintro ⟨n, hleast, hmost, h⟩
    obtain ⟨more, rfl⟩ := Nat.exists_eq_add_of_le hleast
    obtain ⟨k, hik, hkj⟩ := Rounds.add_iff.mp h
    obtain ⟨few, hfew, hshort, hrounds⟩ := Rounds.shorten hR hkj
    have hk := Rounds.advances hR k j hkj
    refine ⟨few, ?_, k, hik, hrounds⟩
    cases most with
    | none =>
      simp only [Option.elim_none]
      omega
    | some most =>
      have := hmost most rfl
      simp only [Option.elim_some]
      omega
  · rintro ⟨n, hn, k, hik, hkj⟩
    refine ⟨least + n, Nat.le_add_right _ _, ?_, Rounds.add_iff.mpr ⟨k, hik, hkj⟩⟩
    rintro m rfl
    simp only [Option.elim_some] at hn
    omega

/-- The search reaches the ends of the matches that start in a set of places. -/
theorem testBit_reach (p : Pattern) : Places.Follows (p.layOn text).reach (p.Matches text) := by
  induction p with
  | empty =>
    intro s j
    simp only [layOn, Overlay.reach, Matches, Nat.testBit_and, Bool.and_eq_true,
      Places.testBit_filter]
    constructor
    · rintro ⟨hj, hplace, -⟩
      exact ⟨j, hj, rfl, by omega⟩
    · rintro ⟨i, hi, rfl, hplace⟩
      exact ⟨hi, by omega, trivial⟩
  | one set levels =>
    intro s j
    simp only [layOn, Overlay.reach, Matches, Nat.testBit_shiftLeft, Nat.testBit_and,
      Bool.and_eq_true, decide_eq_true_eq, Places.testBit_filter]
    constructor
    · rintro ⟨hj, hi, hplace, hset⟩
      obtain ⟨c, hc⟩ : ∃ c, text[j - 1]? = some c := ⟨_, Array.getElem?_eq_getElem hplace⟩
      rw [hc] at hset
      exact ⟨j - 1, hi, by omega, c, hc, hset⟩
    · rintro ⟨i, hi, rfl, c, hc, hset⟩
      obtain ⟨hplace, -⟩ := Array.getElem?_eq_some_iff.mp hc
      exact ⟨by omega, by simpa using hi, by simpa using hplace, by simp [hc, hset]⟩
  | anchor a =>
    intro s j
    simp only [layOn, Overlay.reach, Matches, Nat.testBit_and, Bool.and_eq_true,
      Places.testBit_filter]
    constructor
    · rintro ⟨hj, hplace, hholds⟩
      exact ⟨j, hj, rfl, by omega, hholds⟩
    · rintro ⟨i, hi, rfl, hplace, hholds⟩
      exact ⟨hi, by omega, hholds⟩
  | group captures body ih => exact ih
  | seq first second ihf ihs =>
    intro s j
    simp only [layOn, Overlay.reach, Matches, ihs _ j, ihf s]
    constructor
    · rintro ⟨k, ⟨i, hi, hik⟩, hkj⟩
      exact ⟨i, hi, k, hik, hkj⟩
    · rintro ⟨i, hi, k, hik, hkj⟩
      exact ⟨k, ⟨i, hi, hik⟩, hkj⟩
  | either first second ihf ihs =>
    intro s j
    simp only [layOn, Overlay.reach, Matches, Nat.testBit_or, Bool.or_eq_true, ihs s j, ihf s j,
      and_or_left, exists_or]
  | repeated least most greedy body ih =>
    intro s j
    have hstart : Places.Frontier (body.Matches text)
        (Places.exactly (body.layOn text).reach least s)
        (Places.exactly (body.layOn text).reach least s) :=
      ⟨fun _ => id, fun i j hi _ => .inl hi⟩
    simp only [layOn, Overlay.reach, Matches, rounds_iff (matches_advances body),
      Places.testBit_upTo ih _ hstart, Places.testBit_exactly ih]
    have hswap (more : Nat) :
        (∃ n ≤ more, ∃ k, (∃ i, s.testBit i ∧ Rounds (body.Matches text) least i k) ∧
            Rounds (body.Matches text) n k j) ↔
          ∃ i, s.testBit i ∧ ∃ n ≤ more, ∃ k, Rounds (body.Matches text) least i k ∧
            Rounds (body.Matches text) n k j := by
      constructor
      · rintro ⟨n, hn, k, ⟨i, hi, hik⟩, hkj⟩
        exact ⟨i, hi, n, hn, k, hik, hkj⟩
      · rintro ⟨i, hi, n, hn, k, hik, hkj⟩
        exact ⟨n, hn, k, ⟨i, hi, hik⟩, hkj⟩
    cases most
    · exact hswap _
    · exact hswap _

/-- A pattern is found in a text if it matches some stretch of it. -/
theorem isMatch_iff (p : Pattern) (text : String) :
    p.isMatch text ↔ ∃ i j, i ≤ text.toList.length ∧ p.Matches text.toList.toArray i j := by
  have hsome : ∀ places : Places, (places != 0) = true ↔ ∃ j, places.testBit j := fun places => by
    rw [bne_iff_ne]
    exact ⟨Nat.exists_testBit_of_ne_zero, fun ⟨j, hj⟩ hzero => by simp [hzero] at hj⟩
  simp only [isMatch, hsome, testBit_reach p _ _, Places.testBit_filter, and_true,
    List.size_toArray, Nat.lt_succ_iff]
  exact exists_comm

/-! ## Whole texts -/

/-- A pattern put between the ends of the text. -/
def whole (p : Pattern) : Pattern :=
  .seq (.anchor .textStart) (.seq (.group false p) (.anchor .textEnd))

theorem holds_textStart {i : Nat} (h : i ≤ text.size) :
    Anchor.textStart.holds text i ↔ i = 0 := by
  cases i with
  | zero => simp [Anchor.holds]
  | succ i =>
    simpa [Anchor.holds] using Nat.lt_of_succ_le h

theorem holds_textEnd {i : Nat} (h : i ≤ text.size) :
    Anchor.textEnd.holds text i ↔ i = text.size := by
  simp only [Anchor.holds, Option.isNone_iff_eq_none, Array.getElem?_eq_none_iff]
  omega

/-- Between the ends of the text, a pattern is found where it matches the whole. -/
theorem isMatch_whole (p : Pattern) (text : String) :
    p.whole.isMatch text ↔ p.MatchesWhole text := by
  have hsize : text.toList.toArray.size = text.toList.length := List.size_toArray
  rw [isMatch_iff, MatchesWhole]
  constructor
  · rintro ⟨i, j, -, k, ⟨rfl, hi, hstart⟩, l, hbody, rfl, hl, hend⟩
    rw [holds_textStart hi] at hstart
    rw [holds_textEnd hl, hsize] at hend
    rwa [hstart, hend] at hbody
  · intro h
    refine ⟨0, text.toList.length, Nat.zero_le _, 0, ⟨rfl, Nat.zero_le _, ?_⟩,
      text.toList.length, h, rfl, hsize.ge, ?_⟩
    · exact (holds_textStart (Nat.zero_le _)).mpr rfl
    · exact (holds_textEnd hsize.ge).mpr hsize.symm

end Pattern

end Restyle
