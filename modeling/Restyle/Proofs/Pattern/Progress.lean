-- SUMMARY: Reading a pattern takes characters from the front of the text.
import Mathlib.Data.List.Infix
import Mathlib.Data.List.TakeWhile
import Restyle.Pattern.Parser

/-!
# Progress in a pattern

Every part of the notation is read from the front of the text: what is left is a suffix of what was
there (`Takes 0`), and a part that stands for something leaves a shorter one (`Takes 1`).
-/

namespace Restyle

namespace Pattern

namespace Parse

variable {α β : Type} {m n : Nat} {s t : ParseState}

/-! ## Runs -/

theorem bind_apply (x : Parse α) (f : α → Parse β) (s : ParseState) :
    (x >>= f) s = (x s).bind fun r => f r.1 r.2 := rfl

theorem bind_eq_some {x : Parse α} {f : α → Parse β} {r : β × ParseState} :
    (x >>= f) s = some r ↔ ∃ v t, x s = some (v, t) ∧ f v t = some r := by
  simp [bind_apply, Option.bind_eq_some_iff]

@[simp] theorem pure_apply (v : α) (s : ParseState) : (pure v : Parse α) s = some (v, s) := rfl

@[simp] theorem ensure_apply (b : Bool) (s : ParseState) :
    ensure b s = if b then some ((), s) else none := by
  cases b <;> rfl

@[simp] theorem get_apply (s : ParseState) : (get : Parse ParseState) s = some (s, s) := rfl

theorem ensure_eq_some {b : Bool} {u : Unit} : ensure b s = some (u, t) ↔ b = true ∧ s = t := by
  cases b <;> simp

@[simp] theorem flags_apply (s : ParseState) : flags s = some (s.flags, s) := rfl

@[simp] theorem skip_apply (count : Nat) (s : ParseState) :
    skip count s = some ((), { s with rest := s.rest.drop count }) := rfl

@[simp] theorem peek?_apply (s : ParseState) : peek? s = some (s.rest.head?, s) := rfl

theorem peek_apply (s : ParseState) : peek s = s.rest.head?.map fun c => (c, s) := by
  unfold peek
  rw [bind_apply, peek?_apply]
  cases s.rest.head? <;> rfl

theorem peek_eq_some {c : Char} : peek s = some (c, t) ↔ s.rest.head? = some c ∧ s = t := by
  simp [peek_apply]

theorem next_apply (s : ParseState) :
    next s = s.rest.head?.map fun c => (c, { s with rest := s.rest.tail }) := by
  unfold next
  rw [bind_apply, peek_apply]
  cases hrest : s.rest with
  | nil => rfl
  | cons c rest => simp [bind_apply, hrest]

/-- Text as the next part sees it: blanks and comments in front do not count in verbose mode. -/
def settle (verbose : Bool) (text : List Char) : List Char :=
  if verbose then dropBlanks text.length text else text

@[simp] theorem skipBlanks_apply (s : ParseState) :
    skipBlanks s = some ((), { s with rest := settle s.flags.verbose s.rest }) := by
  unfold skipBlanks settle
  rw [bind_apply, flags_apply, Option.bind_some]
  split <;> rfl

@[simp] theorem advance_apply (s : ParseState) :
    advance s = some ((), { s with rest := settle s.flags.verbose s.rest.tail }) := by
  unfold advance
  rw [bind_apply, skip_apply, List.drop_one]
  exact skipBlanks_apply _

theorem accept_apply (text : String) (s : ParseState) :
    accept text s = some (match behind? text.toList s.rest with
      | some rest => (true, { s with rest })
      | none => (false, s)) := by
  unfold accept
  rw [bind_apply, get_apply, Option.bind_some]
  cases behind? text.toList s.rest <;> rfl

theorem accept_cases {text : String} {s t : ParseState} {found : Bool}
    (h : accept text s = some (found, t)) :
    (found = true ∧ ∃ rest, behind? text.toList s.rest = some rest ∧ t = { s with rest }) ∨
      (found = false ∧ behind? text.toList s.rest = none ∧ t = s) := by
  rw [accept_apply] at h
  cases hbehind : behind? text.toList s.rest with
  | none =>
    rw [hbehind] at h
    cases h
    exact .inr ⟨rfl, rfl, rfl⟩
  | some rest =>
    rw [hbehind] at h
    cases h
    exact .inl ⟨rfl, rest, rfl, rfl⟩

theorem dropBlanks_suffix (fuel : Nat) (text : List Char) : dropBlanks fuel text <:+ text := by
  fun_induction dropBlanks fuel text with
  | case1 => exact List.suffix_refl _
  | case2 => exact List.suffix_refl _
  | case3 fuel c text _ ih => exact ih.trans (List.suffix_cons _ _)
  | case4 _ _ _ ih => exact (ih.trans (List.dropWhile_suffix _)).trans (List.suffix_cons _ _)
  | case5 => exact List.suffix_refl _

theorem settle_suffix (verbose : Bool) (text : List Char) : settle verbose text <:+ text := by
  unfold settle
  split
  · exact dropBlanks_suffix _ _
  · exact List.suffix_refl _

/-! ## Taking characters -/

/-- At least `n` characters are taken from the front of the text between two states. -/
def Past (n : Nat) (s t : ParseState) : Prop :=
  t.rest <:+ s.rest ∧ t.rest.length + n ≤ s.rest.length

namespace Past

theorem refl (s : ParseState) : Past 0 s s := ⟨List.suffix_refl _, Nat.le_refl _⟩

theorem of_suffix (h : t.rest <:+ s.rest) : Past 0 s t := ⟨h, h.length_le⟩

theorem trans {u : ParseState} (h : Past m s t) (h' : Past n t u) : Past (m + n) s u :=
  ⟨h'.1.trans h.1, by have := h.2; have := h'.2; omega⟩

/-- What follows takes nothing back. -/
theorem andThen {u : ParseState} (h : Past n s t) (h' : Past 0 t u) : Past n s u := h.trans h'

theorem mono (h : Past n s t) (hle : m ≤ n) : Past m s t := ⟨h.1, by have := h.2; omega⟩

end Past

/-- A parser takes at least `n` characters if it succeeds. -/
def Takes (n : Nat) (x : Parse α) : Prop := ∀ ⦃s v t⦄, x s = some (v, t) → Past n s t

namespace Takes

theorem mono {x : Parse α} (h : Takes n x) (hle : m ≤ n) : Takes m x :=
  fun _ _ _ hx => (h hx).mono hle

theorem pure (v : α) : Takes 0 (Pure.pure v : Parse α) := by
  rintro s v t ⟨⟩
  exact .refl _

theorem fail : Takes n (Parse.fail : Parse α) := fun _ _ _ h => by cases h

theorem bind {x : Parse α} {f : α → Parse β} (hx : Takes m x) (hf : ∀ v, Takes n (f v)) :
    Takes (m + n) (x >>= f) := fun s w u h => by
  obtain ⟨v, t, hxs, hft⟩ := bind_eq_some.mp h
  exact (hx hxs).trans (hf v hft)

/-- What follows takes nothing back. -/
theorem andThen {x : Parse α} {f : α → Parse β} (hx : Takes n x) (hf : ∀ v, Takes 0 (f v)) :
    Takes n (x >>= f) := bind hx hf

/-- What comes first takes nothing back. -/
theorem behind {x : Parse α} {f : α → Parse β} (hx : Takes 0 x) (hf : ∀ v, Takes n (f v)) :
    Takes n (x >>= f) := by
  simpa using bind hx hf

theorem ite {c : Prop} [Decidable c] {x y : Parse α} (hx : Takes n x) (hy : Takes n y) :
    Takes n (if c then x else y) := by
  split
  · exact hx
  · exact hy

/-- What is read behind a look at the next character. -/
theorem peek {f : Char → Parse β}
    (h : ∀ ⦃s c v t⦄, s.rest.head? = some c → f c s = some (v, t) → Past n s t) :
    Takes n (Parse.peek >>= f) := fun s v t hs => by
  obtain ⟨c, u, hc, hf⟩ := bind_eq_some.mp hs
  obtain ⟨hhead, rfl⟩ := peek_eq_some.mp hc
  exact h hhead hf

end Takes

theorem takes_ensure (b : Bool) : Takes 0 (ensure b) := by
  cases b
  · exact .fail
  · exact .pure ()

theorem takes_flags : Takes 0 flags := fun _ _ _ h => by cases h; exact .refl _

theorem takes_setFlags (f : Flags) : Takes 0 (setFlags f) :=
  fun _ _ _ h => by cases h; exact .refl _

theorem takes_peek? : Takes 0 peek? := fun _ _ _ h => by cases h; exact .refl _

theorem takes_peek : Takes 0 peek := by
  refine takes_peek?.andThen fun c => ?_
  cases c
  · exact .fail
  · exact .pure _

theorem takes_skip (count : Nat) : Takes 0 (skip count) := by
  rintro s v t ⟨⟩
  exact .of_suffix (List.drop_suffix _ _)

theorem takes_skipBlanks : Takes 0 skipBlanks := by
  intro s v t h
  rw [skipBlanks_apply] at h
  cases h
  exact .of_suffix (settle_suffix _ _)

theorem takes_advance : Takes 0 advance := (takes_skip 1).andThen fun _ => takes_skipBlanks

theorem takes_next : Takes 1 next := by
  intro s c t h
  rw [next_apply] at h
  cases hrest : s.rest with
  | nil => simp [hrest] at h
  | cons d rest =>
    simp only [hrest, List.head?_cons, List.tail_cons, Option.map_some, Option.some.injEq] at h
    cases h
    exact ⟨hrest ▸ List.suffix_cons _ _, by simp [hrest]⟩

/-- A character is skipped if one is there. -/
theorem past_of_skip {u : Unit} (h : skip 1 s = some (u, t)) : Past (min 1 s.rest.length) s t := by
  cases h
  exact ⟨List.drop_suffix _ _, by simp only [List.length_drop]; omega⟩

theorem past_of_advance {u : Unit} (h : advance s = some (u, t)) :
    Past (min 1 s.rest.length) s t := by
  obtain ⟨v, w, hskip, hblanks⟩ := bind_eq_some.mp h
  exact (past_of_skip hskip).andThen (takes_skipBlanks hblanks)

theorem behind?_suffix {start text rest : List Char} (h : behind? start text = some rest) :
    rest <:+ text ∧ rest.length + start.length = text.length := by
  unfold behind? at h
  split at h <;> cases h
  rename_i hprefix
  have hle := (List.isPrefixOf_iff_prefix.mp hprefix).length_le
  exact ⟨List.drop_suffix _ _, by simp only [List.length_drop]; omega⟩

theorem takes_accept (text : String) : Takes 0 (accept text) := by
  intro s v t h
  rcases accept_cases h with ⟨-, rest, hbehind, rfl⟩ | ⟨-, -, rfl⟩
  · exact .of_suffix (behind?_suffix hbehind).1
  · exact .refl _

/-- An accepted text is taken. -/
theorem past_of_accept {text : String} (h : accept text s = some (true, t)) :
    Past text.length s t := by
  rcases accept_cases h with ⟨-, rest, hbehind, rfl⟩ | ⟨hfound, -⟩
  · obtain ⟨hsuffix, hlength⟩ := behind?_suffix hbehind
    rw [String.length_toList] at hlength
    exact ⟨hsuffix, hlength.le⟩
  · cases hfound

end Parse

open Parse

variable {n : Nat} {s t : ParseState}

/-! ## Escapes -/

theorem takes_literal (c : Char) : Takes 0 (literal c) := takes_flags.andThen fun _ => .pure _

theorem takes_negateIf (f : Flags) (negated : Bool) (set : CharSet) :
    Takes 0 (negateIf f negated set) := .ite (.ite (.pure _) .fail) (.pure _)

theorem takes_hexDigits (value count : Nat) : Takes 0 (hexDigits value count) := by
  induction count generalizing value with
  | zero => exact .pure _
  | succ count ih =>
    unfold hexDigits
    refine takes_peek.andThen fun c => ?_
    split
    · exact takes_advance.andThen fun _ => ih _
    · exact .fail

theorem takes_hexInBraces (value : Option Nat) (fuel : Nat) : Takes 0 (hexInBraces value fuel) := by
  induction fuel generalizing value with
  | zero => exact .fail
  | succ fuel ih =>
    unfold hexInBraces
    refine takes_peek.andThen fun c => takes_advance.andThen fun _ => .ite ?_ ?_
    · split
      · exact .pure _
      · exact .fail
    · split
      · exact ih _
      · exact .fail

theorem takes_hexChar (letter : Char) (fuel : Nat) : Takes 0 (hexChar letter fuel) := by
  unfold hexChar
  refine takes_skipBlanks.andThen fun _ => takes_peek.andThen fun c => ?_
  extract_lets braced last
  have hlast : ∀ code, Takes 0 (last code) := fun code => by
    unfold last
    split
    · exact takes_flags.andThen fun _ => (takes_ensure _).andThen fun _ => .pure _
    · exact .fail
  exact .ite (takes_advance.andThen fun _ => (takes_hexInBraces _ _).andThen hlast)
    ((takes_hexDigits _ _).andThen hlast)

theorem takes_untilBrace (done : List Char) (fuel : Nat) : Takes 0 (untilBrace done fuel) := by
  induction fuel generalizing done with
  | zero => exact .fail
  | succ fuel ih =>
    unfold untilBrace
    exact takes_peek.andThen fun c => .ite ((takes_skip 1).andThen fun _ => .pure _)
      (takes_advance.andThen fun _ => ih _)

theorem takes_unicodeClass (negated : Bool) (fuel : Nat) :
    Takes 0 (unicodeClass negated fuel) := by
  unfold unicodeClass
  refine takes_skipBlanks.andThen fun _ => takes_flags.andThen fun f =>
    (takes_ensure _).andThen fun _ => takes_peek.andThen fun c => ?_
  extract_lets last
  have hlast : ∀ found, Takes 0 (last found) := fun found => by
    unfold last
    split
    · exact takes_negateIf _ _ _
    · exact .fail
  exact .ite
    (takes_advance.andThen fun _ => (takes_untilBrace _ _).andThen fun _ =>
      (Takes.pure _).andThen hlast)
    (takes_peek.andThen fun _ => (takes_ensure _).andThen fun _ => takes_advance.andThen fun _ =>
      (Takes.pure _).andThen hlast)

theorem takes_letterClass (letter : Char) : Takes 0 (letterClass letter) :=
  takes_flags.andThen fun _ => takes_negateIf _ _ _

theorem takes_boundaryName (done : List Char) (fuel : Nat) : Takes 0 (boundaryName done fuel) := by
  induction fuel generalizing done with
  | zero => exact .fail
  | succ fuel ih =>
    unfold boundaryName
    refine takes_peek?.andThen fun c => ?_
    cases c with
    | none => exact .pure _
    | some c => exact .ite (takes_advance.andThen fun _ => ih _) (.pure _)

theorem takes_namedBoundary (unicode : Bool) (fuel : Nat) :
    Takes 0 (namedBoundary unicode fuel) := by
  unfold namedBoundary
  refine (takes_boundaryName _ _).andThen fun name => takes_peek.andThen fun _ =>
    (takes_ensure _).andThen fun _ => (takes_skip 1).andThen fun _ => ?_
  split
  iterate 4 exact .pure _
  exact .fail

theorem takes_boundary (fuel : Nat) : Takes 0 (boundary fuel) := by
  intro s a t h
  unfold boundary at h
  simp only [bind_apply, flags_apply, get_apply, peek?_apply, Option.bind_some] at h
  split at h
  · cases h
    exact .refl _
  obtain ⟨_, t₁, h₁, h⟩ := bind_eq_some.mp h
  obtain ⟨c, t₂, h₂, h⟩ := bind_eq_some.mp h
  split at h
  · cases h
    exact .refl _
  · exact ((takes_advance h₁).andThen (takes_peek h₂)).andThen (takes_namedBoundary _ _ h)

theorem takes_escaped (c : Char) (fuel : Nat) : Takes 0 (escaped c fuel) := by
  unfold escaped
  refine takes_flags.andThen fun f => .ite (.pure _) ?_
  generalize f.unicode = unicode
  split
  all_goals
    first
    | exact .pure _
    | exact .fail
    | exact (takes_hexChar _ fuel).andThen fun _ => .pure _
    | exact (takes_unicodeClass _ fuel).andThen fun _ => .pure _
    | exact (takes_letterClass _).andThen fun _ => .pure _
    | exact (takes_boundary fuel).andThen fun _ => .pure _

theorem takes_escape (fuel : Nat) : Takes 1 (escape fuel) :=
  takes_next.andThen fun c => takes_escaped c fuel

/-! ## Classes -/

theorem takes_setOp? : Takes 0 setOp? := by
  unfold setOp?
  exact (takes_accept _).andThen fun _ => .ite (.pure _) <|
    (takes_accept _).andThen fun _ => .ite (.pure _) <|
      (takes_accept _).andThen fun _ => .ite (.pure _) (.pure _)

theorem asciiClassOf?_suffix {text rest : List Char} {negated : Bool} {set : CharSet}
    (h : asciiClassOf? text = some (negated, set, rest)) :
    rest <:+ text ∧ rest.length + 1 ≤ text.length := by
  simp only [asciiClassOf?, Option.bind_eq_bind, Option.bind_eq_some_iff] at h
  obtain ⟨opened, hopened, rest, hrest, set, -, h⟩ := h
  cases h
  obtain ⟨hopened, hlength⟩ := behind?_suffix hopened
  have hinner : (behind? ['^'] opened).getD opened <:+ opened := by
    cases hnegated : behind? ['^'] opened with
    | none => exact List.suffix_refl _
    | some inner => exact (behind?_suffix hnegated).1
  have hsuffix := ((behind?_suffix hrest).1.trans (List.dropWhile_suffix _)).trans hinner
  have hle := hsuffix.length_le
  exact ⟨hsuffix.trans hopened, by simp only [List.length_cons] at hlength; omega⟩

/-- Without a class by name, nothing is taken; with one, its brackets are. -/
theorem past_of_asciiClass? {set : Option CharSet} (h : asciiClass? s = some (set, t)) :
    if set.isSome then Past 1 s t else t = s := by
  unfold asciiClass? at h
  rw [bind_apply, get_apply, Option.bind_some] at h
  cases hclass : asciiClassOf? s.rest with
  | none =>
    simp only [hclass] at h
    cases h
    rfl
  | some found =>
    obtain ⟨negated, named, rest⟩ := found
    simp only [hclass] at h
    obtain ⟨_, u, hu, h⟩ := bind_eq_some.mp h
    cases hu
    obtain ⟨set, u, hset, h⟩ := bind_eq_some.mp h
    cases h
    exact Past.andThen (asciiClassOf?_suffix hclass) (takes_negateIf _ _ _ hset)

theorem takes_asciiClass? : Takes 0 asciiClass? := fun _ set _ h => by
  have hpast := past_of_asciiClass? h
  cases set with
  | none =>
    cases hpast
    exact .refl _
  | some set => exact Past.mono hpast (Nat.zero_le 1)

/-- An operator has a text of its own. -/
theorem past_of_setOp? {op : SetOp} (h : setOp? s = some (some op, t)) : Past 1 s t := by
  unfold setOp? at h
  obtain ⟨found, t₁, h₁, h⟩ := bind_eq_some.mp h
  cases found with
  | true =>
    cases h
    exact (past_of_accept h₁).mono (by decide)
  | false =>
    obtain ⟨found, t₂, h₂, h⟩ := bind_eq_some.mp h
    cases found with
    | true =>
      cases h
      exact ((takes_accept _ h₁).trans (past_of_accept h₂)).mono (by decide)
    | false =>
      obtain ⟨found, t₃, h₃, h⟩ := bind_eq_some.mp h
      cases found with
      | true =>
        cases h
        exact (((takes_accept _ h₁).trans (takes_accept _ h₂)).trans (past_of_accept h₃)).mono
          (by decide)
      | false => cases h

theorem takes_classItem (fuel : Nat) : Takes 1 (classItem fuel) := by
  unfold classItem
  exact takes_next.andThen fun _ => .ite ((takes_escape fuel).mono (Nat.zero_le 1)) (.pure _)

theorem takes_classChar (c : Char) : Takes 0 (classChar c) :=
  takes_flags.andThen fun _ => (takes_ensure _).andThen fun _ => .pure _

theorem takes_peekAfter? : Takes 0 peekAfter? := fun _ _ _ h => by cases h; exact .refl _

theorem takes_rangeDash : Takes 0 rangeDash :=
  takes_peek.andThen fun _ => takes_peekAfter?.andThen fun _ => .pure _

theorem takes_soleItem (item : Piece) : Takes 0 (soleItem item) := by
  cases item with
  | char c => exact (takes_classChar c).andThen fun _ => .pure _
  | set s => exact .pure _
  | anchor a => exact .fail

theorem takes_rangeOf (first last : Piece) : Takes 0 (rangeOf first last) := by
  unfold rangeOf
  split
  · exact (takes_ensure _).andThen fun _ => (takes_classChar _).andThen fun _ =>
      (takes_classChar _).andThen fun _ => .pure _
  · exact .fail

theorem takes_rangeFrom (first : Piece) (fuel : Nat) : Takes 0 (rangeFrom first fuel) :=
  takes_skipBlanks.andThen fun _ => takes_rangeDash.andThen fun _ =>
    .ite (takes_advance.andThen fun _ => ((takes_classItem fuel).mono (Nat.zero_le 1)).andThen
      fun _ => takes_rangeOf _ _) (takes_soleItem first)

theorem takes_classRange (fuel : Nat) : Takes 1 (classRange fuel) :=
  (takes_classItem fuel).andThen fun first => takes_rangeFrom first fuel

theorem takes_leadingDashes (items : Items) (fuel : Nat) :
    Takes 0 (leadingDashes items fuel) := by
  induction fuel generalizing items with
  | zero => exact .fail
  | succ fuel ih =>
    unfold leadingDashes
    exact takes_peek.andThen fun c => .ite (takes_advance.andThen fun _ => ih _) (.pure _)

theorem takes_classStart (fuel : Nat) : Takes 0 (classStart fuel) :=
  (takes_leadingDashes _ _).andThen fun _ => takes_peek.andThen fun _ =>
    .ite (takes_advance.andThen fun _ => takes_peek.andThen fun _ => .pure _) (.pure _)

theorem takes_classOpening (fuel : Nat) : Takes 0 (classOpening fuel) := by
  unfold classOpening
  refine takes_skipBlanks.andThen fun _ => takes_peek.andThen fun c => ?_
  extract_lets last
  have hlast : ∀ negated, Takes 0 (last negated) := fun negated =>
    (takes_classStart fuel).andThen fun _ => .pure _
  exact .ite (takes_advance.andThen fun _ => (Takes.pure _).andThen hlast)
    ((Takes.pure _).andThen hlast)

/-- A class that is read has at least its closing bracket. -/
theorem takes_classRest (negated : Bool) (left : Option (Nested × SetOp)) (items : Items)
    (fuel : Nat) : Takes 1 (classRest negated left items fuel) := by
  induction fuel generalizing negated left items with
  | zero => exact .fail
  | succ fuel ih =>
    unfold classRest
    refine takes_skipBlanks.behind fun _ => .peek fun s c v t hhead h => ?_
    have hweak {negated left items} := (ih negated left items).mono (Nat.zero_le 1)
    split at h
    · refine takes_asciiClass?.behind (fun found => ?_) h
      cases found with
      | some set => exact ih _ _ _
      | none => exact (takes_skip 1).behind fun _ => (takes_classOpening fuel).behind fun start =>
          hweak.behind fun inner => ih _ _ _
    split at h
    · obtain ⟨_, u, hskip, h⟩ := bind_eq_some.mp h
      have hpos := List.length_pos_of_mem (List.mem_of_mem_head? hhead)
      refine ((past_of_skip hskip).mono (by omega)).andThen (Takes.andThen takes_flags ?_ h)
      exact fun _ => (takes_negateIf _ _ _).andThen fun _ => .pure _
    · refine takes_setOp?.behind (fun op => ?_) h
      cases op with
      | some op => exact takes_flags.behind fun _ => ih _ _ _
      | none => exact (takes_classRange fuel).andThen fun _ => hweak

/-! ## Groups and repetitions -/

theorem takes_flagItems (f : Flags) (seen : List Char) (fuel : Nat) :
    Takes 0 (flagItems f seen fuel) := by
  induction fuel generalizing f seen with
  | zero => exact .fail
  | succ fuel ih =>
    unfold flagItems
    refine (takes_next.mono (Nat.zero_le 1)).andThen fun c => .ite ?_ ?_
    · exact (takes_ensure _).andThen fun _ => .pure _
    · refine (takes_ensure _).andThen fun _ => .ite (ih _ _) ?_
      split
      · exact ih _ _
      · exact .fail

theorem takes_groupName : Takes 0 groupName := by
  intro s u t h
  unfold groupName at h
  rw [bind_apply, get_apply, Option.bind_some] at h
  cases hbehind : s.rest.dropWhile fun c => c != '>' with
  | nil =>
    simp only [hbehind] at h
    cases h
  | cons c rest =>
    simp only [hbehind] at h
    obtain ⟨_, v, hv, h⟩ := bind_eq_some.mp h
    cases h
    exact .of_suffix ((List.suffix_cons c rest).trans (hbehind ▸ List.dropWhile_suffix _))

theorem takes_decimalDigits (value : Option Nat) (fuel : Nat) :
    Takes 0 (decimalDigits value fuel) := by
  induction fuel generalizing value with
  | zero => exact .fail
  | succ fuel ih =>
    unfold decimalDigits
    refine takes_peek?.andThen fun c => ?_
    cases c with
    | none => exact .pure _
    | some c => exact .ite (takes_advance.andThen fun _ => ih _) (.pure _)

theorem takes_skipSpaces : Takes 0 skipSpaces := by
  rintro s v t ⟨⟩
  exact .of_suffix (List.dropWhile_suffix _)

theorem takes_decimal? (fuel : Nat) : Takes 0 (decimal? fuel) :=
  takes_skipSpaces.andThen fun _ => (takes_decimalDigits _ _).andThen fun _ =>
    takes_skipSpaces.andThen fun _ => (takes_ensure _).andThen fun _ => .pure _

theorem takes_decimal (fuel : Nat) : Takes 0 (decimal fuel) := by
  refine (takes_decimal? fuel).andThen fun n => ?_
  cases n
  · exact .fail
  · exact .pure _

theorem takes_counts (fuel : Nat) : Takes 0 (counts fuel) := by
  unfold counts
  refine takes_skipBlanks.andThen fun _ => (takes_decimal fuel).andThen fun least =>
    takes_peek.andThen fun c => ?_
  extract_lets last
  have hlast : ∀ bounds, Takes 0 (last bounds) := fun bounds =>
    takes_peek.andThen fun _ => (takes_ensure _).andThen fun _ => (takes_ensure _).andThen fun _ =>
      takes_advance.andThen fun _ => .pure _
  refine .ite (takes_advance.andThen fun _ => takes_peek.andThen fun _ => ?_)
    ((Takes.pure _).andThen hlast)
  exact .ite ((Takes.pure _).andThen hlast)
    ((takes_decimal fuel).andThen fun _ => (Takes.pure _).andThen hlast)

theorem takes_bounds? (fuel : Nat) : Takes 0 (bounds? fuel) := by
  unfold bounds?
  refine takes_peek?.andThen fun c => ?_
  split
  iterate 3 exact (takes_skip 1).andThen fun _ => .pure _
  · exact (takes_skip 1).andThen fun _ => (takes_counts fuel).andThen fun _ => .pure _
  · exact .pure _

theorem takes_repetition? (fuel : Nat) : Takes 0 (repetition? fuel) := by
  unfold repetition?
  refine (takes_bounds? fuel).andThen fun bounds => ?_
  split
  · exact (takes_accept _).andThen fun _ => takes_flags.andThen fun _ => .pure _
  · exact .pure _

/-- A repetition has a mark or an opening brace. -/
theorem past_of_bounds? {fuel : Nat} {bounds : Nat × Option Nat}
    (h : bounds? fuel s = some (some bounds, t)) : Past 1 s t := by
  unfold bounds? at h
  rw [bind_apply, peek?_apply, Option.bind_some] at h
  cases hrest : s.rest with
  | nil =>
    simp only [hrest] at h
    cases h
  | cons c rest =>
    have hskip {β : Type} {f : Unit → Parse β} {v : β} (hf : ∀ u, Takes 0 (f u))
        (h : (skip 1 >>= f) s = some (v, t)) : Past 1 s t := by
      obtain ⟨_, u, hu, h⟩ := bind_eq_some.mp h
      exact ((past_of_skip hu).mono (by simp [hrest])).andThen (hf _ h)
    simp only [hrest, List.head?_cons] at h
    by_cases hmark : c = '?' ∨ c = '*' ∨ c = '+'
    · rcases hmark with rfl | rfl | rfl <;> exact hskip (fun _ => .pure _) h
    by_cases hbrace : c = '\x7b'
    · subst hbrace
      exact hskip (fun _ => (takes_counts fuel).andThen fun _ => .pure _) h
    · simp only [not_or] at hmark
      simp [hmark, hbrace] at h

theorem past_of_repetition? {fuel : Nat} {again : Pattern → Pattern}
    (h : repetition? fuel s = some (some again, t)) : Past 1 s t := by
  unfold repetition? at h
  obtain ⟨bounds, u, hu, h⟩ := bind_eq_some.mp h
  cases bounds with
  | none => cases h
  | some bounds =>
    refine (past_of_bounds? hu).andThen (Takes.andThen (takes_accept _) (fun _ => ?_) h)
    exact takes_flags.andThen fun _ => .pure _

theorem takes_ofPiece (piece : Piece) : Takes 0 (ofPiece piece) := by
  cases piece with
  | char c => exact takes_literal c
  | set s => exact .pure _
  | anchor a => exact .pure _

theorem takes_primitiveFrom (c : Char) (fuel : Nat) : Takes 0 (primitiveFrom c fuel) := by
  unfold primitiveFrom
  refine takes_flags.andThen fun f => ?_
  split
  · exact ((takes_escape fuel).mono (Nat.zero_le 1)).andThen fun piece => takes_ofPiece piece
  · exact (takes_ensure _).andThen fun _ => .ite (.pure _) (.ite (.pure _) (.pure _))
  · exact .pure _
  · exact .pure _
  · exact takes_literal _

theorem takes_primitive (fuel : Nat) : Takes 1 (primitive fuel) :=
  takes_next.andThen fun c => takes_primitiveFrom c fuel

theorem takes_looksAround : Takes 0 looksAround := by
  rintro s v t ⟨⟩
  exact .refl _

theorem takes_groupOpening (outer : Flags) (fuel : Nat) : Takes 0 (groupOpening outer fuel) := by
  unfold groupOpening
  refine (takes_accept _).andThen fun _ => (takes_accept _).andThen fun _ => .ite ?_ ?_
  · exact takes_groupName.andThen fun _ => .pure _
  · refine (takes_accept _).andThen fun _ => .ite ?_ (.pure _)
    exact (takes_flagItems _ _ _).andThen fun items => (takes_ensure _).andThen fun _ =>
      (takes_setFlags _).andThen fun _ => .pure _

/-- The three levels of a pattern are read from the front; a group has an opening bracket. -/
theorem takes_levels (fuel : Nat) :
    Takes 0 (alternatives fuel) ∧ (∀ done, Takes 0 (branch done fuel)) ∧
      ∀ ⦃s part t⦄, group? fuel s = some (part, t) → Past (min 1 s.rest.length) s t := by
  induction fuel with
  | zero => exact ⟨.fail, fun _ => .fail, fun _ _ _ h => by cases h⟩
  | succ fuel ih =>
    obtain ⟨halternatives, hbranch, hgroup⟩ := ih
    refine ⟨?_, fun done => ?_, fun s part t h => ?_⟩
    · unfold alternatives
      exact (hbranch _).andThen fun first => (takes_accept _).andThen fun _ =>
        .ite (halternatives.andThen fun _ => .pure _) (.pure _)
    · unfold branch
      have hgroup' : Takes 0 (group? fuel) := fun _ _ _ h => (hgroup h).mono (Nat.zero_le _)
      refine takes_skipBlanks.andThen fun _ => takes_peek?.andThen fun c => ?_
      split
      iterate 3 exact .pure _
      · exact hgroup'.andThen fun _ => hbranch _
      · exact (takes_skip 1).andThen fun _ => (takes_classOpening fuel).andThen fun start =>
          ((takes_classRest _ _ _ fuel).mono (Nat.zero_le 1)).andThen fun set => hbranch _
      · refine (takes_repetition? fuel).andThen fun again => ?_
        split
        · exact hbranch _
        · exact .fail
        · exact ((takes_primitive fuel).mono (Nat.zero_le 1)).andThen fun _ => hbranch _
    · unfold group? at h
      obtain ⟨_, u, hadvance, h⟩ := bind_eq_some.mp h
      refine (past_of_advance hadvance).andThen (Takes.andThen takes_looksAround ?_ h)
      refine fun _ => (takes_ensure _).andThen fun _ => takes_flags.andThen fun outer =>
        (takes_groupOpening _ _).andThen fun captures => ?_
      cases captures with
      | none => exact .pure _
      | some captures =>
        exact halternatives.andThen fun _ => (takes_accept _).andThen fun _ =>
          (takes_ensure _).andThen fun _ => (takes_setFlags _).andThen fun _ => .pure _

theorem takes_alternatives (fuel : Nat) : Takes 0 (alternatives fuel) := (takes_levels fuel).1

theorem takes_branch (done : List (Option Pattern)) (fuel : Nat) : Takes 0 (branch done fuel) :=
  (takes_levels fuel).2.1 done

/-- A group has at least its opening bracket. -/
theorem past_of_group? {fuel : Nat} {part : Option Pattern} (h : group? fuel s = some (part, t)) :
    Past (min 1 s.rest.length) s t := (takes_levels fuel).2.2 h

end Pattern

end Restyle
