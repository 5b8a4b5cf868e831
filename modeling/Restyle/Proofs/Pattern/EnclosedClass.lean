-- SUMMARY: Escapes and classes, alone and with brackets closed behind them.
import Restyle.Proofs.Pattern.SideBySide

/-!
# Enclosed classes

Escapes and classes are read alike alone and with brackets closed behind the text, with whatever
fuel lasts for both. Where one goes on into the closing bracket, the bracket is gone. Two looks
ahead are the hard cases. The dash of a range asks for the character behind it. And a word boundary
asks whether a brace behind it belongs to a repetition; then the brace may be left (`AtBrace`), but
nothing that comes next can read it.
-/

namespace Restyle

namespace Pattern

open Parse

variable {n m : Nat} {s t : ParseState} {more : List Char}

/-- Fuel that lasts for what is left, alone and with the closing bracket behind it. -/
structure Ample (s : ParseState) (n m : Nat) : Prop where
  alone : s.rest.length < n
  enclosed : s.rest.length + 2 < m

theorem Ample.mono {k : Nat} (h : Ample s n m) (hpast : Past k s t) : Ample t n m :=
  ⟨by have := h.1; have := hpast.2; omega, by have := h.2; have := hpast.2; omega⟩

/-- Less fuel is needed for less text. -/
theorem Ample.step (h : Ample s (n + 1) (m + 1)) (hpast : Past 1 s t) : Ample t n m :=
  ⟨by have := h.1; have := hpast.2; omega, by have := h.2; have := hpast.2; omega⟩

theorem Ample.weaken (h : Ample s n m) : Ample s (n + 1) (m + 1) :=
  ⟨by have := h.1; omega, by have := h.2; omega⟩

theorem Ample.elim {p : Prop} (h : Ample s 0 m) : p := absurd h.alone (Nat.not_lt_zero _)

theorem Ample.exists_succ (h : Ample s n m) : ∃ k, m = k + 1 :=
  Nat.exists_eq_succ_of_ne_zero (Nat.ne_zero_of_lt h.enclosed)

/-! ## Escapes -/

theorem keeps_negateIf (f : Flags) (negated : Bool) (set : CharSet) :
    Keeps Never s (negateIf f negated set) (negateIf f negated set) :=
  .ite (fun _ => .ite (fun _ => .pure _) fun _ => .fail) fun _ => .pure _

theorem keeps_literal (c : Char) : Keeps Never s (literal c) (literal c) := .flags (.pure _)

theorem keeps_letterClass (letter : Char) :
    Keeps Never s (letterClass letter) (letterClass letter) := .flags (keeps_negateIf _ _ _)

theorem keeps_hexDigits (value count : Nat) :
    Keeps Never s (hexDigits value count) (hexDigits value count) := by
  induction count generalizing value s with
  | zero => exact .pure _
  | succ count ih =>
    unfold hexDigits
    refine .peek (fun c rest hrest => ?_) fun t v u ht h => by cases h
    split
    · exact .advance hrest fun _ _ => ih _
    · exact .fail

theorem keeps_hexInBraces (value : Option Nat) (h : Ample s n m) :
    Keeps Never s (hexInBraces value n) (hexInBraces value m) := by
  induction n generalizing value s m with
  | zero => exact h.elim
  | succ n ih =>
    obtain ⟨m, rfl⟩ := h.exists_succ
    unfold hexInBraces
    refine .peek (fun c rest hrest => ?_) fun t v u ht h => ?_
    · refine .advance hrest fun t hpast => .ite (fun _ => ?_) fun _ => ?_
      · split
        · exact .pure _
        · exact .fail
      · split
        · exact ih _ (h.step hpast)
        · exact .fail
    · rw [bind_apply, advance_apply] at h
      cases h

theorem keeps_hexChar (letter : Char) (h : Ample s n m) :
    Keeps Never s (hexChar letter n) (hexChar letter m) := by
  unfold hexChar
  refine keeps_skipBlanks.andThen fun _ t ht => ?_
  replace h := h.mono (takes_skipBlanks ht)
  refine .peek (fun c rest hrest => ?_) fun u v w hu hw => ?_
  · extract_lets braced last
    have hlast : ∀ code {u}, Keeps Never u (last code) (last code) := fun code u => by
      unfold last
      split
      · exact .flags (.ensure fun _ => .pure _)
      · exact .fail
    refine .ite (fun _ => ?_) fun _ => ?_
    · refine .advance hrest fun u hpast => ?_
      exact (keeps_hexInBraces none (h.mono hpast)).andThen
        fun code _ _ => hlast code
    · exact (keeps_hexDigits _ _).andThen fun code _ _ => hlast code
  · -- The bracket is not a brace, and no hexadecimal digit either.
    have hnone : ∀ value count, hexDigits value (count + 1) u = none := fun value count => by
      unfold hexDigits
      rw [bind_apply, peek_apply, hu]
      rfl
    obtain ⟨code, x, hcode, -⟩ := bind_eq_some.mp hw
    split at hcode
    · rw [hnone] at hcode
      cases hcode
    · split at hcode <;> rw [hnone] at hcode <;> cases hcode

theorem keeps_untilBrace (done : List Char) (h : Ample s n m) :
    Keeps Through s (untilBrace done n) (untilBrace done m) := by
  induction n generalizing done s m with
  | zero => exact h.elim
  | succ n ih =>
    obtain ⟨m, rfl⟩ := h.exists_succ
    unfold untilBrace
    refine .peek (fun c rest hrest => ?_) fun t v u ht h => ?_
    · refine .ite (fun _ => ?_) fun _ => ?_
      · exact .skip hrest fun _ _ => .pure _
      · exact .advance hrest fun _ hpast => ih _ (h.step hpast)
    · obtain ⟨_, w, hw, h⟩ := bind_eq_some.mp h
      have hpast := (past_of_advance_of_cons ht hw).andThen (takes_untilBrace _ _ h)
      exact through_of_past v (by rw [ht]) hpast

theorem keeps_unicodeClass (negated : Bool) (h : Ample s n m) :
    Keeps Through s (unicodeClass negated n) (unicodeClass negated m) := by
  unfold unicodeClass
  refine keeps_skipBlanks.andThen fun _ t ht => .flags <| .ensure fun _ => ?_
  replace h := h.mono (takes_skipBlanks ht)
  generalize t.flags = f
  extract_lets last
  have hlast : ∀ found {u}, Keeps Never u (last found) (last found) := fun found u => by
    unfold last
    split
    · exact keeps_negateIf _ _ _
    · exact .fail
  have htakes : ∀ found, Takes 0 (last found) := fun found => by
    unfold last
    split
    · exact takes_negateIf _ _ _
    · exact .fail
  have hthrough : ∀ found {u v w}, u.rest = closing →
      (advance >>= fun _ => pure found >>= last) u = some (v, w) → Through v w :=
    fun found u v w hu hw => by
      obtain ⟨_, x, hx, hw⟩ := bind_eq_some.mp hw
      exact through_of_past v (by rw [hu])
        ((past_of_advance_of_cons hu hx).andThen ((Takes.pure found).andThen htakes hw))
  refine .peek (fun c rest hrest => .ite (fun _ => ?_) fun _ => ?_) fun u v w hu hw => ?_
  · refine .advance hrest fun u hpast => ?_
    exact (keeps_untilBrace [] (h.mono hpast)).thenTakes
      (fun name _ _ => (hlast _).of_never) fun name => htakes _
  · refine .peek (fun c rest hrest => .ensure fun _ => ?_) fun u v w hu hw => ?_
    · exact .advance hrest fun _ _ => (hlast _).of_never
    · obtain ⟨_, x, hx, hw⟩ := bind_eq_some.mp hw
      obtain ⟨-, rfl⟩ := ensure_eq_some.mp hx
      exact hthrough _ hu hw
  · obtain ⟨c, x, hc, hw⟩ := bind_eq_some.mp hw
    obtain ⟨-, rfl⟩ := peek_eq_some.mp hc
    obtain ⟨_, y, hy, hw⟩ := bind_eq_some.mp hw
    obtain ⟨-, rfl⟩ := ensure_eq_some.mp hy
    exact hthrough _ hu hw

theorem keeps_boundaryName (done : List Char) (h : Ample s n m) :
    Keeps Never s (boundaryName done n) (boundaryName done m) := by
  induction n generalizing done s m with
  | zero => exact h.elim
  | succ n ih =>
    obtain ⟨m, rfl⟩ := h.exists_succ
    unfold boundaryName
    refine .peek? (fun c rest hrest => .ite (fun _ => ?_) fun _ => .pure _) (fun _ => .pure _)
      fun _ => .ahead _ _
    exact .advance hrest fun _ hpast => ih _ (h.step hpast)

/-- An opening brace is left that stands for itself, and nothing that counts is between it and the
    closing bracket. -/
def AtBrace {α : Type} (_ : α) (t : ParseState) : Prop :=
  ∃ text, t.rest = '\x7b' :: text ∧ settle t.flags.verbose text = closing

theorem keeps_namedBoundary (unicode : Bool) (h : Ample s n m) :
    Keeps Never s (namedBoundary unicode n) (namedBoundary unicode m) := by
  unfold namedBoundary
  refine (keeps_boundaryName [] h).andThen fun name t _ => ?_
  refine .peek (fun c rest hrest => .ensure fun _ => ?_) fun t v u ht h => by cases h
  refine .skip hrest fun _ _ => ?_
  split
  iterate 4 exact .pure _
  exact .fail

/-- A brace behind a word boundary is looked at twice. -/
theorem keeps_boundary (h : Ample s n m) : Keeps AtBrace s (boundary n) (boundary m) := by
  refine ⟨fun more hmore => ?_, (takes_boundary n).stays⟩
  unfold boundary
  rw [bind_apply, bind_apply, flags_apply, flags_apply, Option.bind_some, Option.bind_some,
    extend_flags]
  dsimp only
  rw [bind_apply, bind_apply, get_apply, get_apply, Option.bind_some, Option.bind_some,
    bind_apply, bind_apply, peek?_apply, peek?_apply, Option.bind_some, Option.bind_some,
    extend_rest]
  cases hrest : s.rest with
  | nil =>
    rcases hmore with rfl | rfl
    · exact .ahead _ _
    · exact .ahead _ _
  | cons c rest =>
    rw [List.cons_append, List.head?_cons, List.head?_cons]
    split
    · exact .ahead _ _
    rename_i hbrace
    obtain rfl : c = '\x7b' := by simpa using hbrace
    rw [bind_apply, bind_apply, advance_apply, advance_apply, Option.bind_some, Option.bind_some,
      bind_apply, bind_apply, peek_apply, peek_apply]
    simp only [extend_rest, extend_flags, hrest, List.cons_append, List.tail_cons]
    rcases settle_append s.flags.verbose rest hmore with hahead | ⟨hnil, hnil'⟩
    · rw [hahead]
      cases hsettle : settle s.flags.verbose rest with
      | nil =>
        rcases hmore with rfl | rfl
        · exact .fails
        · refine .of_beyond rfl fun a t ht => ?_
          cases ht
          exact ⟨rest ++ closing, by simp [hrest], by rw [extend_flags, hahead, hsettle]; rfl⟩
      | cons c text =>
        simp only [List.cons_append, List.head?_cons, Option.map_some, Option.bind_some]
        split
        · exact .ahead _ _
        · have hpast : Past 0 s { s with rest := c :: text } := .of_suffix <| by
            rw [← hsettle, hrest]
            exact (settle_suffix _ _).trans (List.suffix_cons _ _)
          exact (keeps_namedBoundary s.flags.unicode (h.mono hpast)).of_never.follows hmore
    · rw [hnil, hnil']
      exact .fails

/-- What is over behind an escape: nothing, unless it is an anchor before a brace. -/
def EscapeOver (piece : Piece) (t : ParseState) : Prop :=
  Through piece t ∨ (∃ a, piece = .anchor a) ∧ AtBrace piece t

theorem keeps_escaped (c : Char) (h : Ample s n m) :
    Keeps EscapeOver s (escaped c n) (escaped c m) := by
  unfold escaped
  refine .flags (.ite (fun _ => .pure _) fun _ => ?_)
  generalize s.flags.unicode = unicode
  split
  all_goals
    first
    | exact .pure _
    | exact .fail
    | exact (keeps_hexChar _ h).map fun _ _ => False.elim
    | exact (keeps_unicodeClass _ h).map fun _ _ => .inl
    | exact (keeps_letterClass _).map fun _ _ => False.elim
    | exact (keeps_boundary h).map fun a _ hbrace => .inr ⟨⟨a, rfl⟩, hbrace⟩

theorem keeps_escape (h : Ample s n m) : Keeps EscapeOver s (escape n) (escape m) :=
  keeps_next.bind (fun c _ ht => keeps_escaped c (h.mono (takes_next ht)))
    fun c _ _ _ ht hu => .inl ((takes_escaped c m hu).1.trans ht)

/-! ## Classes -/

theorem keeps_setOp? : Keeps Never s setOp? setOp? := by
  unfold setOp?
  exact (keeps_accept (by decide)).andThen fun _ _ _ => .ite (fun _ => .pure _) fun _ =>
    (keeps_accept (by decide)).andThen fun _ _ _ => .ite (fun _ => .pure _) fun _ =>
      (keeps_accept (by decide)).andThen fun _ _ _ => .ite (fun _ => .pure _) fun _ => .pure _

theorem keeps_classItem (h : Ample s (n + 1) (m + 1)) :
    Keeps EscapeOver s (classItem n) (classItem m) := by
  unfold classItem
  refine keeps_next.bind (fun c t ht => .ite (fun _ => ?_) fun _ => .pure _) ?_
  · exact keeps_escape (h.step (takes_next ht))
  · intro c t piece u ht hu
    have htakes : Takes 0 (if c = '\\' then escape m else pure (.char c)) :=
      .ite ((takes_escape m).mono (Nat.zero_le 1)) (.pure _)
    exact .inl ((htakes hu).1.trans ht)

theorem keeps_classChar (c : Char) : Keeps Never s (classChar c) (classChar c) :=
  .flags (.ensure fun _ => .pure _)

theorem keeps_soleItem (item : Piece) : Keeps Never s (soleItem item) (soleItem item) := by
  cases item with
  | char c => exact (keeps_classChar c).andThen fun _ _ _ => .pure _
  | set s => exact .pure _
  | anchor a => exact .fail

theorem keeps_rangeOf (first last : Piece) :
    Keeps Never s (rangeOf first last) (rangeOf first last) := by
  unfold rangeOf
  split
  · exact .ensure fun _ => (keeps_classChar _).andThen fun _ _ _ =>
      (keeps_classChar _).andThen fun _ _ _ => .pure _
  · exact .fail

/-- What is behind the text may change what comes next, but not whether it is a given character that
    is neither a blank nor the mark of a comment nor the closing bracket. -/
theorem peekAfter?_extend (hne : s.rest ≠ []) (hmore : more = [] ∨ more = closing) :
    ∃ after after', peekAfter? s = some (after, s) ∧
      peekAfter? (s.extend more) = some (after', s.extend more) ∧
        ∀ d, isMeta d → d ≠ '#' → d ≠ ')' → (after' == some d) = (after == some d) := by
  refine ⟨_, _, rfl, rfl, fun d hmeta hmark hbracket => ?_⟩
  obtain ⟨c, text, hrest⟩ := List.exists_cons_of_ne_nil hne
  simp only [extend_rest, extend_flags, hrest, List.cons_append, List.drop_succ_cons,
    List.drop_zero]
  cases s.flags.verbose with
  | false =>
    cases text with
    | cons c text => rfl
    | nil => rcases hmore with rfl | rfl <;> simp [closing, Ne.symm hbracket]
  | true =>
    simp only [seen_append hmore, if_true]
    cases hseen : seen text with
    | cons c rest => rfl
    | nil =>
      rcases hmore with rfl | rfl
      · simp
      · have hhead : text.head? ≠ some d := by
          rintro h
          obtain ⟨rest, rfl⟩ := List.head?_eq_some_iff.mp h
          simp [seen_of_not_blank (not_blank_of_isMeta hmeta) hmark] at hseen
        simp [closing, hhead, Ne.symm hbracket]

theorem keeps_rangeDash :
    Keeps (fun isRange t => isRange = false ∧ Beside isRange t) s rangeDash rangeDash := by
  unfold rangeDash
  refine .peek (fun c rest hrest => ⟨fun more hmore => ?_, fun hnil => ?_⟩)
    fun t isRange u ht h => ?_
  · obtain ⟨after, after', h, h', hsame⟩ := peekAfter?_extend (s := s) (by simp [hrest]) hmore
    rw [bind_apply, bind_apply, h, h']
    simp only [Option.bind_some, bne, hsame ']' (by decide) (by decide) (by decide),
      hsame '-' (by decide) (by decide) (by decide)]
    exact .ahead _ _
  · simp [hrest] at hnil
  · cases h
    exact ⟨rfl, by rw [Beside, Within, ht]⟩

/-- A dash that makes a range is there. -/
theorem rest_ne_nil_of_rangeDash (h : rangeDash s = some (true, t)) : t.rest ≠ [] := by
  obtain ⟨c, u, hc, h⟩ := bind_eq_some.mp h
  obtain ⟨hhead, rfl⟩ := peek_eq_some.mp hc
  obtain ⟨after, u, hafter, h⟩ := bind_eq_some.mp h
  cases hafter
  obtain ⟨-, rfl⟩ : _ ∧ s = t := by simpa using h
  exact List.ne_nil_of_mem (List.mem_of_mem_head? hhead)

/-- Neither end of a range is an anchor. -/
theorem rangeOf_anchor (first : Piece) (a : Anchor) (s : ParseState) :
    rangeOf first (.anchor a) s = none := by
  cases first <;> rfl

theorem beside_of_past (v : α) {u : ParseState} (ht : t.rest = closing) (h : Past 0 t u) :
    Beside v u := h.1.trans (by rw [ht])

theorem through_beside {v : α} (h : Through v t) : Beside v t :=
  h.trans (List.suffix_cons _ _)

theorem keeps_rangeFrom (first : Piece) (h : Ample s n m) :
    Keeps Beside s (rangeFrom first n) (rangeFrom first m) := by
  unfold rangeFrom
  refine keeps_skipBlanks.andThen fun _ t ht => ?_
  replace h := h.mono (takes_skipBlanks ht)
  refine keeps_rangeDash.bind (fun isRange u hu => .ite (fun hrange => ?_) fun _ => ?_) ?_
  · subst hrange
    obtain ⟨c, rest, hrest⟩ := List.exists_cons_of_ne_nil (rest_ne_nil_of_rangeDash hu)
    refine .advance hrest fun w hpast => ?_
    replace h := (h.mono (takes_rangeDash hu)).mono hpast
    refine (keeps_classItem h.weaken).bind (fun last _ _ => (keeps_rangeOf _ _).of_never) ?_
    rintro last t set u (hthrough | ⟨⟨a, rfl⟩, -⟩) hset
    · exact through_beside ((takes_rangeOf _ _ hset).1.trans hthrough)
    · rw [rangeOf_anchor] at hset
      cases hset
  · exact (keeps_soleItem _).of_never
  · rintro isRange t set u ⟨rfl, hbeside⟩ hset
    exact (takes_soleItem _ hset).1.trans hbeside

/-- An anchor stands alone before a brace, which it must not in a class. -/
theorem rangeFrom_of_atBrace {piece : Piece} {a : Anchor} {fuel : Nat} (h : AtBrace piece t) :
    rangeFrom (.anchor a) fuel t = none := by
  obtain ⟨text, hrest, -⟩ := h
  unfold rangeFrom
  rw [bind_apply, skipBlanks_apply, Option.bind_some, hrest,
    settle_cons (not_blank_of_isMeta (by decide)) (by decide)]
  have hdash : ∀ u : ParseState, u.rest.head? = some '\x7b' → rangeDash u = some (false, u) := by
    intro u hu
    unfold rangeDash
    rw [bind_apply, peek_apply, hu]
    rfl
  rw [bind_apply, hdash _ rfl]
  rfl

theorem keeps_classRange (h : Ample s (n + 1) (m + 1)) :
    Keeps Beside s (classRange n) (classRange m) := by
  unfold classRange
  refine (keeps_classItem h).bind (fun first t ht => ?_) ?_
  · exact keeps_rangeFrom first (h.step (takes_classItem n ht))
  · rintro first t set u (hthrough | ⟨⟨a, rfl⟩, hbrace⟩) hset
    · exact through_beside ((takes_rangeFrom _ _ hset).1.trans hthrough)
    · rw [rangeFrom_of_atBrace hbrace] at hset
      cases hset

theorem keeps_leadingDashes (items : Items) (h : Ample s n m) :
    Keeps Beside s (leadingDashes items n) (leadingDashes items m) := by
  induction n generalizing items s m with
  | zero => exact h.elim
  | succ n ih =>
    obtain ⟨m, rfl⟩ := h.exists_succ
    unfold leadingDashes
    refine .peek (fun c rest hrest => .ite (fun _ => ?_) fun _ => .pure _) fun t v u ht hu => ?_
    · exact .advance hrest fun _ hpast => ih _ (h.step hpast)
    · cases hu
      exact beside_of_past _ ht (.refl _)

theorem keeps_classStart (h : Ample s n m) : Keeps Beside s (classStart n) (classStart m) := by
  unfold classStart
  refine (keeps_leadingDashes {} h).thenTakes (fun items t _ => ?_) fun items =>
    takes_peek.andThen fun c =>
      .ite (takes_advance.andThen fun _ => takes_peek.andThen fun _ => .pure _) (.pure _)
  refine .peek (fun c rest hrest => .ite (fun _ => ?_) fun _ => .pure _) fun t v u ht hu => ?_
  · refine .advance hrest fun _ _ => ?_
    refine .peek (fun c rest hrest => .pure _) fun t v u ht hu => ?_
    cases hu
    exact beside_of_past _ ht (.refl _)
  · refine beside_of_past v ht (Takes.ite ?_ (.pure _) hu)
    exact takes_advance.andThen fun _ => takes_peek.andThen fun _ => .pure _

theorem keeps_classOpening (h : Ample s n m) :
    Keeps Beside s (classOpening n) (classOpening m) := by
  unfold classOpening
  refine keeps_skipBlanks.andThen fun _ t ht => ?_
  replace h := h.mono (takes_skipBlanks ht)
  refine .peek (fun c rest hrest => .ite (fun _ => ?_) fun _ => ?_) fun t v u ht hu => ?_
  · exact .advance hrest fun u hpast =>
      (keeps_classStart (h.mono hpast)).map fun _ _ => id
  · exact (keeps_classStart h).map fun _ _ => id
  · have hstart : Takes 0 (return (false, ← classStart m)) :=
      (takes_classStart m).andThen fun _ => .pure _
    exact beside_of_past v ht (hstart hu)

theorem asciiClassOf?_append (hmore : more = [] ∨ more = closing) (text : List Char) :
    asciiClassOf? (text ++ more) =
      (asciiClassOf? text).map fun found => (found.1, found.2.1, found.2.2 ++ more) := by
  unfold asciiClassOf?
  rw [behind?_append _ (by decide) hmore]
  cases behind? ['[', ':'] text with
  | none => rfl
  | some opened =>
    simp only [Option.map_some, Option.bind_eq_bind, Option.bind_some,
      behind?_append ['^'] (by decide) hmore]
    have hinner : ((behind? ['^'] opened).map (· ++ more)).getD (opened ++ more) =
        (behind? ['^'] opened).getD opened ++ more := by
      cases behind? ['^'] opened <;> rfl
    rw [hinner, Option.isSome_map]
    generalize (behind? ['^'] opened).getD opened = inner
    rcases cut_append ':' (by decide) hmore inner with ⟨-, hname, hrest⟩ | ⟨hnil, hnil'⟩
    · rw [hname, hrest, behind?_append _ (by decide) hmore]
      cases behind? [':', ']'] (inner.dropWhile fun c => c != ':') with
      | none => rfl
      | some rest => cases CharSet.named? _ <;> rfl
    · rw [hnil, hnil']
      rfl

theorem keeps_asciiClass? : Keeps Never s asciiClass? asciiClass? := by
  refine ⟨fun more hmore => ?_, takes_asciiClass?.stays⟩
  unfold asciiClass?
  rw [bind_apply, bind_apply, get_apply, get_apply, Option.bind_some, Option.bind_some, extend_rest,
    asciiClassOf?_append hmore]
  cases asciiClassOf? s.rest with
  | none => exact .ahead _ _
  | some found =>
    have hnegate : Keeps Never { s with rest := found.2.2 }
        (do return some (← negateIf s.flags found.1 (closeCase s.flags found.2.1)))
        (do return some (← negateIf s.flags found.1 (closeCase s.flags found.2.1))) :=
      (keeps_negateIf _ _ _).andThen fun _ _ _ => .pure _
    exact hnegate.follows hmore

theorem keeps_classRest (negated : Bool) (left : Option (Nested × SetOp)) (items : Items)
    (h : Ample s n m) :
    Keeps Through s (classRest negated left items n) (classRest negated left items m) := by
  induction n generalizing negated left items s m with
  | zero => exact h.elim
  | succ n ih =>
    obtain ⟨m, rfl⟩ := h.exists_succ
    have htakes (negated left items) : Takes 0 (classRest negated left items m) :=
      (takes_classRest _ _ _ _).mono (Nat.zero_le 1)
    have hend := takes_classRest negated left items (m + 1)
    unfold classRest at hend ⊢
    refine keeps_skipBlanks.andThen fun _ t ht => ?_
    replace h : Ample t (n + 1) (m + 1) := h.mono (takes_skipBlanks ht)
    refine .peek (fun c rest hrest => .ite (fun _ => ?_) fun _ => .ite (fun _ => ?_) fun _ => ?_)
      fun t v u ht hu => ?_
    · refine keeps_asciiClass?.andThen fun set u hu => ?_
      have hpast := past_of_asciiClass? hu
      cases set with
      | some set => exact ih _ _ _ (h.step hpast)
      | none =>
        obtain rfl : u = t := hpast
        refine .skip hrest fun v hpast => ?_
        replace h := h.step hpast
        refine (keeps_classOpening h).thenPasses (fun start w hw => ?_) fun start => ?_
        · replace h := h.mono (takes_classOpening _ hw)
          refine (ih _ _ _ h).thenTakes (fun inner x hx => ?_) fun inner => htakes _ _ _
          exact ih _ _ _ (h.mono (takes_classRest _ _ _ _ hx))
        · exact (takes_classRest _ _ _ m).andThen fun _ => htakes _ _ _
    · exact .skip hrest fun _ _ => .flags <|
        (keeps_negateIf _ _ _).andThen fun _ _ _ => .pure _
    · refine keeps_setOp?.andThen fun op u hu => ?_
      cases op with
      | some op => exact .flags (ih _ _ _ (h.step (past_of_setOp? hu)))
      | none =>
        replace h := h.mono (takes_setOp? hu)
        exact (keeps_classRange h).thenPasses
          (fun set v hv => ih _ _ _ (h.step (takes_classRange _ hv)))
          fun set => takes_classRest _ _ _ _
    · refine through_of_past v (by rw [ht]) (hend (v := v) ?_)
      rw [bind_apply, skipBlanks_apply, ht, settle_closing]
      obtain ⟨rest, flags, names⟩ := t
      subst ht
      exact hu

end Pattern

end Restyle
