-- SUMMARY: When a format between brackets means what it means alone.
import Restyle.Naming.Shadow
import Restyle.Proofs.Pattern.Enclosed
import Restyle.Proofs.Pattern.Matching

/-!
# Whole names

The format of names that may be hidden is put between brackets and anchors before it is read. Read
alone, a text is a pattern, or it cannot be read at all, or the reading stops before a parenthesis
that closes nothing. The three cases go on differently between the brackets: a pattern is the body
of the group, unless a comment at its end takes the closing parenthesis with it; a text that cannot
be read alone is refused; and a parenthesis too many closes the group early, so that the text behind
it is read on (`Pattern.readBehind?`). A pattern that gets through is matched against whole names
(`Pattern.isMatch_whole`). For which formats this is what the format alone stands for, says
`HiddenField.honoursFormat_iff`.
-/

namespace Restyle

namespace Pattern

open Parse

/-- A parenthesis behind a text closes: no comment of the text takes it. -/
def IsEnclosable (text : List Char) : Prop := ∃ p, read? (text ++ closing) = some (p, closing)

/-! ## Reading from the start -/

/-- The state at the start of a text. -/
def ParseState.start (text : List Char) : ParseState := { rest := text, flags := {}, names := [] }

theorem read?_eq (text : List Char) :
    read? text =
      (alternatives (3 * text.length + 3) (.start text)).map fun r => (r.1, r.2.rest) := rfl

theorem parse?_eq_some_iff {text : String} {p : Pattern} :
    parse? text = some p ↔ read? text.toList = some (p, []) ∧ p.isWithinLimits := by
  unfold parse?
  rcases read? text.toList with _ | ⟨q, _ | ⟨c, rest⟩⟩
  · simp
  · by_cases hlimits : q.isWithinLimits
    · simp only [hlimits, if_true, Option.some.injEq, Prod.mk.injEq, and_true]
      exact ⟨fun h => ⟨h, h ▸ hlimits⟩, fun h => h.1⟩
    · simp only [hlimits, Option.some.injEq, Prod.mk.injEq, and_true]
      exact ⟨fun h => by simp at h, fun h => absurd (h.1 ▸ h.2) hlimits⟩
  · simp

/-- A text is no pattern if something is left of it, or if it exceeds the limits. -/
theorem parse?_eq_none_iff {text : String} :
    parse? text = none ↔ ∀ p, read? text.toList = some (p, []) → ¬p.isWithinLimits := by
  simp only [Option.eq_none_iff_forall_ne_some, ne_eq, parse?_eq_some_iff, not_and]

/-- More fuel than is needed changes nothing. -/
theorem alternatives_fuel {s : ParseState} {n m : Nat} (h : Lasting 3 s n m) :
    alternatives m s = alternatives n s := by
  have hfollows := ((keeps_levels n m s).1 h).follows (.inl rfl)
  simpa only [extend_nil] using hfollows.eq_of_nil

theorem branch_fuel {s : ParseState} {n m : Nat} (h : Lasting 2 s n m)
    (done : List (Option Pattern)) : branch done m s = branch done n s := by
  have hfollows := ((keeps_levels n m s).2.1 done h).follows (.inl rfl)
  simpa only [extend_nil] using hfollows.eq_of_nil

/-- An alternative ends where the text does, or before another, or before a closing parenthesis. -/
theorem head?_of_branch {fuel : Nat} {done : List (Option Pattern)} {s t : ParseState} {p : Pattern}
    (h : branch done fuel s = some (p, t)) :
    t.rest.head? = none ∨ t.rest.head? = some ')' ∨ t.rest.head? = some '|' := by
  induction fuel generalizing done s with
  | zero => cases h
  | succ fuel ih =>
    unfold branch at h
    obtain ⟨_, s, -, h⟩ := bind_eq_some.mp h
    rw [bind_apply, peek?_apply, Option.bind_some] at h
    generalize hhead : s.rest.head? = head at h
    dsimp only at h
    split at h
    · cases h
      exact .inl hhead
    · cases h
      exact .inr (.inl hhead)
    · cases h
      exact .inr (.inr hhead)
    -- Behind a group, a class or anything else the alternative goes on.
    · obtain ⟨part, u, -, h⟩ := bind_eq_some.mp h
      exact ih h
    · obtain ⟨_, u, -, h⟩ := bind_eq_some.mp h
      obtain ⟨start, v, -, h⟩ := bind_eq_some.mp h
      obtain ⟨set, w, -, h⟩ := bind_eq_some.mp h
      exact ih h
    · obtain ⟨again, u, -, h⟩ := bind_eq_some.mp h
      match again, done, h with
      | some again, some last :: before, h => exact ih h
      | none, done, h =>
        obtain ⟨part, v, -, h⟩ := bind_eq_some.mp h
        exact ih h

/-- What is not read starts with a parenthesis that closes nothing. -/
theorem head?_of_alternatives {fuel : Nat} {s t : ParseState} {p : Pattern}
    (h : alternatives fuel s = some (p, t)) :
    t.rest.head? = none ∨ t.rest.head? = some ')' := by
  induction fuel generalizing s p with
  | zero => cases h
  | succ fuel ih =>
    unfold alternatives at h
    obtain ⟨first, u, hfirst, h⟩ := bind_eq_some.mp h
    obtain ⟨found, v, hfound, h⟩ := bind_eq_some.mp h
    cases found with
    | true =>
      obtain ⟨second, w, hsecond, h⟩ := bind_eq_some.mp h
      cases h
      exact ih hsecond
    | false =>
      cases h
      rcases accept_cases hfound with ⟨htrue, -⟩ | ⟨-, hbehind, rfl⟩
      · cases htrue
      · rcases head?_of_branch hfirst with hnone | hbracket | hbar
        · exact .inl hnone
        · exact .inr hbracket
        · obtain ⟨rest, hrest⟩ := List.head?_eq_some_iff.mp hbar
          simp [behind?, hrest] at hbehind

theorem read?_rest {text rest : List Char} {p : Pattern} (h : read? text = some (p, rest)) :
    rest = [] ∨ ∃ behind, rest = ')' :: behind := by
  rw [read?_eq] at h
  obtain ⟨⟨q, t⟩, ht, heq⟩ := Option.map_eq_some_iff.mp h
  cases heq
  rcases head?_of_alternatives ht with hnone | hbracket
  · exact .inl (List.head?_eq_none_iff.mp hnone)
  · exact .inr (List.head?_eq_some_iff.mp hbracket)

/-! ## A format between brackets -/

/-- The body of a group that does not capture is read with the modes around it. -/
theorem branch_plainGroup (done : List (Option Pattern)) (n : Nat) (text : List Char)
    (names : List String) :
    branch done (n + 3) ⟨'(' :: '?' :: ':' :: text, {}, names⟩ =
      (do
        let body ← alternatives (n + 1)
        ensure (← accept ")")
        setFlags {}
        branch (some (group false body) :: done) (n + 2) : Parse Pattern) ⟨text, {}, names⟩ := by
  have hgroup : group? (n + 2) ⟨'(' :: '?' :: ':' :: text, {}, names⟩ =
      (do
        let body ← alternatives (n + 1)
        ensure (← accept ")")
        setFlags {}
        return some (group false body) : Parse (Option Pattern)) ⟨text, {}, names⟩ := rfl
  have hbranch : branch done (n + 3) ⟨'(' :: '?' :: ':' :: text, {}, names⟩ =
      (group? (n + 2) ⟨'(' :: '?' :: ':' :: text, {}, names⟩).bind fun r =>
        branch (r.1 :: done) (n + 2) r.2 := rfl
  rw [hbranch, hgroup]
  simp only [bind_apply, Option.bind_assoc, pure_apply, Option.bind_some]

/-- The reading goes on behind the group that a format is put into. -/
def goOn (body : Pattern) (fuel : Nat) : Parse Pattern := do
  let first ← branch [some (group false body), some (.anchor .textStart)] (fuel + 1)
  if ← accept "|" then return either first (← alternatives (fuel + 3)) else return first

/-- The reading of a format between brackets, behind the body of the group. -/
def closeFormat (body : Pattern) (fuel : Nat) : Parse Pattern := do
  ensure (← accept ")")
  setFlags {}
  goOn body fuel

theorem goOn_fuel (body : Pattern) {s : ParseState} {n m : Nat} (h : Lasting 1 s n m) :
    goOn body m s = goOn body n s := by
  obtain ⟨halone, henclosed⟩ := h
  have hbranch := branch_fuel (s := s) (n := n + 1) (m := m + 1) ⟨by omega, by omega⟩
  unfold goOn
  rw [bind_apply, bind_apply, hbranch]
  refine Option.bind_congr fun r hr => ?_
  obtain ⟨first, t⟩ := r
  have hpast := takes_branch _ _ hr
  rw [bind_apply, bind_apply]
  refine Option.bind_congr fun r hr => ?_
  obtain ⟨found, u⟩ := r
  have hpast := hpast.trans (takes_accept _ hr)
  have hle := hpast.2
  have halternatives := alternatives_fuel (s := u) (n := n + 3) (m := m + 3) ⟨by omega, by omega⟩
  cases found with
  | false => rw [if_neg Bool.false_ne_true, if_neg Bool.false_ne_true]
  | true => rw [if_pos rfl, if_pos rfl, bind_apply, bind_apply, halternatives]

/-- A format between brackets is read through the format itself. -/
theorem alternatives_enclosed (text : List Char) (n : Nat) :
    alternatives (n + 5) (.start ('^' :: '(' :: '?' :: ':' :: text)) =
      (alternatives (n + 1) (.start text)).bind fun r => closeFormat r.1 (n + 1) r.2 := by
  have houter : alternatives (n + 5) = (do
      let first ← branch [] (n + 4)
      if ← accept "|" then return either first (← alternatives (n + 4)) else return first) := rfl
  have hstart : branch [] (n + 4) (.start ('^' :: '(' :: '?' :: ':' :: text)) =
      branch [some (.anchor .textStart)] (n + 3) (.start ('(' :: '?' :: ':' :: text)) := rfl
  rw [houter, bind_apply, hstart, ParseState.start, branch_plainGroup]
  simp only [closeFormat, goOn, bind_apply, Option.bind_assoc, ParseState.start]

theorem closeFormat_closing (body : Pattern) (fuel : Nat) (flags : Flags) (names : List String) :
    closeFormat body (fuel + 1) ⟨closing, flags, names⟩ =
      some (body.whole, { rest := [], flags := {}, names }) := rfl

/-- Where no bracket is left, the group does not end. -/
theorem closeFormat_eq_none {body : Pattern} {fuel : Nat} {s : ParseState}
    (h : s.rest.head? ≠ some ')') : closeFormat body fuel s = none := by
  have hbehind : behind? ")".toList s.rest = none := by
    unfold behind?
    rw [if_neg]
    intro hprefix
    obtain ⟨rest, hrest⟩ := List.isPrefixOf_iff_prefix.mp hprefix
    exact h (hrest ▸ rfl)
  unfold closeFormat
  rw [bind_apply, accept_apply, hbehind]
  rfl

/-- The text that is read for a format. -/
def enclosed (text : List Char) : List Char := '^' :: '(' :: '?' :: ':' :: (text ++ closing)

/-- The text between the brackets is read alone first, and side by side with what closes it. -/
theorem read?_enclosed (text : List Char) :
    ∃ r, Follows Through closing (alternatives (3 * text.length + 3) (.start text)) r ∧
      read? (text ++ closing) = r.map (fun r => (r.1, r.2.rest)) ∧
      read? (enclosed text) = (r.bind fun r =>
        closeFormat r.1 (3 * text.length + 17) r.2).map fun r => (r.1, r.2.rest) := by
  have hclosing : (text ++ closing).length = text.length + 2 := by simp [closing]
  have hlength : 3 * (enclosed text).length + 3 = (3 * text.length + 16) + 5 := by
    simp only [enclosed, List.length_cons, hclosing]
    omega
  have hfuel : alternatives (3 * text.length + 17) (.start (text ++ closing)) =
      alternatives (3 * (text ++ closing).length + 3) (.start (text ++ closing)) :=
    alternatives_fuel ⟨le_rfl, by simp only [ParseState.start]; omega⟩
  have hkeeps := ((keeps_levels (3 * text.length + 3) (3 * text.length + 17) (.start text)).1
    ⟨le_rfl, by simp only [ParseState.start]; omega⟩).follows (.inr rfl)
  exact ⟨_, hkeeps, by rw [read?_eq, ← hfuel]; rfl,
    by rw [read?_eq, hlength, enclosed, alternatives_enclosed]; rfl⟩

/-- A text that cannot be read alone cannot be read between brackets. -/
theorem read?_enclosed_eq_none {text : List Char} (h : read? text = none) :
    read? (enclosed text) = none := by
  obtain ⟨r, hfollows, -, hread⟩ := read?_enclosed text
  rw [read?_eq, Option.map_eq_none_iff] at h
  rw [h] at hfollows
  rw [hread]
  cases hfollows with
  | fails => rfl
  | @beyond p t _ hthrough =>
    have hhead : t.rest.head? ≠ some ')' := by
      rcases List.suffix_cons_iff.mp hthrough with heq | hnil
      · simp [heq]
      · simp [List.suffix_nil.mp hnil]
    rw [Option.bind_some, closeFormat_eq_none hhead, Option.map_none]

/-- Between brackets, a pattern is the body of a group unless the brackets go with a comment. -/
theorem read?_enclosed_iff {text rest : List Char} {p q : Pattern} (h : read? text = some (q, [])) :
    read? (enclosed text) = some (p, rest) ↔ IsEnclosable text ∧ p = q.whole ∧ rest = [] := by
  obtain ⟨r, hfollows, hclosing, hread⟩ := read?_enclosed text
  rw [read?_eq] at h
  obtain ⟨⟨q, t⟩, ht, heq⟩ := Option.map_eq_some_iff.mp h
  obtain ⟨rest', flags, names⟩ := t
  cases heq
  rw [ht] at hfollows
  rw [hread, IsEnclosable, hclosing]
  cases hfollows with
  | ahead _ _ =>
    simp only [ParseState.extend, List.nil_append, Option.bind_some, Option.map_some,
      closeFormat_closing]
    simp [eq_comm]
  | swallowed _ =>
    rw [Option.bind_some, closeFormat_eq_none (by simp)]
    simp [closing]

/-! ## A parenthesis too many -/

/-- The reading of a text stops before a parenthesis that closes nothing. Some groups that were read
    have names, and some text is behind the parenthesis. -/
def StopsAt (text : List Char) (p : Pattern) (names : List String) (behind : List Char) : Prop :=
  ∃ flags, alternatives (3 * text.length + 3) (.start text) =
    some (p, { rest := ')' :: behind, flags, names })

theorem exists_stopsAt_iff {text behind : List Char} {p : Pattern} :
    (∃ names, StopsAt text p names behind) ↔ read? text = some (p, ')' :: behind) := by
  rw [read?_eq, Option.map_eq_some_iff]
  constructor
  · rintro ⟨names, flags, h⟩
    exact ⟨_, h, rfl⟩
  · rintro ⟨⟨q, rest, flags, names⟩, h, heq⟩
    cases heq
    exact ⟨names, flags, h⟩

/-- What is made of the text behind a parenthesis that ends a group: repetitions of the group, more
    parts behind it, and other alternatives. No other group may have one of the names. -/
def readBehind? (body : Pattern) (names : List String) (text : List Char) :
    Option (Pattern × List Char) :=
  (goOn body (3 * text.length + 1) { rest := text, flags := {}, names }).map
    fun r => (r.1, r.2.rest)

/-- Between brackets, a parenthesis too many ends the group of the format, and the rest of the format
    is read behind it together with the closing bracket. -/
theorem read?_enclosed_of_stopsAt {text behind : List Char} {p : Pattern} {names : List String}
    (h : StopsAt text p names behind) :
    read? (enclosed text) = readBehind? p names (behind ++ closing) := by
  obtain ⟨flags, h⟩ := h
  obtain ⟨r, hfollows, -, hread⟩ := read?_enclosed text
  rw [h] at hfollows
  cases hfollows with
  | swallowed hend => cases hend
  | ahead _ _ =>
    have hlength : behind.length + 1 ≤ text.length := (takes_alternatives _ h).2
    have hfuel : goOn p (3 * text.length + 17) { rest := behind ++ closing, flags := {}, names } =
        goOn p (3 * (behind ++ closing).length + 1)
          { rest := behind ++ closing, flags := {}, names } :=
      goOn_fuel p ⟨le_rfl, by simp [closing]; omega⟩
    rw [hread, readBehind?, ← hfuel]
    rfl

/-! ## Formats as patterns -/

theorem wholeName?_eq_some_iff {format : String} {p : Pattern} :
    wholeName? format = some p ↔
      read? (enclosed format.toList) = some (p, []) ∧ p.isWithinLimits := by
  have htext : ("^(?:" ++ format ++ ")$").toList = enclosed format.toList := by
    simp [enclosed, closing]
  rw [wholeName?, parse?_eq_some_iff, htext]

theorem wholeName?_eq_none_iff {format : String} :
    wholeName? format = none ↔
      ∀ p, read? (enclosed format.toList) = some (p, []) → ¬p.isWithinLimits := by
  simp only [Option.eq_none_iff_forall_ne_some, ne_eq, wholeName?_eq_some_iff, not_and]

theorem wholeName?_eq_none {format : String} (h : read? format.toList = none) :
    wholeName? format = none := by
  rw [wholeName?_eq_none_iff, read?_enclosed_eq_none h]
  simp

theorem wholeName?_of_read? {format : String} {p q : Pattern}
    (h : read? format.toList = some (q, [])) :
    wholeName? format = some p ↔
      p = q.whole ∧ IsEnclosable format.toList ∧ q.whole.isWithinLimits := by
  rw [wholeName?_eq_some_iff, read?_enclosed_iff h]
  constructor
  · rintro ⟨⟨henclosable, rfl, -⟩, hlimits⟩
    exact ⟨rfl, henclosable, hlimits⟩
  · rintro ⟨rfl, henclosable, hlimits⟩
    exact ⟨⟨henclosable, rfl, rfl⟩, hlimits⟩

end Pattern

/-! ## Formats of names -/

namespace HiddenField

open Pattern

/-- What a format of names to ignore stands for: it is refused if it is no regular expression, and
    only then, and a name is ignored if the whole of it matches. -/
structure HonoursFormat (options : HiddenFieldOptions) (format : String) : Prop where
  refused : ofOptions { options with ignoreFormat := some format } =
    .error (.invalidPattern format) ↔ parse? format = none
  ignored : ∀ rule, ofOptions { options with ignoreFormat := some format } = .ok rule →
    ∀ name, rule.isIgnored name ↔ ∃ p, parse? format = some p ∧ p.MatchesWhole name

variable {options : HiddenFieldOptions} {format : String}

theorem ofOptions_eq_error_iff :
    ofOptions { options with ignoreFormat := some format } = .error (.invalidPattern format) ↔
      wholeName? format = none := by
  unfold ofOptions
  cases h : wholeName? format <;> simp [h]

theorem ofOptions_eq_ok {rule : HiddenField}
    (h : ofOptions { options with ignoreFormat := some format } = .ok rule) :
    ∃ p, wholeName? format = some p ∧ rule.ignore = some p := by
  unfold ofOptions at h
  cases hwhole : wholeName? format with
  | none => simp [hwhole] at h
  | some p =>
    simp only [hwhole, Except.ok.injEq] at h
    exact ⟨p, rfl, h ▸ rfl⟩

/-- A format that is a pattern is refused unless it can be put between brackets. -/
theorem eq_error_iff_of_read? {p : Pattern} (h : read? format.toList = some (p, [])) :
    ofOptions { options with ignoreFormat := some format } = .error (.invalidPattern format) ↔
      ¬(IsEnclosable format.toList ∧ p.whole.isWithinLimits) := by
  rw [ofOptions_eq_error_iff, Option.eq_none_iff_forall_ne_some]
  simp only [ne_eq, wholeName?_of_read? h]
  exact ⟨fun hnone hboth => hnone _ ⟨rfl, hboth⟩, fun hnot _ hsome => hnot hsome.2⟩

/-- Between the brackets, a format that is a pattern ignores the names that it matches. -/
theorem isIgnored_of_read? {p : Pattern} (h : read? format.toList = some (p, []))
    {rule : HiddenField} (hrule : ofOptions { options with ignoreFormat := some format } = .ok rule)
    (name : String) : rule.isIgnored name ↔ p.MatchesWhole name := by
  obtain ⟨q, hq, hignore⟩ := ofOptions_eq_ok hrule
  obtain ⟨rfl, -⟩ := (wholeName?_of_read? h).mp hq
  rw [isIgnored, hignore, Option.any_some, isMatch_whole]

theorem HonoursFormat.wholeName?_eq_none (h : HonoursFormat options format) :
    wholeName? format = none ↔ parse? format = none := ofOptions_eq_error_iff.symm.trans h.refused

theorem HonoursFormat.of_refused (hparse : parse? format = none)
    (hwhole : wholeName? format = none) : HonoursFormat options format where
  refused := iff_of_true (ofOptions_eq_error_iff.mpr hwhole) hparse
  ignored rule hrule := by
    rw [ofOptions_eq_error_iff.mpr hwhole] at hrule
    cases hrule

/-- A format means what it should unless its closing bracket goes with a comment, the brackets make
    it exceed the limits, or a closing parenthesis too many ends the group early and what is behind
    it, with the closing bracket, makes up for it. -/
theorem honoursFormat_iff (options : HiddenFieldOptions) (format : String) :
    HonoursFormat options format ↔
      (∀ p, read? format.toList = some (p, []) →
        (p.isWithinLimits ↔ IsEnclosable format.toList ∧ p.whole.isWithinLimits)) ∧
      ∀ p names behind, StopsAt format.toList p names behind →
        ∀ q, readBehind? p names (behind ++ closing) = some (q, []) → ¬q.isWithinLimits := by
  constructor
  · refine fun h => ⟨fun p hp => ?_, fun p names behind hstops => ?_⟩
    · rw [← not_iff_not, ← eq_error_iff_of_read? hp, h.refused, parse?_eq_none_iff, hp]
      simp
    · have hread := exists_stopsAt_iff.mp ⟨names, hstops⟩
      have hwhole := h.wholeName?_eq_none.mpr (parse?_eq_none_iff.mpr (by simp [hread]))
      rwa [wholeName?_eq_none_iff, read?_enclosed_of_stopsAt hstops] at hwhole
  · rintro ⟨hpattern, hstray⟩
    rcases hread : read? format.toList with _ | ⟨p, rest⟩
    · exact .of_refused (parse?_eq_none_iff.mpr (by simp [hread])) (wholeName?_eq_none hread)
    rcases read?_rest hread with rfl | ⟨rest, rfl⟩
    · have hlimits := hpattern p hread
      refine ⟨?_, fun rule hrule name => ?_⟩
      · rw [eq_error_iff_of_read? hread, ← hlimits, parse?_eq_none_iff, hread]
        simp
      · obtain ⟨q, hq, -⟩ := ofOptions_eq_ok hrule
        have hwithin := hlimits.mpr ((wholeName?_of_read? hread).mp hq).2
        simp [isIgnored_of_read? hread hrule, parse?_eq_some_iff, hread, hwithin]
    · obtain ⟨names, hstops⟩ := exists_stopsAt_iff.mpr hread
      refine .of_refused (parse?_eq_none_iff.mpr (by simp [hread])) ?_
      rw [wholeName?_eq_none_iff, read?_enclosed_of_stopsAt hstops]
      exact hstray p names rest hstops

/-- A format that is no pattern may become one between the brackets, when it closes the first and
    opens the last, and a comment may take the brackets with it. -/
theorem not_honoursFormat :
    ¬HonoursFormat .default "a)|(b" ∧ ¬HonoursFormat .default "(?x)a # b" := by
  constructor
  · intro h
    have hparse : (parse? "a)|(b").isNone := by decide +kernel
    have hwhole : (wholeName? "a)|(b").isSome := by decide +kernel
    rw [h.wholeName?_eq_none.mpr (Option.isNone_iff_eq_none.mp hparse)] at hwhole
    cases hwhole
  · intro h
    have hparse : (parse? "(?x)a # b").isSome := by decide +kernel
    have hwhole : (wholeName? "(?x)a # b").isNone := by decide +kernel
    rw [h.wholeName?_eq_none.mp (Option.isNone_iff_eq_none.mp hwhole)] at hparse
    cases hparse

end HiddenField

end Restyle
