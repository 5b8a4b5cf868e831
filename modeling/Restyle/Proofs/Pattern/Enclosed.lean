-- SUMMARY: Reading a pattern alone and with brackets closed behind it.
import Restyle.Proofs.Pattern.EnclosedClass

/-!
# Enclosed patterns

A pattern is read alike alone and with brackets closed behind it, up to where it ends, with whatever
fuel lasts for both (`keeps_levels`). Where the pattern alone ends too early, the longer text may go
on; but then the closing bracket is taken for a part of the pattern, and none is left to close the
group.
-/

namespace Restyle

namespace Pattern

open Parse

variable {α : Type} {n m : Nat} {s t : ParseState} {more : List Char}

/-! ## Groups and repetitions -/

theorem keeps_flagItems (f : Flags) (seen : List Char) (h : Ample s n m) :
    Keeps Through s (flagItems f seen n) (flagItems f seen m) := by
  induction n generalizing f seen s m with
  | zero => exact h.elim
  | succ n ih =>
    obtain ⟨m, rfl⟩ := h.exists_succ
    unfold flagItems
    refine keeps_next.thenTakes (fun c t ht => .ite (fun _ => ?_) fun _ => ?_) fun c => .ite ?_ ?_
    · exact .ensure fun _ => .pure _
    · replace h := h.step (takes_next ht)
      refine .ensure fun _ => .ite (fun _ => ih _ _ h) fun _ => ?_
      split
      · exact ih _ _ h
      · exact .fail
    · exact (takes_ensure _).andThen fun _ => .pure _
    · refine (takes_ensure _).andThen fun _ => .ite (takes_flagItems _ _ _) ?_
      split
      · exact takes_flagItems _ _ _
      · exact .fail

theorem keeps_groupName : Keeps Never s groupName groupName := by
  refine ⟨fun more hmore => ?_, takes_groupName.stays⟩
  unfold groupName
  rw [bind_apply, bind_apply, get_apply, get_apply, Option.bind_some, Option.bind_some, extend_rest]
  dsimp only
  rcases cut_append '>' (by decide) hmore s.rest with ⟨hne, hname, hrest⟩ | ⟨hnil, hnil'⟩
  · rw [hname, hrest]
    obtain ⟨c, rest, hbehind⟩ := List.exists_cons_of_ne_nil hne
    rw [hbehind]
    simp only [List.cons_append, extend_names, bind_apply, ensure_apply]
    split
    · exact .ahead () { s with
        rest, names := String.ofList (s.rest.takeWhile fun c => c != '>') :: s.names }
    · exact .fails
  · rw [hnil, hnil']
    exact .fails

theorem keeps_decimalDigits (value : Option Nat) (h : Ample s n m) :
    Keeps Never s (decimalDigits value n) (decimalDigits value m) := by
  induction n generalizing value s m with
  | zero => exact h.elim
  | succ n ih =>
    obtain ⟨m, rfl⟩ := h.exists_succ
    unfold decimalDigits
    refine .peek? (fun c rest hrest => .ite (fun _ => ?_) fun _ => .pure _) (fun _ => .pure _)
      fun _ => .ahead _ _
    exact .advance hrest fun _ hpast => ih _ (h.step hpast)

theorem skipSpaces_apply (s : ParseState) : skipSpaces s =
    some ((), { s with rest := s.rest.dropWhile NamedClass.blank.contains }) := rfl

theorem keeps_skipSpaces : Keeps Never s skipSpaces skipSpaces := by
  refine ⟨fun more hmore => ?_, takes_skipSpaces.stays⟩
  have hskip : skipSpaces (s.extend more) =
      some ((), { s with rest := s.rest.dropWhile NamedClass.blank.contains }.extend more) := by
    simp only [skipSpaces_apply, extend_rest, dropWhile_blank_append hmore]
    rfl
  rw [hskip]
  exact .ahead _ _

theorem keeps_decimal? (h : Ample s n m) : Keeps Never s (decimal? n) (decimal? m) :=
  keeps_skipSpaces.andThen fun _ _ ht =>
    (keeps_decimalDigits _ (h.mono (takes_skipSpaces ht))).andThen fun _ _ _ =>
      keeps_skipSpaces.andThen fun _ _ _ => .ensure fun _ => .pure _

theorem keeps_decimal (h : Ample s n m) : Keeps Never s (decimal n) (decimal m) := by
  refine (keeps_decimal? h).andThen fun value _ _ => ?_
  cases value
  · exact .fail
  · exact .pure _

/-- A closing bracket is no number. -/
theorem decimal_of_closing (fuel : Nat) (h : s.rest = closing) : decimal fuel s = none := by
  obtain ⟨rest, flags, names⟩ := s
  subst h
  have hblank : NamedClass.blank.contains ')' = false := not_blank_of_isMeta (by decide)
  have hskip : skipSpaces ⟨closing, flags, names⟩ = some ((), ⟨closing, flags, names⟩) := by
    simp [skipSpaces_apply, closing, hblank]
  unfold decimal decimal?
  cases fuel with
  | zero =>
    rw [bind_apply, bind_apply, hskip]
    rfl
  | succ fuel =>
    have hdigits : decimalDigits none (fuel + 1) ⟨closing, flags, names⟩ =
        some (none, ⟨closing, flags, names⟩) := rfl
    simp only [bind_apply, hskip, hdigits, Option.bind_some]
    rfl

theorem keeps_counts (h : Ample s n m) : Keeps Never s (counts n) (counts m) := by
  unfold counts
  refine keeps_skipBlanks.andThen fun _ t ht => ?_
  replace h := h.mono (takes_skipBlanks ht)
  refine (keeps_decimal h).andThen fun least u hu => ?_
  replace h := h.mono (takes_decimal _ hu)
  extract_lets last
  have hlast : ∀ bounds {s}, Keeps Never s (last bounds) (last bounds) := fun bounds s =>
    .peek (fun c rest hrest => .ensure fun _ => .ensure fun _ =>
      .advance hrest fun _ _ => .pure _) fun t v u ht h => by cases h
  have hclosed : ∀ bounds {t}, t.rest = closing → last bounds t = none := fun bounds t ht => by
    unfold last
    rw [bind_apply, peek_apply, ht]
    rfl
  refine .peek (fun c rest hrest => .ite (fun _ => ?_) fun _ => hlast _) fun t v u ht h => ?_
  · refine .advance hrest fun v hpast => ?_
    replace h := h.mono hpast
    refine .peek (fun c rest hrest => .ite (fun _ => hlast _) fun _ => ?_) fun t v u ht h => ?_
    · exact (keeps_decimal h).andThen fun _ _ _ => hlast _
    · rw [if_neg (by decide), bind_apply, decimal_of_closing m ht] at h
      cases h
  · have hnone := (hclosed (least, some least) ht).symm.trans h
    cases hnone

theorem keeps_bounds? (h : Ample s (n + 1) (m + 1)) : Keeps Never s (bounds? n) (bounds? m) := by
  unfold bounds?
  refine .peek? (fun c rest hrest => ?_) (fun _ => .pure _) fun _ => .ahead _ _
  split
  iterate 3 exact .skip hrest fun _ _ => .pure _
  · exact .skip hrest fun t hpast => (keeps_counts (h.step hpast)).andThen fun _ _ _ => .pure _
  · exact .pure _

theorem keeps_repetition? (h : Ample s (n + 1) (m + 1)) :
    Keeps Never s (repetition? n) (repetition? m) := by
  unfold repetition?
  refine (keeps_bounds? h).andThen fun bounds t _ => ?_
  cases bounds with
  | none => exact .pure _
  | some bounds => exact (keeps_accept (by decide)).andThen fun _ _ _ => .flags (.pure _)

/-- A brace that stands for itself starts no repetition. -/
theorem repetition?_of_atBrace {v : α} (fuel : Nat) (h : AtBrace v t) :
    repetition? fuel t = none := by
  obtain ⟨text, hrest, hsettle⟩ := h
  have hcounts : counts fuel { t with rest := text } = none := by
    unfold counts
    rw [bind_apply, skipBlanks_apply, Option.bind_some, bind_apply]
    simp only [hsettle]
    rw [decimal_of_closing fuel rfl]
    rfl
  have hbounds : bounds? fuel t = none := by
    unfold bounds?
    rw [bind_apply, peek?_apply, hrest, Option.bind_some]
    simp only [List.head?_cons, bind_apply, skip_apply, hrest, Option.bind_some,
      List.drop_succ_cons, List.drop_zero, hcounts, Option.bind_none]
  unfold repetition?
  rw [bind_apply, hbounds]
  rfl

theorem branch_of_atBrace {v : α} (done : List (Option Pattern)) (fuel : Nat)
    (h : AtBrace v t) : branch done fuel t = none := by
  cases fuel with
  | zero => rfl
  | succ fuel =>
    have hrepetition := repetition?_of_atBrace fuel h
    obtain ⟨text, hrest, -⟩ := h
    obtain ⟨rest, flags, names⟩ := t
    subst hrest
    unfold branch
    rw [bind_apply, skipBlanks_apply, settle_cons (not_blank_of_isMeta (by decide)) (by decide),
      Option.bind_some, bind_apply, peek?_apply, Option.bind_some]
    change (repetition? fuel >>= _) _ = none
    rw [bind_apply, hrepetition]
    rfl

/-- What is over behind a primitive: nothing, unless a brace that starts no repetition. -/
def PrimitiveOver (p : Pattern) (t : ParseState) : Prop := Through p t ∨ AtBrace p t

theorem keeps_ofPiece (piece : Piece) : Keeps Never s (ofPiece piece) (ofPiece piece) := by
  cases piece with
  | char c => exact keeps_literal c
  | set s => exact .pure _
  | anchor a => exact .pure _

theorem keeps_primitiveFrom (c : Char) (h : Ample s n m) :
    Keeps PrimitiveOver s (primitiveFrom c n) (primitiveFrom c m) := by
  unfold primitiveFrom
  refine .flags ?_
  split
  · refine (keeps_escape h).bind (fun piece _ _ => (keeps_ofPiece piece).of_never) ?_
    rintro piece t p u (hthrough | ⟨⟨a, rfl⟩, hbrace⟩) hu
    · exact .inl ((takes_ofPiece piece hu).1.trans hthrough)
    · cases hu
      exact .inr hbrace
  · exact .ensure fun _ => .ite (fun _ => .pure _) fun _ => .ite (fun _ => .pure _) fun _ => .pure _
  · exact .pure _
  · exact .pure _
  · exact (keeps_literal _).of_never

theorem keeps_primitive (h : Ample s (n + 1) (m + 1)) :
    Keeps PrimitiveOver s (primitive n) (primitive m) :=
  keeps_next.bind (fun c _ ht => keeps_primitiveFrom c (h.step (takes_next ht)))
    fun c _ _ _ ht hu => .inl ((takes_primitiveFrom c m hu).1.trans ht)

theorem keeps_looksAround : Keeps Never s looksAround looksAround := by
  refine ⟨fun more hmore => ?_, takes_looksAround.stays⟩
  have hsame : ∀ start ∈ ["?=", "?!", "?<=", "?<!"],
      start.toList.isPrefixOf (s.rest ++ more) = start.toList.isPrefixOf s.rest := by
    intro start hstart
    have hbracket : ∀ start ∈ ["?=", "?!", "?<=", "?<!"], ')' ∉ start.toList := by decide
    rcases hmore with rfl | rfl
    · rw [List.append_nil]
    · exact isPrefixOf_append_closing (hbracket start hstart)
  unfold looksAround
  rw [bind_apply, bind_apply, get_apply, get_apply, Option.bind_some, Option.bind_some, extend_rest]
  have hany : (["?=", "?!", "?<=", "?<!"].any fun start =>
      start.toList.isPrefixOf (s.rest ++ more)) =
        ["?=", "?!", "?<=", "?<!"].any fun start => start.toList.isPrefixOf s.rest := by
    rw [Bool.eq_iff_iff, List.any_eq_true, List.any_eq_true]
    exact exists_congr fun start => and_congr_right fun hstart => by rw [hsame start hstart]
  dsimp only
  rw [hany]
  exact .ahead _ _

theorem keeps_groupOpening (outer : Flags) (h : Ample s n m) :
    Keeps Through s (groupOpening outer n) (groupOpening outer m) := by
  unfold groupOpening
  refine (keeps_accept (by decide)).andThen fun _ t ht => ?_
  refine (keeps_accept (by decide)).andThen fun _ u hu => .ite (fun _ => ?_) fun _ => ?_
  · exact keeps_groupName.andThen fun _ _ _ => .pure _
  · refine (keeps_accept (by decide)).andThen fun _ v hv => .ite (fun _ => ?_) fun _ => .pure _
    replace h := ((h.mono (takes_accept _ ht)).mono (takes_accept _ hu)).mono (takes_accept _ hv)
    refine (keeps_flagItems _ _ h).thenTakes (fun items _ _ => .ensure fun _ => ?_) fun items => ?_
    · exact (keeps_setFlags _).andThen fun _ _ _ => .pure _
    · exact (takes_ensure _).andThen fun _ => (takes_setFlags _).andThen fun _ => .pure _

/-- A bracket that closes a group is the one behind the text if the text has none. -/
theorem keeps_closingBracket {x x' : Parse α} (hx : ∀ t, Keeps Through t x x')
    (htakes : Takes 0 x') :
    Keeps Through s (do ensure (← accept ")"); x) (do ensure (← accept ")"); x') := by
  refine ⟨fun more hmore => ?_, fun hend v t hv => ?_⟩
  · rw [bind_apply, bind_apply, accept_apply, accept_apply, extend_rest]
    cases hrest : s.rest with
    | nil =>
      rcases hmore with rfl | rfl
      · exact .fails
      · refine .of_beyond rfl fun v t h => ?_
        exact (htakes h).1
    | cons c rest =>
      by_cases hc : c = ')'
      · subst hc
        exact (hx { s with rest }).follows hmore
      · have hbehind : ∀ text : List Char, behind? ")".toList (c :: text) = none := fun text => by
          simp [behind?, Ne.symm hc]
        rw [List.cons_append, hbehind, hbehind]
        exact .fails
  · rw [bind_apply, accept_apply, hend] at hv
    cases hv

/-- Fuel that lasts for groups within groups. -/
structure Lasting (k : Nat) (s : ParseState) (n m : Nat) : Prop where
  alone : 3 * s.rest.length + k ≤ n
  enclosed : 3 * (s.rest.length + 2) + k ≤ m

variable {k : Nat}

theorem Lasting.mono {l : Nat} (h : Lasting k s n m) (hpast : Past l s t) : Lasting k t n m :=
  ⟨by have := h.1; have := hpast.2; omega, by have := h.2; have := hpast.2; omega⟩

/-- One level deeper there is less fuel. -/
theorem Lasting.deeper (h : Lasting (k + 1) s (n + 1) (m + 1)) : Lasting k s n m :=
  ⟨by have := h.1; omega, by have := h.2; omega⟩

/-- A character that is taken makes room for the levels. -/
theorem Lasting.step (h : Lasting k s (n + 1) (m + 1)) (hpast : Past 1 s t) :
    Lasting (k + 2) t n m :=
  ⟨by have := h.1; have := hpast.2; omega, by have := h.2; have := hpast.2; omega⟩

theorem Lasting.lower (h : Lasting (k + 1) s n m) : Lasting k s n m :=
  ⟨by have := h.1; omega, by have := h.2; omega⟩

theorem Lasting.ample (h : Lasting (k + 1) s n m) : Ample s n m :=
  ⟨by have := h.1; omega, by have := h.2; omega⟩

/-- Up to the end of the text, the three levels of a pattern are read alike. -/
theorem keeps_levels (n : Nat) : ∀ m s,
    (Lasting 3 s n m → Keeps Through s (alternatives n) (alternatives m)) ∧
      (∀ done, Lasting 2 s n m → Keeps Through s (branch done n) (branch done m)) ∧
      (s.rest ≠ [] → Lasting 1 s n m → Keeps Through s (group? n) (group? m)) := by
  induction n with
  | zero => exact fun m s => ⟨fun h => absurd h.1 (by omega), fun _ h => absurd h.1 (by omega),
      fun _ h => absurd h.1 (by omega)⟩
  | succ n ih =>
    intro m s
    cases m with
    | zero => exact ⟨fun h => absurd h.2 (by omega), fun _ h => absurd h.2 (by omega),
        fun _ h => absurd h.2 (by omega)⟩
    | succ m =>
      have halternatives {t} := (ih m t).1
      have hbranch {t} := (ih m t).2.1
      have hgroup {t} := (ih m t).2.2
      refine ⟨fun h => ?_, fun done h => ?_, fun hne h => ?_⟩
      · unfold alternatives
        refine (hbranch _ h.deeper).thenTakes (fun first t ht => ?_) fun first =>
          (takes_accept _).andThen fun _ =>
            .ite ((takes_alternatives m).andThen fun _ => .pure _) (.pure _)
        refine (keeps_accept (by decide)).andThen fun found u hu =>
          .ite (fun hfound => ?_) fun _ => .pure _
        subst hfound
        have hpast := (takes_branch _ _ ht).trans (past_of_accept hu)
        exact (halternatives (h.step (hpast.mono (by decide))).lower.lower).thenTakes
          (fun _ _ _ => .pure _) fun _ => .pure _
      · unfold branch
        refine keeps_skipBlanks.andThen fun _ t ht => ?_
        replace h := h.mono (takes_skipBlanks ht)
        refine .peek? (fun c rest hrest => ?_) (fun _ => .pure _) fun _ => .ahead _ _
        have hne : t.rest ≠ [] := by simp [hrest]
        split
        iterate 3 exact .pure _
        · refine (hgroup hne h.deeper).thenTakes (fun part u hu => ?_) fun part =>
            takes_branch _ m
          exact hbranch _ (h.step ((past_of_group? hu).mono (by simp [hrest]))).lower.lower
        · refine .skip hrest fun u hpast => ?_
          replace h := (h.step hpast).lower.lower
          refine (keeps_classOpening h.ample).thenPasses (fun start v hv => ?_) fun start =>
            (takes_classRest _ _ _ m).andThen fun _ => takes_branch _ m
          replace h := h.mono (takes_classOpening _ hv)
          refine (keeps_classRest _ _ _ h.ample).thenTakes (fun set w hw => ?_) fun set =>
            takes_branch _ m
          exact hbranch _ (h.mono (takes_classRest _ _ _ _ hw))
        · refine (keeps_repetition? h.ample).andThen fun again u hu => ?_
          split
          · exact hbranch _ (h.step (past_of_repetition? hu)).lower.lower
          · exact .fail
          · replace h := h.mono (takes_repetition? _ hu)
            refine (keeps_primitive h.ample).bind (fun part v hv => ?_) ?_
            · exact hbranch _ (h.step (takes_primitive _ hv)).lower.lower
            · rintro part v p w (hthrough | hbrace) hw
              · exact (takes_branch _ m hw).1.trans hthrough
              · rw [branch_of_atBrace _ _ hbrace] at hw
                cases hw
      · unfold group?
        obtain ⟨c, rest, hrest⟩ := List.exists_cons_of_ne_nil hne
        refine .advance hrest fun t hpast => ?_
        replace h := h.step hpast
        refine keeps_looksAround.andThen fun around u hu => .ensure fun _ => .flags ?_
        replace h := h.mono (takes_looksAround hu)
        refine (keeps_groupOpening _ h.ample).thenTakes (fun captures v hv => ?_) fun captures => ?_
        · cases captures with
          | none => exact .pure _
          | some captures =>
            refine (halternatives (h.mono (takes_groupOpening _ _ hv))).thenTakes
              (fun body _ _ => keeps_closingBracket (fun w => ?_) ?_) fun body => ?_
            · exact (keeps_setFlags _).andThen fun _ _ _ => .pure _
            · exact (takes_setFlags _).andThen fun _ => .pure _
            · exact (takes_accept _).andThen fun _ => (takes_ensure _).andThen fun _ =>
                (takes_setFlags _).andThen fun _ => .pure _
        · cases captures with
          | none => exact .pure _
          | some captures =>
            exact (takes_alternatives m).andThen fun _ => (takes_accept _).andThen fun _ =>
              (takes_ensure _).andThen fun _ => (takes_setFlags _).andThen fun _ => .pure _

end Pattern

end Restyle
