-- SUMMARY: Reading a text alone and with brackets closed behind it.
import Restyle.Proofs.Pattern.Progress

/-!
# Two texts side by side

A pattern that is put between brackets is read from a longer text: the brackets close behind it.
Two runs of a parser, on the text alone and on the longer one, are followed side by side
(`Follows`). They are alike (`Keeps`) with two exceptions. A comment at the end of the text goes on
to the end of the line and takes the brackets with it. And where the text alone ends too early, the
longer one may go on; then it matters how much of the brackets is gone, which each parser says for
itself.
-/

namespace Restyle

namespace Pattern

/-- What closes the brackets around a format. -/
def closing : List Char := [')', '$']

/-- A state with more text behind what is left. -/
def ParseState.extend (s : ParseState) (more : List Char) : ParseState :=
  { s with rest := s.rest ++ more }

namespace Parse

variable {α β : Type} {m n : Nat} {s t : ParseState} {more : List Char}

/-! ## Two texts side by side -/

/-- What becomes of a text alone and with more behind it. `Over` holds of what the longer text gives
    if the text alone ends too early. -/
inductive Follows (Over : α → ParseState → Prop) (more : List Char) :
    Option (α × ParseState) → Option (α × ParseState) → Prop
  | fails : Follows Over more none none
  /-- Only the longer text can be read. -/
  | beyond {v t} (hmore : more = closing) (h : Over v t) : Follows Over more none (some (v, t))
  /-- Both are read alike, and what is behind the text is left. -/
  | ahead (v t) : Follows Over more (some (v, t)) (some (v, t.extend more))
  /-- Both are read to the end, where what is behind the text went with a comment. -/
  | swallowed {v t} (hend : t.rest = []) : Follows Over more (some (v, t)) (some (v, t))

/-- Nothing is read that the text alone does not have. -/
def Never (_ : α) (_ : ParseState) : Prop := False

/-- Nothing is left but the end of a given text. -/
def Within (left : List Char) (_ : α) (t : ParseState) : Prop := t.rest <:+ left

/-- The closing bracket has been taken. -/
abbrev Through : α → ParseState → Prop := Within ['$']

/-- The text has been taken up to the closing bracket, or that too. -/
abbrev Beside : α → ParseState → Prop := Within closing

/-- Two parsers, which may have different fuel, read a text alone and a longer one alike. The first
    one leaves nothing where nothing was left. -/
structure Keeps (Over : α → ParseState → Prop) (s : ParseState) (x x' : Parse α) : Prop where
  follows : ∀ ⦃more⦄, more = [] ∨ more = closing → Follows Over more (x s) (x' (s.extend more))
  stays : s.rest = [] → ∀ v t, x s = some (v, t) → t.rest = []

@[simp] theorem extend_rest : (s.extend more).rest = s.rest ++ more := rfl

@[simp] theorem extend_flags : (s.extend more).flags = s.flags := rfl

@[simp] theorem extend_names : (s.extend more).names = s.names := rfl

@[simp] theorem extend_nil : s.extend [] = s := by simp [ParseState.extend]

variable {P Q : α → ParseState → Prop}

/-- Taking a character from the closing bracket on takes the bracket. -/
theorem through_of_past {u : ParseState} (v : α) (ht : t.rest <:+ closing) (h : Past 1 t u) :
    Through v u := by
  rcases List.suffix_cons_iff.mp (h.1.trans ht) with heq | hthrough
  · have hle : t.rest.length ≤ closing.length := ht.length_le
    have hlt := h.2
    rw [heq] at hlt
    simp [closing] at hle hlt
    omega
  · exact hthrough

theorem Follows.mono {r r' : Option (α × ParseState)} (h : Follows P more r r')
    (hPQ : ∀ v t, P v t → Q v t) : Follows Q more r r' := by
  cases h with
  | fails => exact .fails
  | beyond hmore h => exact .beyond hmore (hPQ _ _ h)
  | ahead v t => exact .ahead v t
  | swallowed hend => exact .swallowed hend

/-- With nothing behind the text, both runs agree. -/
theorem Follows.eq_of_nil {r r' : Option (α × ParseState)} (h : Follows P [] r r') : r' = r := by
  cases h with
  | fails => rfl
  | beyond hmore => cases hmore
  | ahead v t => rw [extend_nil]
  | swallowed hend => rfl

/-- Once what is behind the text is gone, both runs agree. -/
theorem Follows.swallow {r r' : Option (α × ParseState)} (h : Follows P [] r r')
    (hend : ∀ v t, r = some (v, t) → t.rest = []) : Follows P more r r' := by
  rw [h.eq_of_nil]
  cases r with
  | none => exact .fails
  | some r => exact .swallowed (hend _ _ rfl)

/-- Without the text alone, the longer text only has to end where it may. -/
theorem Follows.of_beyond {r : Option (α × ParseState)} (hmore : more = closing)
    (h : ∀ v t, r = some (v, t) → P v t) : Follows P more none r := by
  cases r with
  | none => exact .fails
  | some r => exact .beyond hmore (h _ _ rfl)

theorem Takes.stays {x : Parse α} (h : Takes n x) (hs : s.rest = []) (v : α) (t : ParseState)
    (hx : x s = some (v, t)) : t.rest = [] := List.suffix_nil.mp (hs ▸ (h hx).1)

namespace Keeps

theorem mono {x x' : Parse α} (h : Keeps P s x x') (hPQ : ∀ v t, P v t → Q v t) :
    Keeps Q s x x' := ⟨fun _ hmore => (h.follows hmore).mono hPQ, h.stays⟩

theorem of_never {x x' : Parse α} (h : Keeps Never s x x') : Keeps P s x x' :=
  h.mono fun _ _ => False.elim

theorem pure (v : α) : Keeps P s (Pure.pure v) (Pure.pure v) :=
  ⟨fun _ _ => .ahead v s, (Takes.pure v).stays⟩

theorem fail : Keeps P s (Parse.fail : Parse α) Parse.fail :=
  ⟨fun _ _ => .fails, (Takes.fail (n := 0)).stays⟩

theorem ite {c : Prop} [Decidable c] {x x' y y' : Parse α} (hx : c → Keeps P s x x')
    (hy : ¬c → Keeps P s y y') : Keeps P s (if c then x else y) (if c then x' else y') := by
  split
  · exact hx ‹_›
  · exact hy ‹_›

theorem bind {x x' : Parse α} {f f' : α → Parse β} {Q : β → ParseState → Prop}
    (hx : Keeps P s x x') (hf : ∀ v t, x s = some (v, t) → Keeps Q t (f v) (f' v))
    (hover : ∀ v t w u, P v t → f' v t = some (w, u) → Q w u) :
    Keeps Q s (x >>= f) (x' >>= f') := by
  refine ⟨fun more hmore => ?_, fun hend w u hw => ?_⟩
  · rw [bind_apply, bind_apply]
    have hfollows := hx.follows hmore
    generalize x s = r, x' (s.extend more) = r' at hf hfollows
    cases hfollows with
    | fails => exact .fails
    | beyond hmore h => exact .of_beyond hmore fun w u hw => hover _ _ _ _ h hw
    | ahead v t => exact (hf v t rfl).follows hmore
    | @swallowed v t hend =>
      have hnil := (hf v t rfl).follows (.inl rfl)
      rw [extend_nil] at hnil
      exact hnil.swallow ((hf v t rfl).stays hend)
  · obtain ⟨v, t, hv, hw⟩ := bind_eq_some.mp hw
    exact (hf v t hv).stays (hx.stays hend v t hv) w u hw

/-- A parser that reads nothing beyond the text, and another. -/
theorem andThen {x x' : Parse α} {f f' : α → Parse β} {Q : β → ParseState → Prop}
    (hx : Keeps Never s x x') (hf : ∀ v t, x s = some (v, t) → Keeps Q t (f v) (f' v)) :
    Keeps Q s (x >>= f) (x' >>= f') := hx.bind hf fun _ _ _ _ => False.elim

/-- What follows gives nothing back. -/
theorem thenTakes {left : List Char} {x x' : Parse α} {f f' : α → Parse β}
    (hx : Keeps (Within left) s x x')
    (hf : ∀ v t, x s = some (v, t) → Keeps (Within left) t (f v) (f' v))
    (htakes : ∀ v, Takes 0 (f' v)) : Keeps (Within left) s (x >>= f) (x' >>= f') :=
  hx.bind hf fun v _ _ _ h hf => (htakes v hf).1.trans h

/-- A parser that stops before the closing bracket, and another that takes it. -/
theorem thenPasses {x x' : Parse α} {f f' : α → Parse β} (hx : Keeps Beside s x x')
    (hf : ∀ v t, x s = some (v, t) → Keeps Through t (f v) (f' v)) (htakes : ∀ v, Takes 1 (f' v)) :
    Keeps Through s (x >>= f) (x' >>= f') :=
  hx.bind hf fun v _ w _ h hf => through_of_past w h (htakes v hf)

theorem map {x x' : Parse α} {g : α → β} {Q : β → ParseState → Prop} (hx : Keeps P s x x')
    (hPQ : ∀ v t, P v t → Q (g v) t) : Keeps Q s (return g (← x)) (return g (← x')) :=
  hx.bind (fun _ _ _ => .pure _) fun v t _ _ h hg => by
    cases hg
    exact hPQ v t h

/-! ## Single steps -/

theorem peek {f f' : Char → Parse α}
    (hnext : ∀ c rest, s.rest = c :: rest → Keeps P s (f c) (f' c))
    (hend : ∀ t v u, t.rest = closing → f' ')' t = some (v, u) → P v u) :
    Keeps P s (Parse.peek >>= f) (Parse.peek >>= f') := by
  refine ⟨fun more hmore => ?_, fun hnil v t hv => ?_⟩
  · rw [bind_apply, bind_apply, peek_apply, peek_apply, extend_rest]
    cases hrest : s.rest with
    | cons c rest => exact (hnext c rest hrest).follows hmore
    | nil =>
      rcases hmore with rfl | rfl
      · exact .fails
      · refine .of_beyond rfl fun v u hv => hend (s.extend closing) v u ?_ hv
        simp [hrest]
  · rw [bind_apply, peek_apply, hnil] at hv
    cases hv

theorem peek? {f f' : Option Char → Parse α}
    (hnext : ∀ c rest, s.rest = c :: rest → Keeps P s (f (some c)) (f' (some c)))
    (hnil : s.rest = [] → Keeps P s (f none) (f' none))
    (hend : s.rest = [] → Follows P closing (f none s) (f' (some ')') (s.extend closing))) :
    Keeps P s (Parse.peek? >>= f) (Parse.peek? >>= f') := by
  refine ⟨fun more hmore => ?_, fun hrest v t hv => ?_⟩
  · rw [bind_apply, bind_apply, peek?_apply, peek?_apply, extend_rest]
    cases hrest : s.rest with
    | cons c rest => exact (hnext c rest hrest).follows hmore
    | nil =>
      rcases hmore with rfl | rfl
      · exact (hnil hrest).follows (.inl rfl)
      · exact hend hrest
  · rw [bind_apply, peek?_apply, hrest] at hv
    exact (hnil hrest).stays hrest v t hv

theorem ensure {b : Bool} {f f' : Unit → Parse α} (h : b = true → Keeps P s (f ()) (f' ())) :
    Keeps P s (Parse.ensure b >>= f) (Parse.ensure b >>= f') := by
  cases b
  · exact ⟨fun _ _ => .fails, fun _ v t hv => by cases hv⟩
  · exact ⟨(h rfl).follows, (h rfl).stays⟩

theorem flags {f f' : Flags → Parse α} (h : Keeps P s (f s.flags) (f' s.flags)) :
    Keeps P s (Parse.flags >>= f) (Parse.flags >>= f') := ⟨h.follows, h.stays⟩

end Keeps

theorem keeps_setFlags (f : Flags) : Keeps Never s (setFlags f) (setFlags f) :=
  ⟨fun _ _ => .ahead () { s with flags := f }, (takes_setFlags f).stays⟩

theorem keeps_skip (hne : s.rest ≠ []) : Keeps Never s (skip 1) (skip 1) := by
  refine ⟨fun more _ => ?_, (takes_skip 1).stays⟩
  obtain ⟨c, rest, hrest⟩ := List.exists_cons_of_ne_nil hne
  have hskip : skip 1 (s.extend more) =
      some ((), { s with rest := s.rest.drop 1 }.extend more) := by
    simp [ParseState.extend, hrest]
  rw [hskip]
  exact .ahead _ _

theorem keeps_next : Keeps Through s next next := by
  refine ⟨fun more hmore => ?_, takes_next.stays⟩
  rw [next_apply, next_apply, extend_rest]
  cases hrest : s.rest with
  | cons c rest => exact .ahead c { s with rest }
  | nil =>
    rcases hmore with rfl | rfl
    · exact .fails
    · exact .beyond rfl (List.suffix_refl _)

/-! ## Texts that come next -/

theorem isPrefixOf_append_closing {text rest : List Char} (hbracket : ')' ∉ text) :
    text.isPrefixOf (rest ++ closing) = text.isPrefixOf rest := by
  rw [Bool.eq_iff_iff, List.isPrefixOf_iff_prefix, List.isPrefixOf_iff_prefix]
  refine ⟨fun h => ?_, fun h => h.trans (List.prefix_append _ _)⟩
  by_contra hnot
  have hlonger : rest.length < text.length := by
    by_contra hle
    exact hnot (List.prefix_of_prefix_length_le h (List.prefix_append _ _) (by omega))
  have hbegun : rest ++ [')'] <+: rest ++ closing :=
    (List.prefix_append_right_inj rest).mpr ⟨['$'], rfl⟩
  have hin := List.prefix_of_prefix_length_le hbegun h (by simp; omega)
  exact hbracket (hin.subset (by simp))

theorem behind?_append (start : List Char) (hbracket : ')' ∉ start)
    (hmore : more = [] ∨ more = closing) (text : List Char) :
    behind? start (text ++ more) = (behind? start text).map (· ++ more) := by
  have hsame : start.isPrefixOf (text ++ more) = start.isPrefixOf text := by
    rcases hmore with rfl | rfl
    · rw [List.append_nil]
    · exact isPrefixOf_append_closing hbracket
  unfold behind?
  rw [hsame]
  split
  · rename_i hprefix
    have hle := (List.isPrefixOf_iff_prefix.mp hprefix).length_le
    simp [List.drop_append_of_le_length hle]
  · rfl

/-- A text is cut alike before a character that is not behind it, if that occurs. -/
theorem cut_append (stop : Char) (hstop : stop ∉ closing) (hmore : more = [] ∨ more = closing)
    (text : List Char) :
    text.dropWhile (fun c => c != stop) ≠ [] ∧
        (text ++ more).takeWhile (fun c => c != stop) = text.takeWhile (fun c => c != stop) ∧
        (text ++ more).dropWhile (fun c => c != stop) =
          text.dropWhile (fun c => c != stop) ++ more ∨
      text.dropWhile (fun c => c != stop) = [] ∧
        (text ++ more).dropWhile (fun c => c != stop) = [] := by
  have hkept : ∀ c ∈ more, (c != stop) = true := by
    rintro c hc
    rcases hmore with rfl | rfl
    · cases hc
    · simpa using ne_of_mem_of_not_mem hc hstop
  rw [List.takeWhile_append, List.dropWhile_append]
  by_cases hall : text.dropWhile (fun c => c != stop) = []
  · exact .inr ⟨hall, by simpa [hall] using hkept⟩
  · refine .inl ⟨hall, if_neg fun hlength => hall ?_, by simp [hall]⟩
    have htext : text.takeWhile (fun c => c != stop) = text :=
      (List.takeWhile_prefix _).eq_of_length hlength
    rwa [List.takeWhile_eq_self_iff, ← List.dropWhile_eq_nil_iff] at htext

theorem keeps_accept {text : String} (hbracket : ')' ∉ text.toList) :
    Keeps Never s (accept text) (accept text) := by
  refine ⟨fun more hmore => ?_, (takes_accept text).stays⟩
  rw [accept_apply, accept_apply, extend_rest, behind?_append _ hbracket hmore]
  cases behind? text.toList s.rest with
  | none => exact .ahead false s
  | some rest => exact .ahead true { s with rest }

/-! ## Blanks -/

theorem blank_eq :
    NamedClass.blank = ⟨[9, 14, 32, 33, 133, 134, 160, 161, 5760, 5761, 8192, 8203, 8232, 8234,
      8239, 8240, 8287, 8288, 12288, 12289]⟩ := by
  decide +kernel

/-- No character with a meaning of its own is a blank. -/
theorem not_blank_of_isMeta {c : Char} (h : isMeta c) : NamedClass.blank.contains c = false := by
  have hall : "\\.+*?()|[]\x7b\x7d^$#&-~".toList.all
      fun c => 32 < c.toNat && c.toNat < 133 := by decide
  have hcode := List.all_eq_true.mp hall c (List.contains_iff_mem.mp h)
  simp only [Bool.and_eq_true, decide_eq_true_eq] at hcode
  rw [blank_eq]
  simp [CharSet.contains, CharSet.hasCode, CharSet.memberFrom]
  omega

@[simp] theorem dropBlanks_nil (fuel : Nat) : dropBlanks fuel [] = [] := by
  cases fuel <;> rfl

/-- Blanks and comments are skipped alike before the closing bracket, unless a comment goes on. -/
theorem dropBlanks_closing {fuel fuel' : Nat} {text : List Char} (hfuel : text.length ≤ fuel)
    (hfuel' : text.length + 2 ≤ fuel') :
    dropBlanks fuel' (text ++ closing) = dropBlanks fuel text ++ closing ∨
      dropBlanks fuel text = [] ∧ dropBlanks fuel' (text ++ closing) = [] := by
  have hblank : NamedClass.blank.contains ')' = false := not_blank_of_isMeta (by decide)
  induction fuel generalizing fuel' text with
  | zero =>
    obtain rfl : text = [] := List.eq_nil_of_length_eq_zero (by omega)
    obtain ⟨fuel', rfl⟩ : ∃ k, fuel' = k + 1 := ⟨fuel' - 1, by simp at hfuel'; omega⟩
    left
    simp [dropBlanks, closing, hblank]
  | succ fuel ih =>
    obtain ⟨fuel', rfl⟩ : ∃ k, fuel' = k + 1 := ⟨fuel' - 1, by omega⟩
    cases text with
    | nil =>
      left
      simp [dropBlanks, closing, hblank]
    | cons c text =>
      rw [List.length_cons] at hfuel hfuel'
      rw [List.cons_append, dropBlanks, dropBlanks]
      split
      · exact ih (by omega) (by omega)
      split
      · have hle := (List.dropWhile_suffix (fun d => d != '\n') (l := text)).length_le
        rw [List.dropWhile_append]
        split
        · rename_i hempty
          rw [List.isEmpty_iff] at hempty
          right
          simp [hempty, closing]
        · exact ih (by omega) (by omega)
      · exact .inl rfl

theorem settle_append (verbose : Bool) (text : List Char) (hmore : more = [] ∨ more = closing) :
    settle verbose (text ++ more) = settle verbose text ++ more ∨
      settle verbose text = [] ∧ settle verbose (text ++ more) = [] := by
  rcases hmore with rfl | rfl
  · simp
  cases verbose with
  | false => exact .inl rfl
  | true => exact dropBlanks_closing (Nat.le_refl _) (by simp [closing])

theorem settle_cons {c : Char} (hblank : NamedClass.blank.contains c = false) (hmark : c ≠ '#')
    (verbose : Bool) (text : List Char) : settle verbose (c :: text) = c :: text := by
  cases verbose
  · rfl
  · simp [settle, dropBlanks, hblank, hmark]

@[simp] theorem settle_closing (verbose : Bool) : settle verbose closing = closing :=
  settle_cons (not_blank_of_isMeta (by decide)) (by decide) verbose _

theorem dropWhile_blank_append (hmore : more = [] ∨ more = closing) (rest : List Char) :
    (rest ++ more).dropWhile NamedClass.blank.contains =
      rest.dropWhile NamedClass.blank.contains ++ more := by
  rcases hmore with rfl | rfl
  · simp
  · have hblank : NamedClass.blank.contains ')' = false := not_blank_of_isMeta (by decide)
    rw [List.dropWhile_append]
    split
    · rename_i hempty
      rw [List.isEmpty_iff] at hempty
      simp [hempty, closing, hblank]
    · rfl

theorem seen_append (hmore : more = [] ∨ more = closing) (text : List Char) :
    seen (text ++ more) = seen text ++ more := by
  unfold seen
  rw [dropWhile_blank_append hmore]
  cases text.dropWhile NamedClass.blank.contains with
  | nil => rcases hmore with rfl | rfl <;> rfl
  | cons c rest =>
    by_cases hc : c = '#'
    · subst hc
      exact dropWhile_blank_append hmore rest
    · simp [hc]

theorem seen_of_not_blank {c : Char} {text : List Char}
    (hblank : NamedClass.blank.contains c = false) (hmark : c ≠ '#') :
    seen (c :: text) = c :: text := by
  simp [seen, hblank, hmark]

theorem keeps_skipBlanks : Keeps Never s skipBlanks skipBlanks := by
  refine ⟨fun more hmore => ?_, takes_skipBlanks.stays⟩
  rw [skipBlanks_apply, skipBlanks_apply, extend_rest, extend_flags]
  rcases settle_append s.flags.verbose s.rest hmore with h | ⟨h, h'⟩
  · rw [h]
    exact .ahead () { s with rest := settle s.flags.verbose s.rest }
  · rw [h, h']
    exact .swallowed rfl

theorem past_of_skip_of_cons {c : Char} {rest : List Char} {u : Unit} (hrest : s.rest = c :: rest)
    (h : skip 1 s = some (u, t)) : Past 1 s t := (past_of_skip h).mono (by simp [hrest])

theorem past_of_advance_of_cons {c : Char} {rest : List Char} {u : Unit}
    (hrest : s.rest = c :: rest) (h : advance s = some (u, t)) : Past 1 s t :=
  (past_of_advance h).mono (by simp [hrest])

/-- A character that is there is taken alike. -/
theorem Keeps.skip {c : Char} {rest : List Char} {f f' : Unit → Parse α}
    (hrest : s.rest = c :: rest) (hf : ∀ t, Past 1 s t → Keeps P t (f ()) (f' ())) :
    Keeps P s (Parse.skip 1 >>= f) (Parse.skip 1 >>= f') :=
  (keeps_skip (by simp [hrest])).andThen fun _ t ht => hf t (past_of_skip_of_cons hrest ht)

theorem Keeps.advance {c : Char} {rest : List Char} {f f' : Unit → Parse α}
    (hrest : s.rest = c :: rest) (hf : ∀ t, Past 1 s t → Keeps P t (f ()) (f' ())) :
    Keeps P s (Parse.advance >>= f) (Parse.advance >>= f') :=
  ((keeps_skip (by simp [hrest])).andThen fun _ _ _ => keeps_skipBlanks).andThen fun _ t ht =>
    hf t (past_of_advance_of_cons hrest ht)

end Parse

end Pattern

end Restyle
