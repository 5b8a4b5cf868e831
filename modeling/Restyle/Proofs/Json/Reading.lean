-- SUMMARY: Reading JSON text gives back the value that was written.
import Mathlib.Data.List.TakeDrop
import Mathlib.Tactic.SplitIfs
import Restyle.Json.Printer
import Restyle.Json.Reader

/-!
# Reading what was written

The writer and the reader of JSON meet in the tokens of a value (`Json.tokens`). Text that is written
for a value is cut into its tokens (`Json.Proper.lexes_compact`), and its tokens are read as the value
if it nests no deeper than allowed (`Json.Proper.readValue_tokens`); so `Json.read` gives back what
`Json.compact` wrote. Whatever the text, a value that was read is within the limit (`nesting_read`).
-/

namespace Restyle

namespace Token

/-- Text cut into tokens. -/
inductive Lexes : List Char → List Token → Prop
  | nil : Lexes [] []
  | blank {c : Char} {text : List Char} {tokens : List Token} (hc : isBlank c = true)
      (h : Lexes text tokens) : Lexes (c :: text) tokens
  | token {c : Char} {text rest : List Char} {token : Token} {tokens : List Token}
      (hc : isBlank c = false) (hnext : next? (c :: text) = some (token, rest))
      (hlen : rest.length ≤ text.length) (h : Lexes rest tokens) :
      Lexes (c :: text) (token :: tokens)

theorem Lexes.scanFrom_eq {text : List Char} {tokens : List Token} (h : Lexes text tokens) :
    ∀ {fuel : Nat} (done : List Token), text.length ≤ fuel →
      scanFrom fuel done text = done.reverse ++ tokens := by
  induction h with
  | nil =>
    intro fuel done _
    simp [scanFrom]
  | blank hc _ ih =>
    intro fuel done hfuel
    obtain ⟨fuel, rfl⟩ : ∃ k, fuel = k + 1 := ⟨fuel - 1, by simp at hfuel; omega⟩
    simp only [scanFrom, hc, if_true]
    exact ih done (by simpa using hfuel)
  | @token c text rest token tokens hc hnext hlen _ ih =>
    intro fuel done hfuel
    obtain ⟨fuel, rfl⟩ : ∃ k, fuel = k + 1 := ⟨fuel - 1, by simp at hfuel; omega⟩
    have hrest := ih (token :: done) (Nat.le_trans hlen (by simpa using hfuel))
    simpa [scanFrom, hc, hnext] using hrest

theorem Lexes.scan_eq {text : String} {tokens : List Token} (h : Lexes text.toList tokens) :
    scan text = tokens := by
  simpa [scan] using h.scanFrom_eq [] (Nat.le_refl _)

/-! ## String literals -/

theorem unit?_hexChar : ∀ n < 0x20,
    unit? '0' '0' (Json.hexChar (n / 16)) (Json.hexChar (n % 16)) = some n := by
  decide

theorem scanString_escapeChar (done : List Char) (c : Char) (rest : List Char) :
    scanString (some done) (Json.escapeChar c ++ rest) = scanString (some (c :: done)) rest := by
  unfold Json.escapeChar
  split_ifs with hquote hslash hn hr ht hb hf hcontrol
  · simp [scanString, unescape?, hquote]
  · simp [scanString, unescape?, hslash]
  · simp [scanString, unescape?, hn]
  · simp [scanString, unescape?, hr]
  · simp [scanString, unescape?, ht]
  · simp [scanString, unescape?, hb]
  · simp [scanString, unescape?, hf]
  · have hchar : character? c.toNat = some c := by
      unfold character?
      rw [if_pos (.inl (by omega)), Char.ofNat_toNat]
    simp [scanString, unit?_hexChar _ hcontrol, hchar]
  · simp [scanString, hslash, hcontrol]

theorem scanString_flatMap (chars done rest : List Char) :
    scanString (some done) (chars.flatMap Json.escapeChar ++ '"' :: rest) =
      some (some (String.ofList (done.reverse ++ chars)), rest) := by
  induction chars generalizing done with
  | nil => simp [scanString]
  | cons c chars ih => simp [List.append_assoc, scanString_escapeChar, ih]

theorem Lexes.quote (s : String) {rest : List Char} {tokens : List Token}
    (h : Lexes rest tokens) : Lexes ((Json.quote s).toList ++ rest) (.str s :: tokens) := by
  have htext : (Json.quote s).toList ++ rest =
      '"' :: (s.toList.flatMap Json.escapeChar ++ '"' :: rest) := by
    simp [Json.quote]
  rw [htext]
  refine .token rfl ?_ ?_ h
  · simp [next?, scanString_flatMap]
  · simp only [List.length_append, List.length_cons]
    omega

/-! ## Number literals -/

/-- What may stand behind a number without making it longer. -/
def EndsNumber (rest : List Char) : Prop :=
  ∀ c ∈ rest.head?, c.isDigit = false ∧ c ≠ '.' ∧ c ≠ 'e' ∧ c ≠ 'E'

theorem digitChar_eq_zero : ∀ n < 10, Nat.digitChar n = '0' → n = 0 := by
  decide

theorem eq_zero_of_head?_toDigits {n : Nat} (h : (Nat.toDigits 10 n).head? = some '0') :
    n = 0 := by
  induction n using Nat.strongRecOn with
  | _ n ih =>
    by_cases hlt : n < 10
    · rw [Nat.toDigits_of_lt_base hlt] at h
      exact digitChar_eq_zero n hlt (by simpa using h)
    · rw [Nat.toDigits_of_base_le (by omega) (by omega), List.head?_append] at h
      cases hhead : (Nat.toDigits 10 (n / 10)).head? with
      | none => exact absurd (List.head?_eq_none_iff.mp hhead) Nat.toDigits_ne_nil
      | some c =>
        rw [hhead, Option.some_or] at h
        have := ih (n / 10) (by omega) (hhead.trans h)
        omega

theorem ofDigits_toDigits (n : Nat) : ofDigits (Nat.toDigits 10 n) = n := by
  have hvalue := Nat.ofDigitChars_ten_toDigits (n := n)
  simpa [ofDigits, Nat.ofDigitChars, digitValue, Nat.mul_comm] using hvalue

theorem spanDigits_append {digits rest : List Char} (hdigits : ∀ c ∈ digits, c.isDigit = true)
    (hrest : EndsNumber rest) : spanDigits (digits ++ rest) = (digits, rest) := by
  unfold spanDigits
  rw [List.span_eq_takeWhile_dropWhile, List.takeWhile_append_of_pos hdigits,
    List.dropWhile_append_of_pos hdigits]
  cases rest with
  | nil => simp
  | cons c rest => simp [(hrest c (by simp)).1]

theorem integerDigits?_toDigits (n : Nat) {rest : List Char} (hrest : EndsNumber rest) :
    integerDigits? (Nat.toDigits 10 n ++ rest) = some (Nat.toDigits 10 n, rest) := by
  have hspan := spanDigits_append
    (fun c hc => Nat.isDigit_of_mem_toDigits (b := 10) (n := n) (by omega) (by omega) hc) hrest
  rw [integerDigits?, hspan]
  split
  · rename_i heq
    exact absurd (congrArg Prod.fst heq) Nat.toDigits_ne_nil
  · rename_i heq
    -- a leading zero with a digit behind it is no numeral
    have hdigits : Nat.toDigits 10 n = _ := congrArg Prod.fst heq
    obtain rfl := eq_zero_of_head?_toDigits (n := n) (by rw [hdigits]; rfl)
    simp at hdigits
  · rename_i heq
    simp [heq]

theorem le_foldl_digits (digits : List Char) (n : Nat) :
    n ≤ digits.foldl (fun n c => n * 10 + digitValue c) n := by
  induction digits generalizing n with
  | nil => exact Nat.le_refl n
  | cons c digits ih => exact Nat.le_trans (show n ≤ n * 10 + digitValue c by omega) (ih _)

theorem absorb_eq (digits : List Char) (n : Nat)
    (h : digits.foldl (fun n c => n * 10 + digitValue c) n < 0x10000000000000000) :
    absorb n digits = (digits.foldl (fun n c => n * 10 + digitValue c) n, []) := by
  induction digits generalizing n with
  | nil => rfl
  | cons c digits ih =>
    have hle := le_foldl_digits digits (n * 10 + digitValue c)
    rw [List.foldl_cons] at h ⊢
    rw [absorb, if_pos (by omega), ih _ h]

theorem outOfRange_toDigits {n : Nat} (h : n < 0x20000000000000) :
    outOfRange (Nat.toDigits 10 n) [] 0 = false := by
  have hdigits : absorb 0 (Nat.toDigits 10 n) = (n, []) := by
    have hvalue := ofDigits_toDigits n
    rw [ofDigits] at hvalue
    rw [absorb_eq _ _ (by omega), hvalue]
  have hrounded : round53 n * round53 1 < Nat.pow 2 1024 - Nat.pow 2 970 := by
    rw [round53, if_pos h, round53, if_pos (by omega), Nat.mul_one]
    exact Nat.lt_of_lt_of_le h (by decide +kernel)
  unfold outOfRange
  generalize Nat.pow 2 1024 - Nat.pow 2 970 = bound at hrounded ⊢
  simp only [hdigits, absorb]
  split_ifs
  · rfl
  · simp [exponentLimit] at *
  · rfl
  · simp [maxExponent] at *
  · simpa using hrounded

theorem scanNumber?_toDigits {n : Nat} (h : n < 0x20000000000000) {rest : List Char}
    (hrest : EndsNumber rest) :
    scanNumber? false (Nat.toDigits 10 n ++ rest) = some (some (.int n), rest) := by
  have hfraction : fraction? rest = some (none, rest) := by
    unfold fraction?
    split
    · exact absurd rfl (hrest _ rfl).2.1
    · rfl
  have hexponent : exponent? rest = some (none, rest) := by
    unfold exponent?
    split
    · rename_i e rest
      have hcase := (hrest e rfl).2.2
      simp [hcase]
    · rfl
  simp [scanNumber?, integerDigits?_toDigits n hrest, hfraction, hexponent,
    outOfRange_toDigits h, ofDigits_toDigits]

theorem isBlank_of_isDigit {c : Char} (hc : c.isDigit = true) : isBlank c = false := by
  by_contra hblank
  rw [Bool.not_eq_false] at hblank
  simp only [isBlank, Bool.or_eq_true, beq_iff_eq] at hblank
  rcases hblank with ((rfl | rfl) | rfl) | rfl <;> simp at hc

theorem next?_of_isDigit {c : Char} (hc : c.isDigit = true) (text : List Char) :
    next? (c :: text) = (scanNumber? false (c :: text)).map fun (n, rest) =>
      ((n.map num).getD hugeNum, rest) := by
  unfold next?
  split
  all_goals first
    | rfl
    | rename_i heq
      obtain ⟨rfl, -⟩ := List.cons.inj heq
      simp at hc

theorem Lexes.nat {n : Nat} (hn : n < 0x20000000000000) {rest : List Char}
    {tokens : List Token} (hrest : EndsNumber rest) (h : Lexes rest tokens) :
    Lexes ((Json.numberText (.int n)).toList ++ rest) (.num (.int n) :: tokens) := by
  have htext : (Json.numberText (.int n)).toList = Nat.toDigits 10 n := by
    have hpos : ¬(n : Int) < 0 := by omega
    simp [Json.numberText, hpos]
  rw [htext]
  have hscan := scanNumber?_toDigits hn hrest
  have hdigit : ∀ c ∈ Nat.toDigits 10 n, c.isDigit = true := fun c hc =>
    Nat.isDigit_of_mem_toDigits (by omega) (by omega) hc
  cases hdigits : Nat.toDigits 10 n with
  | nil => exact absurd hdigits Nat.toDigits_ne_nil
  | cons c digits =>
    rw [hdigits, List.cons_append] at hscan
    have hc := hdigit c (by simp [hdigits])
    rw [List.cons_append]
    refine .token (isBlank_of_isDigit hc) ?_ ?_ h
    · rw [next?_of_isDigit hc, hscan]
      rfl
    · simp

end Token

namespace Json

/-! ## Tokens of a value -/

mutual

/-- The tokens of a value without flaws. -/
def tokens : Json → List Token
  | null => [.null]
  | bool b => [.bool b]
  | num n => [.num n]
  | str s => [.str s]
  | arr items _ => .openBracket :: (itemTokens items ++ [.closeBracket])
  | obj fields _ => .openBrace :: (fieldTokens fields ++ [.closeBrace])
  | flawed _ => []

def itemTokens : List Json → List Token
  | [] => []
  | [item] => item.tokens
  | item :: items => item.tokens ++ .comma :: itemTokens items

def fieldTokens : List (String × Json) → List Token
  | [] => []
  | [(key, value)] => .str key :: .colon :: value.tokens
  | (key, value) :: fields => .str key :: .colon :: (value.tokens ++ .comma :: fieldTokens fields)

end

/-- The values that the library writes. -/
inductive Proper : Json → Prop
  | null : Proper null
  | bool (b : Bool) : Proper (bool b)
  | str (s : String) : Proper (str s)
  | word (w : UInt32) : Proper (nat w.toNat)
  | array {items : List Json} (h : ∀ item ∈ items, Proper item) : Proper (array items)
  | object {fields : List (String × Json)} (h : ∀ field ∈ fields, Proper field.2) :
      Proper (object fields)

/-! ## Cutting written text into tokens -/

/-- The text is cut into the tokens, whatever follows that cannot be part of a number. -/
def Lexical (text : String) (tokens : List Token) : Prop :=
  ∀ (rest : List Char) (behind : List Token), Token.EndsNumber rest → Token.Lexes rest behind →
    Token.Lexes (text.toList ++ rest) (tokens ++ behind)

theorem endsNumber_cons {c : Char} (hc : c = ',' ∨ c = ']' ∨ c = '\x7d') (rest : List Char) :
    Token.EndsNumber (c :: rest) := by
  intro d hd
  obtain rfl : c = d := by simpa using hd
  rcases hc with rfl | rfl | rfl <;> decide

theorem lexical_items {items : List Json}
    (h : ∀ item ∈ items, Lexical item.compact item.tokens) :
    Lexical (compactItems items) (itemTokens items) := by
  induction items with
  | nil =>
    intro rest behind _ hbehind
    simpa [compactItems, itemTokens] using hbehind
  | cons item items ih =>
    rw [List.forall_mem_cons] at h
    cases items with
    | nil => simpa [compactItems, itemTokens] using h.1
    | cons next items =>
      intro rest behind hrest hbehind
      have hitems := ih h.2 rest behind hrest hbehind
      have hcomma := Token.Lexes.token (c := ',') rfl rfl (Nat.le_refl _) hitems
      have hitem := h.1 _ _ (endsNumber_cons (.inl rfl) _) hcomma
      simpa [compactItems, itemTokens] using hitem

theorem lexical_fields {fields : List (String × Json)}
    (h : ∀ field ∈ fields, Lexical field.2.compact field.2.tokens) :
    Lexical (compactFields fields) (fieldTokens fields) := by
  induction fields with
  | nil =>
    intro rest behind _ hbehind
    simpa [compactFields, fieldTokens] using hbehind
  | cons field fields ih =>
    obtain ⟨key, value⟩ := field
    rw [List.forall_mem_cons] at h
    intro rest behind hrest hbehind
    cases fields with
    | nil =>
      have hvalue := h.1 _ _ hrest hbehind
      have hcolon := Token.Lexes.token (c := ':') rfl rfl (Nat.le_refl _) hvalue
      simpa [compactFields, fieldTokens] using hcolon.quote key
    | cons next fields =>
      have hfields := ih h.2 rest behind hrest hbehind
      have hcomma := Token.Lexes.token (c := ',') rfl rfl (Nat.le_refl _) hfields
      have hvalue := h.1 _ _ (endsNumber_cons (.inl rfl) _) hcomma
      have hcolon := Token.Lexes.token (c := ':') rfl rfl (Nat.le_refl _) hvalue
      simpa [compactFields, fieldTokens] using hcolon.quote key

/-- The text of a value is cut into the tokens of the value. -/
theorem Proper.lexes_compact {value : Json} (h : Proper value) :
    Lexical value.compact value.tokens := by
  induction h with
  | null =>
    intro rest behind _ hbehind
    exact .token (c := 'n') rfl rfl (by simp; omega) hbehind
  | bool b =>
    intro rest behind _ hbehind
    cases b with
    | true => exact .token (c := 't') rfl rfl (by simp; omega) hbehind
    | false => exact .token (c := 'f') rfl rfl (by simp; omega) hbehind
  | str s =>
    intro rest behind _ hbehind
    exact hbehind.quote s
  | word w =>
    intro rest behind hrest hbehind
    have hw := w.toNat_lt
    exact hbehind.nat (by omega) hrest
  | array _ ih =>
    intro rest behind hrest hbehind
    have hclose := Token.Lexes.token (c := ']') rfl rfl (Nat.le_refl _) hbehind
    have hitems := lexical_items ih _ _ (endsNumber_cons (.inr (.inl rfl)) _) hclose
    have hopen := Token.Lexes.token (c := '[') rfl rfl (Nat.le_refl _) hitems
    simpa [Json.array, compact, tokens] using hopen
  | object _ ih =>
    intro rest behind hrest hbehind
    have hclose := Token.Lexes.token (c := '\x7d') rfl rfl (Nat.le_refl _) hbehind
    have hfields := lexical_fields ih _ _ (endsNumber_cons (.inr (.inr rfl)) _) hclose
    have hopen := Token.Lexes.token (c := '\x7b') rfl rfl (Nat.le_refl _) hfields
    simpa [Json.object, compact, tokens] using hopen

/-! ## Nesting -/

mutual

/-- How many arrays and objects stand in one another. -/
def nesting : Json → Nat
  | arr items _ => itemsNesting items + 1
  | obj fields _ => fieldsNesting fields + 1
  | null | bool _ | num _ | str _ | flawed _ => 0

def itemsNesting : List Json → Nat
  | [] => 0
  | item :: items => max item.nesting (itemsNesting items)

def fieldsNesting : List (String × Json) → Nat
  | [] => 0
  | (_, value) :: fields => max value.nesting (fieldsNesting fields)

end

theorem itemsNesting_le_iff {items : List Json} {depth : Nat} :
    itemsNesting items ≤ depth ↔ ∀ item ∈ items, item.nesting ≤ depth := by
  induction items with
  | nil => simp [itemsNesting]
  | cons item items ih => rw [itemsNesting, Nat.max_le, ih, List.forall_mem_cons]

theorem fieldsNesting_le_iff {fields : List (String × Json)} {depth : Nat} :
    fieldsNesting fields ≤ depth ↔ ∀ field ∈ fields, field.2.nesting ≤ depth := by
  induction fields with
  | nil => simp [fieldsNesting]
  | cons field fields ih => rw [fieldsNesting, Nat.max_le, ih, List.forall_mem_cons]

theorem nesting_lt_of_mem_items {items : List Json} {item : Json} (h : item ∈ items)
    (flaw : Option Flaw) : item.nesting < (arr items flaw).nesting :=
  Nat.lt_succ_of_le (itemsNesting_le_iff.mp (Nat.le_refl _) item h)

theorem nesting_lt_of_mem_fields {fields : List (String × Json)} (key : String) {value : Json}
    (h : (key, value) ∈ fields) (flaw : Option Flaw) : value.nesting < (obj fields flaw).nesting :=
  Nat.lt_succ_of_le (fieldsNesting_le_iff.mp (Nat.le_refl _) (key, value) h)

/-! ## Reading tokens -/

/-- Values are read from their tokens, whatever follows. -/
def ReadsAll (read : List Token → Reading) (value : Json) : Prop :=
  ∀ rest, read (value.tokens ++ rest) = ⟨value, some rest⟩

theorem readItems_tokens {read : List Token → Reading} {items : List Json} (hne : items ≠ [])
    (h : ∀ item ∈ items, ReadsAll read item) (rest : List Token) (fuel : Nat)
    (hfuel : items.length ≤ fuel) (done : List Json) :
    readItems read fuel done (itemTokens items ++ .closeBracket :: rest) =
      ⟨arr (done.reverse ++ items) none, some rest⟩ := by
  induction items generalizing fuel done with
  | nil => exact absurd rfl hne
  | cons item items ih =>
    rw [List.forall_mem_cons] at h
    obtain ⟨fuel, rfl⟩ : ∃ k, fuel = k + 1 := ⟨fuel - 1, by simp at hfuel; omega⟩
    cases items with
    | nil => simp [itemTokens, readItems, h.1 _]
    | cons next items =>
      have hlength : (next :: items).length ≤ fuel := by simpa using hfuel
      simp [itemTokens, readItems, h.1 _, ih (by simp) h.2 fuel hlength]

theorem readFields_tokens {read : List Token → Reading} {fields : List (String × Json)}
    (hne : fields ≠ []) (h : ∀ field ∈ fields, ReadsAll read field.2) (rest : List Token)
    (fuel : Nat) (hfuel : fields.length ≤ fuel) (done : List (String × Json)) :
    readFields read fuel done (fieldTokens fields ++ .closeBrace :: rest) =
      ⟨obj (done.reverse ++ fields) none, some rest⟩ := by
  induction fields generalizing fuel done with
  | nil => exact absurd rfl hne
  | cons field fields ih =>
    obtain ⟨key, value⟩ := field
    rw [List.forall_mem_cons] at h
    obtain ⟨fuel, rfl⟩ : ∃ k, fuel = k + 1 := ⟨fuel - 1, by simp at hfuel; omega⟩
    cases fields with
    | nil => simp [fieldTokens, readFields, h.1 _]
    | cons next fields =>
      have hlength : (next :: fields).length ≤ fuel := by simpa using hfuel
      simp [fieldTokens, readFields, h.1 _, ih (by simp) h.2 fuel hlength]

theorem Proper.tokens_eq_cons {value : Json} (h : Proper value) :
    ∃ token tokens, value.tokens = token :: tokens ∧ token ≠ .closeBracket := by
  cases h <;> exact ⟨_, _, rfl, by simp⟩

theorem itemTokens_eq_cons {items : List Json} (hne : items ≠ [])
    (h : ∀ item ∈ items, Proper item) :
    ∃ token tokens, itemTokens items = token :: tokens ∧ token ≠ .closeBracket := by
  match items with
  | [] => exact absurd rfl hne
  | [item] => exact (h item List.mem_cons_self).tokens_eq_cons
  | item :: next :: items =>
    obtain ⟨token, tokens, htokens, hclose⟩ := (h item List.mem_cons_self).tokens_eq_cons
    exact ⟨token, tokens ++ .comma :: itemTokens (next :: items), by simp [itemTokens, htokens],
      hclose⟩

theorem length_le_itemTokens {items : List Json} (h : ∀ item ∈ items, Proper item) :
    items.length ≤ (itemTokens items).length := by
  induction items with
  | nil => simp
  | cons item items ih =>
    rw [List.forall_mem_cons] at h
    obtain ⟨token, tokens, htokens, -⟩ := h.1.tokens_eq_cons
    cases items with
    | nil => simp [itemTokens, htokens]
    | cons next items =>
      have hlength := ih h.2
      simp [itemTokens, htokens] at hlength ⊢
      omega

theorem fieldTokens_eq_cons {fields : List (String × Json)} (hne : fields ≠ []) :
    ∃ key tokens, fieldTokens fields = .str key :: tokens := by
  match fields with
  | [] => exact absurd rfl hne
  | [(key, value)] => exact ⟨key, _, rfl⟩
  | (key, value) :: next :: fields => exact ⟨key, _, rfl⟩

theorem length_le_fieldTokens (fields : List (String × Json)) :
    fields.length ≤ (fieldTokens fields).length := by
  induction fields with
  | nil => simp
  | cons field fields ih =>
    cases fields with
    | nil => simp [fieldTokens]
    | cons next fields =>
      simp [fieldTokens] at ih ⊢
      omega

/-- A value is read from its tokens. -/
theorem Proper.readValue_tokens {value : Json} (h : Proper value) :
    ∀ {depth : Nat}, value.nesting ≤ depth → ReadsAll (readValue depth) value := by
  induction h with
  | null | bool | str | word =>
    intro depth _ rest
    simp [tokens, readValue, Json.nat]
  | @array items hitems ih =>
    intro depth hdepth rest
    obtain ⟨depth, rfl⟩ : ∃ k, depth = k + 1 :=
      ⟨depth - 1, by simp [Json.array, nesting] at hdepth; omega⟩
    rw [Json.array, nesting, Nat.add_le_add_iff_right, itemsNesting_le_iff] at hdepth
    by_cases hne : items = []
    · simp [hne, Json.array, tokens, itemTokens, readValue]
    · have hlength := length_le_itemTokens hitems
      have hread := readItems_tokens hne (fun item hitem => ih item hitem (hdepth item hitem)) rest
        (itemTokens items ++ .closeBracket :: rest).length (by simp; omega) []
      obtain ⟨token, tokens, htokens, hclose⟩ := itemTokens_eq_cons hne hitems
      rw [htokens] at hread
      simpa [Json.array, Json.tokens, htokens, readValue, hclose] using hread
  | @object fields _ ih =>
    intro depth hdepth rest
    obtain ⟨depth, rfl⟩ : ∃ k, depth = k + 1 :=
      ⟨depth - 1, by simp [Json.object, nesting] at hdepth; omega⟩
    rw [Json.object, nesting, Nat.add_le_add_iff_right, fieldsNesting_le_iff] at hdepth
    by_cases hne : fields = []
    · simp [hne, Json.object, tokens, fieldTokens, readValue]
    · have hlength := length_le_fieldTokens fields
      have hread := readFields_tokens hne
        (fun field hfield => ih field hfield (hdepth field hfield)) rest
        (fieldTokens fields ++ .closeBrace :: rest).length (by simp; omega) []
      obtain ⟨key, tokens, htokens⟩ := fieldTokens_eq_cons hne
      rw [htokens] at hread
      simpa [Json.object, Json.tokens, htokens, readValue] using hread

/-- A value is read from any text that is cut into its tokens. -/
theorem Proper.read_eq {value : Json} (h : Proper value) (hnesting : value.nesting ≤ nestingLimit)
    {text : String} (hlexes : Token.Lexes text.toList value.tokens) : read text = ⟨value, true⟩ := by
  have hread := h.readValue_tokens hnesting []
  rw [List.append_nil] at hread
  rw [read, readWithin, hlexes.scan_eq, hread]

/-- Reading gives back what was written. -/
theorem read_compact {value : Json} (h : Proper value) (hnesting : value.nesting ≤ nestingLimit) :
    read value.compact = ⟨value, true⟩ := by
  have hlexes := h.lexes_compact [] [] (by simp [Token.EndsNumber]) .nil
  exact h.read_eq hnesting (by simpa using hlexes)

/-! ## The limit on nesting -/

section Limit

variable {readValue : List Token → Reading} {depth : Nat}

theorem nesting_arr_le {items : List Json} (h : ∀ item ∈ items, item.nesting ≤ depth)
    (flaw : Option Flaw) : (arr items.reverse flaw).nesting ≤ depth + 1 := by
  rw [nesting, Nat.add_le_add_iff_right, itemsNesting_le_iff]
  simpa using h

theorem nesting_obj_le {fields : List (String × Json)}
    (h : ∀ field ∈ fields, field.2.nesting ≤ depth) (flaw : Option Flaw) :
    (obj fields.reverse flaw).nesting ≤ depth + 1 := by
  rw [nesting, Nat.add_le_add_iff_right, fieldsNesting_le_iff]
  simpa using h

theorem nesting_readItems (h : ∀ tokens, (readValue tokens).value.nesting ≤ depth) (fuel : Nat)
    (done : List Json) (tokens : List Token) (hdone : ∀ item ∈ done, item.nesting ≤ depth) :
    (readItems readValue fuel done tokens).value.nesting ≤ depth + 1 := by
  fun_induction readItems readValue fuel done tokens with
  | case1 => exact nesting_arr_le hdone _
  | case2 _ _ tokens _ heq | case4 _ _ tokens _ _ heq | case5 _ _ tokens _ _ _ _ heq =>
    have hvalue := h tokens
    rw [heq] at hvalue
    exact nesting_arr_le (List.forall_mem_cons.mpr ⟨hvalue, hdone⟩) _
  | case3 _ _ tokens _ _ heq ih =>
    have hvalue := h tokens
    rw [heq] at hvalue
    exact ih (List.forall_mem_cons.mpr ⟨hvalue, hdone⟩)

theorem nesting_readFields (h : ∀ tokens, (readValue tokens).value.nesting ≤ depth) (fuel : Nat)
    (done : List (String × Json)) (tokens : List Token)
    (hdone : ∀ field ∈ done, field.2.nesting ≤ depth) :
    (readFields readValue fuel done tokens).value.nesting ≤ depth + 1 := by
  fun_induction readFields readValue fuel done tokens with
  | case1 | case8 => exact nesting_obj_le hdone _
  | case2 _ _ _ tokens _ heq | case4 _ _ _ tokens _ _ heq | case5 _ _ _ tokens _ _ _ _ heq =>
    have hvalue := h tokens
    rw [heq] at hvalue
    exact nesting_obj_le (List.forall_mem_cons.mpr ⟨hvalue, hdone⟩) _
  | case3 _ _ _ tokens _ _ heq ih =>
    have hvalue := h tokens
    rw [heq] at hvalue
    exact ih (List.forall_mem_cons.mpr ⟨hvalue, hdone⟩)
  | case6 => exact nesting_obj_le (List.forall_mem_cons.mpr ⟨Nat.zero_le depth, hdone⟩) _
  | case7 =>
    unfold endAtKey
    split <;> exact nesting_obj_le hdone _

end Limit

theorem nesting_readValue (depth : Nat) (tokens : List Token) :
    (readValue depth tokens).value.nesting ≤ depth := by
  induction depth using Nat.strongRecOn generalizing tokens with
  | _ depth ih =>
    fun_cases readValue depth tokens with
    | case1 | case2 | case3 | case4 | case5 | case6 | case7 | case9 =>
      simp [Json.array, Json.object, nesting, itemsNesting, fieldsNesting]
    | case8 depth =>
      exact nesting_readItems (ih depth (Nat.lt_succ_self depth)) _ _ _ (by simp)
    | case10 depth =>
      exact nesting_readFields (ih depth (Nat.lt_succ_self depth)) _ _ _ (by simp)
    | case11 =>
      unfold meaningless
      split <;> simp [nesting]

/-- A value that was read is within the limit. -/
theorem nesting_read (text : String) : (read text).value.nesting ≤ nestingLimit := by
  have h := nesting_readValue nestingLimit (Token.scan text)
  unfold read readWithin
  split <;> simpa [*] using h

end Json

end Restyle
