-- SUMMARY: The tokens of JSON text.
import Restyle.Json.Value

/-!
# Tokens of JSON text

`Token.scan` cuts text into tokens. Blanks separate tokens and leave no trace; the first character
that starts no token ends the list with `fault`.
-/

namespace Restyle

/-- A lexical unit of JSON text. -/
inductive Token where
  | openBrace | closeBrace | openBracket | closeBracket | colon | comma
  | null
  | bool (b : Bool)
  | str (s : String)
  | num (n : Number)
  /-- A string literal with half of a surrogate pair in it. -/
  | halfStr
  /-- A number literal that is too large for a double. -/
  | hugeNum
  /-- What follows is not JSON. -/
  | fault
  deriving DecidableEq

namespace Token

/-! ## Strings -/

def hexDigit? (c : Char) : Option Nat :=
  if '0' ≤ c ∧ c ≤ '9' then some (c.toNat - '0'.toNat)
  else if 'a' ≤ c ∧ c ≤ 'f' then some (c.toNat - 'a'.toNat + 10)
  else if 'A' ≤ c ∧ c ≤ 'F' then some (c.toNat - 'A'.toNat + 10)
  else none

/-- The 16-bit unit written by four hexadecimal digits. -/
def unit? (a b c d : Char) : Option Nat := do
  return (((← hexDigit? a) * 16 + (← hexDigit? b)) * 16 + (← hexDigit? c)) * 16 + (← hexDigit? d)

/-- The character meant by a letter after a backslash. -/
def unescape? : Char → Option Char
  | '"' => some '"'
  | '\\' => some '\\'
  | '/' => some '/'
  | 'b' => some '\x08'
  | 'f' => some '\x0c'
  | 'n' => some '\n'
  | 'r' => some '\r'
  | 't' => some '\t'
  | _ => none

/-- The character of a unit outside the surrogates. -/
def character? (unit : Nat) : Option Char :=
  if unit < 0xd800 ∨ 0xe000 ≤ unit then some (Char.ofNat unit) else none

/-- The character of two surrogates, the high one first. -/
def pair? (high low : Nat) : Option Char :=
  if 0xd800 ≤ high ∧ high < 0xdc00 ∧ 0xdc00 ≤ low ∧ low < 0xe000 then
    some (Char.ofNat (0x10000 + (high - 0xd800) * 0x400 + (low - 0xdc00)))
  else none

/-- A surrogate at the start of an escape, and the text behind the escape: the character of the pair
    that it starts, or `none`. -/
def scanPair (high : Nat) : List Char → Option (Char × List Char)
  | '\\' :: 'u' :: a :: b :: c :: d :: rest =>
    ((unit? a b c d).bind (pair? high)).map fun ch => (ch, rest)
  | _ => none

theorem length_of_scanPair {high : Nat} {text rest : List Char} {ch : Char}
    (h : scanPair high text = some (ch, rest)) : rest.length < text.length := by
  unfold scanPair at h
  split at h
  · rename_i a b c d rest'
    cases hc : (unit? a b c d).bind (pair? high) with
    | none => simp [hc] at h
    | some x =>
      simp only [hc, Option.map_some, Option.some.injEq, Prod.mk.injEq] at h
      obtain ⟨_, rfl⟩ := h
      simp only [List.length_cons]
      omega
  · simp at h

/-- The rest of a string literal behind the characters in `done` (last first), which are `none` once
    a surrogate stood alone; and the text behind the closing quote. -/
def scanString (done : Option (List Char)) : List Char → Option (Option String × List Char)
  | [] => none
  | '"' :: rest => some (done.map fun chars => String.ofList chars.reverse, rest)
  | '\\' :: 'u' :: a :: b :: c :: d :: rest =>
    match unit? a b c d with
    | none => none
    | some unit =>
      match character? unit with
      | some ch => scanString (done.map (ch :: ·)) rest
      | none =>
        match h : scanPair unit rest with
        | some (ch, rest') =>
          have := length_of_scanPair h
          scanString (done.map (ch :: ·)) rest'
        | none => scanString none rest
  | '\\' :: letter :: rest =>
    match unescape? letter with
    | some ch => scanString (done.map (ch :: ·)) rest
    | none => none
  | ch :: rest =>
    if ch.toNat < 0x20 ∨ ch = '\\' then none else scanString (done.map (ch :: ·)) rest
termination_by text => text.length

/-! ## Numbers -/

def digitValue (c : Char) : Nat := c.toNat - '0'.toNat

/-- The number written by decimal digits. -/
def ofDigits (digits : List Char) : Nat := digits.foldl (fun n c => n * 10 + digitValue c) 0

/-- The digits at the start of a text, and what follows them. -/
def spanDigits (text : List Char) : List Char × List Char := text.span Char.isDigit

/-- Digits that may not be missing. -/
def someDigits? (text : List Char) : Option (List Char × List Char) :=
  match spanDigits text with
  | ([], _) => none
  | (digits, rest) => some (digits, rest)

/-- The digits of an integer part: a leading zero stands alone. -/
def integerDigits? (text : List Char) : Option (List Char × List Char) :=
  match spanDigits text with
  | ([], _) => none
  | ('0' :: _ :: _, _) => none
  | (digits, rest) => some (digits, rest)

/-- A fraction, if one follows. -/
def fraction? : List Char → Option (Option (List Char) × List Char)
  | '.' :: rest => do
    let (digits, rest) ← someDigits? rest
    return (some digits, rest)
  | text => some (none, text)

/-- An exponent with its sign, if one follows. -/
def exponent? : List Char → Option (Option (Bool × List Char) × List Char)
  | e :: rest =>
    if e = 'e' ∨ e = 'E' then
      match rest with
      | '-' :: rest => do
        let (digits, rest) ← someDigits? rest
        return (some (true, digits), rest)
      | '+' :: rest => do
        let (digits, rest) ← someDigits? rest
        return (some (false, digits), rest)
      | _ => do
        let (digits, rest) ← someDigits? rest
        return (some (false, digits), rest)
    else some (none, e :: rest)
  | [] => some (none, [])

/-- Appends digits to a number as long as it fits into 64 bits; the digits that are left. -/
def absorb (n : Nat) : List Char → Nat × List Char
  | [] => (n, [])
  | digit :: digits =>
    let more := n * 10 + digitValue digit
    if more < 0x10000000000000000 then absorb more digits else (n, digit :: digits)

/-- The nearest number with 53 significant bits; of two the even one. -/
def round53 (n : Nat) : Nat :=
  if n < 0x20000000000000 then n
  else
    let unit := Nat.pow 2 (n.log2 - 52)
    let down := n / unit
    let rest := 2 * (n % unit)
    if rest > unit ∨ (rest = unit ∧ down % 2 = 1) then (down + 1) * unit else down * unit

/-- The greatest exponent of ten that a double can have. -/
def maxExponent : Int := 308

/-- The greatest exponent that is looked at. -/
def exponentLimit : Nat := 0x80000000

/-- Whether a decimal is too large for a double. The significant digits and the power of ten are
    rounded to doubles before they are multiplied, and the product must not round to `2 ^ 1024`. -/
def outOfRange (whole fraction : List Char) (exponent : Int) : Bool :=
  let (n, dropped) := absorb 0 whole
  let (n, unused) := absorb n fraction
  let power := exponent + dropped.length - (fraction.length - unused.length : Nat)
  if n = 0 then false
  else if exponent ≥ exponentLimit then true
  else if exponent ≤ -(exponentLimit : Int) then false
  else if power > maxExponent then true
  else power ≥ 0 && round53 n * round53 (Nat.pow 10 power.toNat) ≥ Nat.pow 2 1024 - Nat.pow 2 970

/-- A number literal without its sign, and the text behind it. The number is `none` if it is too
    large. -/
def scanNumber? (negative : Bool) (text : List Char) : Option (Option Number × List Char) := do
  let (whole, rest) ← integerDigits? text
  let (fraction, rest) ← fraction? rest
  let (exponent, rest) ← exponent? rest
  let sign := if negative then "-" else ""
  let power : Int := match exponent with
    | none => 0
    | some (true, digits) => -(ofDigits digits : Int)
    | some (false, digits) => ofDigits digits
  if outOfRange whole (fraction.getD []) power then return (none, rest)
  match fraction, exponent with
  | none, none =>
    if negative then
      if ofDigits whole = 0 then return (some (.decimal "-0"), rest)
      else return (some (.int (-(ofDigits whole : Int))), rest)
    else return (some (.int (ofDigits whole)), rest)
  | _, _ =>
    let fractionText := match fraction with
      | none => ""
      | some ds => "." ++ String.ofList ds
    let exponentText := match exponent with
      | none => ""
      | some (true, ds) => "e-" ++ String.ofList ds
      | some (false, ds) => "e" ++ String.ofList ds
    return (some (.decimal (sign ++ String.ofList whole ++ fractionText ++ exponentText)), rest)

/-! ## Text -/

/-- The blanks of JSON. -/
def isBlank (c : Char) : Bool := c == ' ' || c == '\n' || c == '\t' || c == '\r'

/-- The token at the start of a text that does not start with a blank. -/
def next? : List Char → Option (Token × List Char)
  | '\x7b' :: rest => some (openBrace, rest)
  | '\x7d' :: rest => some (closeBrace, rest)
  | '[' :: rest => some (openBracket, rest)
  | ']' :: rest => some (closeBracket, rest)
  | ':' :: rest => some (colon, rest)
  | ',' :: rest => some (comma, rest)
  | 'n' :: 'u' :: 'l' :: 'l' :: rest => some (null, rest)
  | 't' :: 'r' :: 'u' :: 'e' :: rest => some (bool true, rest)
  | 'f' :: 'a' :: 'l' :: 's' :: 'e' :: rest => some (bool false, rest)
  | '"' :: rest => (scanString (some []) rest).map fun (s, rest) => ((s.map str).getD halfStr, rest)
  | '-' :: rest => (scanNumber? true rest).map fun (n, rest) => ((n.map num).getD hugeNum, rest)
  | text => (scanNumber? false text).map fun (n, rest) => ((n.map num).getD hugeNum, rest)

/-- Scans text of at most `fuel` characters, after the tokens in `done` (last first). -/
def scanFrom : Nat → List Token → List Char → List Token
  | _, done, [] => done.reverse
  | 0, done, _ => (fault :: done).reverse
  | fuel + 1, done, c :: rest =>
    if isBlank c then scanFrom fuel done rest
    else
      match next? (c :: rest) with
      | some (token, rest) => scanFrom fuel (token :: done) rest
      | none => (fault :: done).reverse

/-- The tokens of a text. -/
def scan (text : String) : List Token :=
  let chars := text.toList
  scanFrom chars.length [] chars

end Token

end Restyle
