-- SUMMARY: Text in quotes for messages, with escapes for what would not be seen.
import Restyle.Text.Unicode.Edition

/-!
# Quoted text

Messages show text between double quotes. Quotes, backslashes and characters that have no shape of
their own are escaped, the latter by number.
-/

namespace Restyle

namespace Quote

/-- The characters that are shown by number: those without a shape of their own, and marks that
    extend the character before them. Two voicing marks of half width stand alone and are shown. -/
def escaped : CharSet :=
  (Unicode.Later.hidden ∪ Unicode.defaultIgnorable ∪
    (Unicode.Later.graphemeExtend \ .range '\uff9e' '\uff9f')) \ .single ' '

/-- A character between quotes. -/
def escapeChar (c : Char) : String :=
  match c with
  | '"' => "\\\""
  | '\\' => "\\\\"
  | '\n' => "\\n"
  | '\r' => "\\r"
  | '\t' => "\\t"
  | '\x00' => "\\0"
  | _ =>
    if escaped.contains c then "\\u\x7b" ++ String.ofList (Nat.toDigits 16 c.toNat) ++ "\x7d"
    else String.singleton c

/-- Text between double quotes. -/
def quoted (text : String) : String := "\"" ++ String.join (text.toList.map escapeChar) ++ "\""

end Quote

end Restyle
