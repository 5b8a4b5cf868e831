-- SUMMARY: Writing JSON values, on one line or indented.
import Restyle.Json.Value

/-!
# Writing JSON

Two layouts of one notation: `Json.compact` has no blanks, `Json.pretty` indents by two spaces.
-/

namespace Restyle

namespace Json

/-- A hexadecimal digit, in lower case. -/
def hexChar (n : Nat) : Char := if n < 10 then Char.ofNat (48 + n) else Char.ofNat (87 + n)

/-- A character inside a string literal. -/
def escapeChar (c : Char) : List Char :=
  if c = '"' then ['\\', '"']
  else if c = '\\' then ['\\', '\\']
  else if c = '\n' then ['\\', 'n']
  else if c = '\r' then ['\\', 'r']
  else if c = '\t' then ['\\', 't']
  else if c = '\x08' then ['\\', 'b']
  else if c = '\x0c' then ['\\', 'f']
  else if c.toNat < 0x20 then
    ['\\', 'u', '0', '0', hexChar (c.toNat / 16), hexChar (c.toNat % 16)]
  else [c]

/-- A string literal. -/
def quote (s : String) : String := "\"" ++ String.ofList (s.toList.flatMap escapeChar) ++ "\""

def numberText : Number → String
  | .int n => if n < 0 then "-" ++ toString n.natAbs else toString n.natAbs
  | .decimal text => text

mutual

/-- The value on one line without blanks. -/
def compact : Json → String
  | null => "null"
  | bool true => "true"
  | bool false => "false"
  | num n => numberText n
  | str s => quote s
  | arr items _ => "[" ++ compactItems items ++ "]"
  | obj fields _ => "\x7b" ++ compactFields fields ++ "\x7d"
  | flawed _ => ""

def compactItems : List Json → String
  | [] => ""
  | [item] => item.compact
  | item :: items => item.compact ++ "," ++ compactItems items

def compactFields : List (String × Json) → String
  | [] => ""
  | [(key, value)] => quote key ++ ":" ++ value.compact
  | (key, value) :: fields => quote key ++ ":" ++ value.compact ++ "," ++ compactFields fields

end

/-- A new line with its indentation. -/
def newline (level : Nat) : String := "\n" ++ String.ofList (List.replicate (2 * level) ' ')

mutual

/-- The value with every item and field on a line of its own. -/
def prettyAt (level : Nat) : Json → String
  | null => "null"
  | bool true => "true"
  | bool false => "false"
  | num n => numberText n
  | str s => quote s
  | arr [] _ => "[]"
  | arr items _ => "[" ++ prettyItems (level + 1) items ++ newline level ++ "]"
  | obj [] _ => "\x7b\x7d"
  | obj fields _ => "\x7b" ++ prettyFields (level + 1) fields ++ newline level ++ "\x7d"
  | flawed _ => ""

def prettyItems (level : Nat) : List Json → String
  | [] => ""
  | [item] => newline level ++ item.prettyAt level
  | item :: items => newline level ++ item.prettyAt level ++ "," ++ prettyItems level items

def prettyFields (level : Nat) : List (String × Json) → String
  | [] => ""
  | [(key, value)] => newline level ++ quote key ++ ": " ++ value.prettyAt level
  | (key, value) :: fields =>
    newline level ++ quote key ++ ": " ++ value.prettyAt level ++ "," ++ prettyFields level fields

end

/-- The value indented by two spaces. -/
def pretty (value : Json) : String := value.prettyAt 0

end Json

end Restyle
