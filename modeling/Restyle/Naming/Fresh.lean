-- SUMMARY: The successors of a name, and the search for one that is free.

/-!
# Fresh names

The successor of a name counts up the number at its end. A search for a free name tries the
successors one after another, up to a limit.
-/

namespace Restyle

namespace Name

/-- The name without the digits at its end, and these digits. -/
def splitDigits (name : String) : List Char × List Char :=
  let reversed := name.toList.reverse
  ((reversed.dropWhile Char.isDigit).reverse, (reversed.takeWhile Char.isDigit).reverse)

/-- The number written by decimal digits. -/
def number (digits : List Char) : Nat :=
  digits.foldl (fun n c => n * 10 + (c.toNat - '0'.toNat)) 0

/-- Numbers at the end of a name are counted up while they fit into 64 bits. -/
def countLimit : Nat := 0x10000000000000000

/-- The next name: a number behind a stem is counted up if it can be, and all other names get a
    `1` at the end. -/
def next (name : String) : String :=
  let (stem, digits) := splitDigits name
  if !stem.isEmpty && !digits.isEmpty && number digits + 1 < countLimit then
    String.ofList stem ++ toString (number digits + 1)
  else name ++ "1"

/-- The names after a name, as many as asked for. -/
def successors (name : String) : Nat → List String
  | 0 => []
  | count + 1 => next name :: successors (next name) count

/-- The first successor that is not taken, among a number of them. -/
def findFree (taken : String → Bool) (name : String) : (attempts : Nat) → Option String
  | 0 => none
  | attempts + 1 => if taken (next name) then findFree taken (next name) attempts else next name

/-- The number of names that a search tries. -/
def attemptLimit : Nat := 10000

end Name

end Restyle
