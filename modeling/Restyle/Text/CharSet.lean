-- SUMMARY: Sets of characters as lists of the places where membership changes.

/-!
# Sets of characters

A set is given by the increasing code points at which membership changes: it holds the code points
from the first to before the second, from the third to before the fourth, and so on. Two sets with
the same members have the same changes, so sets can be compared. Surrogates belong to no set.
-/

namespace Restyle

/-- A set of characters. -/
structure CharSet where
  changes : List Nat
deriving DecidableEq, Inhabited

namespace CharSet

-- ---------------------------------------------------------------------------
-- Members
-- ---------------------------------------------------------------------------

/-- Whether a code point is a member, if membership before the first change is `inside`. -/
def memberFrom (code : Nat) (inside : Bool) : List Nat → Bool
  | [] => inside
  | change :: changes => if change ≤ code then memberFrom code (!inside) changes else inside

/-- Whether a code point belongs to the set. -/
def hasCode (s : CharSet) (code : Nat) : Bool := memberFrom code false s.changes

def contains (s : CharSet) (c : Char) : Bool := s.hasCode c.toNat

/-- The stretches of members, each with its first and its last code point. -/
def stretches : List Nat → List (Nat × Nat)
  | first :: stop :: changes => (first, stop - 1) :: stretches changes
  | _ => []

def ranges (s : CharSet) : List (Nat × Nat) := stretches s.changes

-- ---------------------------------------------------------------------------
-- Set operations
-- ---------------------------------------------------------------------------

/-- Walks along the changes of two sets. `left` and `right` say where the walk is inside of them,
    `inside` whether it is inside of the joined set. -/
def sweep (join : Bool → Bool → Bool) (left right inside : Bool) :
    List Nat → List Nat → List Nat
  | [], [] => []
  | a :: as, [] =>
    let now := join (!left) right
    let rest := sweep join (!left) right now as []
    if now = inside then rest else a :: rest
  | [], b :: bs =>
    let now := join left (!right)
    let rest := sweep join left (!right) now [] bs
    if now = inside then rest else b :: rest
  | a :: as, b :: bs =>
    if a < b then
      let now := join (!left) right
      let rest := sweep join (!left) right now as (b :: bs)
      if now = inside then rest else a :: rest
    else if b < a then
      let now := join left (!right)
      let rest := sweep join left (!right) now (a :: as) bs
      if now = inside then rest else b :: rest
    else
      let now := join (!left) (!right)
      let rest := sweep join (!left) (!right) now as bs
      if now = inside then rest else a :: rest
termination_by as bs => as.length + bs.length

/-- The code points at which `join` holds of the memberships in two sets. -/
def combine (join : Bool → Bool → Bool) (s t : CharSet) : CharSet :=
  ⟨sweep join false false false s.changes t.changes⟩

def union (s t : CharSet) : CharSet := combine or s t

def inter (s t : CharSet) : CharSet := combine and s t

def diff (s t : CharSet) : CharSet := combine (fun a b => a && !b) s t

def symmDiff (s t : CharSet) : CharSet := combine xor s t

def empty : CharSet := ⟨[]⟩

/-- All characters. -/
def full : CharSet := ⟨[0, 0xd800, 0xe000, 0x110000]⟩

def compl (s : CharSet) : CharSet := full.diff s

instance : Union CharSet := ⟨union⟩

instance : Inter CharSet := ⟨inter⟩

instance : SDiff CharSet := ⟨diff⟩

/-- The union of some sets. -/
def unions (sets : List CharSet) : CharSet := sets.foldl union empty

-- ---------------------------------------------------------------------------
-- Sets by their members
-- ---------------------------------------------------------------------------

def single (c : Char) : CharSet := ⟨[c.toNat, c.toNat + 1]⟩

/-- The characters from `first` to `last`. -/
def range (first last : Char) : CharSet := inter ⟨[first.toNat, last.toNat + 1]⟩ full

/-- The changes of a set, from its members in increasing order. -/
def changesOf : List Nat → List Nat
  | [] => []
  | code :: codes =>
    match changesOf codes with
    | first :: changes =>
      if first = code then first :: changes
      else if first = code + 1 then code :: changes
      else code :: (code + 1) :: first :: changes
    | [] => [code, code + 1]

def ofCodes (codes : List Nat) : CharSet :=
  ⟨changesOf (codes.mergeSort fun a b => decide (a ≤ b))⟩

/-- The only member of a set, if it has just one. -/
def only? (s : CharSet) : Option Char :=
  match s.changes with
  | [first, stop] => if stop = first + 1 then some (Char.ofNat first) else none
  | _ => none

/-- The least set above `s` that holds, with one of two paired code points, both of them and all
    others that are paired with the second. -/
def closeUnder (pairs : List (Nat × Nat)) (s : CharSet) : CharSet :=
  let hit := ofCodes ((pairs.filter fun (a, b) => s.hasCode a || s.hasCode b).map fun p => p.2)
  let back := ofCodes ((pairs.filter fun (_, b) => hit.hasCode b).map fun p => p.1)
  s ∪ hit ∪ back

-- ---------------------------------------------------------------------------
-- ASCII
-- ---------------------------------------------------------------------------

def ascii : CharSet := ⟨[0, 0x80]⟩

def asciiDigit : CharSet := range '0' '9'

def asciiLower : CharSet := range 'a' 'z'

def asciiUpper : CharSet := range 'A' 'Z'

def asciiLetter : CharSet := asciiLower ∪ asciiUpper

def asciiBlank : CharSet := range '\t' '\r' ∪ single ' '

/-- Letters, digits and the underscore. -/
def asciiWord : CharSet := asciiLetter ∪ asciiDigit ∪ single '_'

/-- The classes of ASCII characters that have names. -/
def named? : String → Option CharSet
  | "alnum" => some (asciiLetter ∪ asciiDigit)
  | "alpha" => some asciiLetter
  | "ascii" => some ascii
  | "blank" => some (single '\t' ∪ single ' ')
  | "cntrl" => some (range '\x00' '\x1f' ∪ single '\x7f')
  | "digit" => some asciiDigit
  | "graph" => some (range '!' '~')
  | "lower" => some asciiLower
  | "print" => some (range ' ' '~')
  | "punct" => some (range '!' '~' \ (asciiLetter ∪ asciiDigit))
  | "space" => some asciiBlank
  | "upper" => some asciiUpper
  | "word" => some asciiWord
  | "xdigit" => some (asciiDigit ∪ range 'a' 'f' ∪ range 'A' 'F')
  | _ => none

/-- The set with the other case of its letters between `a` and `z`. -/
def asciiCaseClosure (s : CharSet) : CharSet :=
  closeUnder ((List.range 26).map fun i => (0x41 + i, 0x61 + i)) s

end CharSet

end Restyle
