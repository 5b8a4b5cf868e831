-- SUMMARY: Sets of characters as sequences of byte ranges.
import Restyle.Text.CharSet

/-!
# Byte ranges

In UTF-8 a character is one lead byte and up to three bytes of six bits each. The encodings of a set
of characters are here split into sequences of ranges, such that every choice of one byte from each
range of a sequence encodes a member.
-/

namespace Restyle

/-- The bytes from the first to the second. -/
abbrev ByteRange := Nat × Nat

namespace ByteRanges

/-- The sequences for the numbers from `first` to `last`, written as a leading digit and `count`
    digits to base 64: first the part of the first block that is not whole, then the whole blocks,
    then the part of the last one. -/
def digitRanges : Nat → Nat → Nat → List (List ByteRange)
  | 0, first, last => [[(first, last)]]
  | count + 1, first, last =>
    let block := 64 ^ (count + 1)
    let low := first / block
    let high := last / block
    let lowRest := first % block
    let highRest := last % block
    if low = high then (digitRanges count lowRest highRest).map ((low, low) :: ·)
    else
      let head := if lowRest = 0 then []
        else (digitRanges count lowRest (block - 1)).map ((low, low) :: ·)
      let tail := if highRest = block - 1 then []
        else (digitRanges count 0 highRest).map ((high, high) :: ·)
      let wholeLow := if lowRest = 0 then low else low + 1
      let wholeHigh := if highRest = block - 1 then high else high - 1
      let whole := if wholeLow ≤ wholeHigh then
          [(wholeLow, wholeHigh) :: List.replicate (count + 1) (0, 63)]
        else []
      head ++ whole ++ tail

/-- The last code points that take one, two, three and four bytes. -/
def lengthLimits : List Nat := [0x7f, 0x7ff, 0xffff, 0x10ffff]

/-- The mark of the lead byte of a character with so many bytes behind it. -/
def leadMark : Nat → Nat
  | 0 => 0
  | 1 => 0xc0
  | 2 => 0xe0
  | _ => 0xf0

/-- Marks the digits as bytes: the first one as a lead byte, the others as bytes behind one. -/
def markBytes (count : Nat) : List ByteRange → List ByteRange
  | [] => []
  | (first, last) :: rest =>
    (first + leadMark count, last + leadMark count) ::
      rest.map fun (low, high) => (low + 0x80, high + 0x80)

/-- The sequences for the members of a set that take `count + 1` bytes. -/
def withTail (set : CharSet) (count : Nat) : List (List ByteRange) :=
  let from_ := if count = 0 then 0 else lengthLimits.getD (count - 1) 0 + 1
  let upTo := lengthLimits.getD count 0
  let members := set ∩ ⟨[from_, upTo + 1]⟩
  members.ranges.flatMap fun (first, last) => (digitRanges count first last).map (markBytes count)

end ByteRanges

/-- The sequences of byte ranges that encode the members of a set, in order. -/
def CharSet.byteRanges (set : CharSet) : List (List ByteRange) :=
  [0, 1, 2, 3].flatMap (ByteRanges.withTail set)

end Restyle
