-- SUMMARY: The size of a pattern, by which very large ones are refused.
import Restyle.Pattern.Layout
import Restyle.Pattern.Shape
import Std.Data.HashSet

/-!
# The size of a pattern

A pattern is as large as an automaton that reads bytes and follows its shape, with all repetitions
written out. Such an automaton may read from either end of a text, and neither one may be too large.
Only the one that reads forward keeps track of groups. A choice between very many words needs no
automaton and has no limit.
-/

namespace Restyle

/-- From which end of the text bytes are read. -/
inductive Direction where
  | forward | backward
deriving DecidableEq

namespace Direction

/-- Things in the order in which they are met. -/
def order {α : Type} (direction : Direction) (list : List α) : List α :=
  match direction with
  | forward => list
  | backward => list.reverse

end Direction

namespace Size

-- ---------------------------------------------------------------------------
-- Sets of characters
-- ---------------------------------------------------------------------------

/-- The tails of sequences, grouped by equal heads that stand next to each other. -/
def tailsByHead {α : Type} [BEq α] : List (List α) → List (α × List (List α))
  | [] => []
  | [] :: rest => tailsByHead rest
  | (head :: tail) :: rest =>
    match tailsByHead rest with
    | (next, tails) :: groups =>
      if head == next then (next, tail :: tails) :: groups
      else (head, [tail]) :: (next, tails) :: groups
    | [] => [(head, [tail])]

/-- All sets of sequences that are left after some ranges; `fuel` bounds their length. -/
def residues : Nat → List (List ByteRange) → List (List (List ByteRange))
  | 0, _ => []
  | fuel + 1, sequences =>
    if sequences.all List.isEmpty then []
    else sequences :: (tailsByHead sequences).flatMap fun (_, tails) => residues fuel tails

/-- Reading forward, sequences that go on in the same way share their states. -/
def forwardSet (sequences : List (List ByteRange)) : Tally :=
  let distinct := (Std.HashSet.ofList (residues 4 sequences)).toList
  .of (1 + distinct.length) ((distinct.map fun rest => (tailsByHead rest).length).foldr (· + ·) 0) 0

def ofSet (direction : Direction) (s : CharSet) : Layout :=
  if s.changes.all fun change => change ≤ 0x80 then .made (.of 2 s.ranges.length 0)
  else
    match direction with
    | .forward => .made (forwardSet s.byteRanges)
    | .backward => .backward s.byteRanges

-- ---------------------------------------------------------------------------
-- Choices between literals
-- ---------------------------------------------------------------------------

/-- Of empty words at the start only one counts. -/
def dropExtraEmpty : List (List UInt8) → List (List UInt8)
  | [] :: [] :: words => dropExtraEmpty ([] :: words)
  | words => words

/-- The words up to each empty one, and those behind the last. -/
def splitAtEmpty : List (List UInt8) → List (List (List UInt8))
  | [] => [[]]
  | [] :: words => [] :: splitAtEmpty words
  | word :: words =>
    match splitAtEmpty words with
    | chunk :: chunks => (word :: chunk) :: chunks
    | [] => [[word]]

/-- The words of a chunk, those with the same first byte next to each other. -/
def byFirstByte (words : List (List UInt8)) : List (List (List UInt8)) :=
  let sorted := words.mergeSort fun a b => decide (a.headD 0 ≤ b.headD 0)
  (tailsByHead sorted).map fun group => group.2

/-- Words share states as far as they start alike; `fuel` bounds their length. -/
def sharedWords : Nat → List (List UInt8) → Tally
  | 0, _ => .zero
  | fuel + 1, words =>
    let chunks := splitAtEmpty (dropExtraEmpty words)
    let groups := chunks.map byFirstByte
    let full := groups.filter fun group => !group.isEmpty
    let own := full.map fun group =>
      Tally.of 1 (if group.length = 1 then 0 else group.length) 0
    let below := full.flatten.map fun tails =>
      if tails.all List.isEmpty then .zero else sharedWords fuel tails
    .of 1 0 (full.length + (chunks.length - 1)) + .sum own + .sum below

def bytes (chars : List Char) : List UInt8 := chars.flatMap String.utf8EncodeChar

/-- The words of a choice between literals only. -/
def words? (branches : List Shape) : Option (List (List UInt8)) :=
  branches.mapM fun branch => match branch with
    | .literal chars => some (bytes chars)
    | _ => none

def ofWords (direction : Direction) (words : List (List UInt8)) : Layout :=
  let words := words.map direction.order
  .made (.of 1 0 0 + sharedWords ((words.map List.length).foldr (· + ·) 1) words)

-- ---------------------------------------------------------------------------
-- Shapes
-- ---------------------------------------------------------------------------

/-- A repetition of something that may match the empty text or not. -/
def ofRepeated (least : Nat) (most : Option Nat) (maybeEmpty : Bool) (body : Layout) : Layout :=
  match least, most with
  | 0, some 1 => .inTurn [.fork, body, .states 1]
  | 0, none => .inTurn (if maybeEmpty then [body, .fork, .fork, .states 1] else [.fork, body])
  | least, none => .inTurn [.times least body, .fork]
  | least, some most =>
    let fixed := if least = 0 then .states 1 else .times least body
    if least = most then fixed
    else .inTurn [fixed, .states 1, .times (most - least) (.inTurn [.fork, body])]

/-- A choice. Its own states are made behind those of the second branch. -/
def ofBranches (branches : List Layout) : Layout :=
  .inTurn (branches.take 2 ++ .made (.of 2 0 branches.length) :: branches.drop 2)

mutual

def ofShape (direction : Direction) : Shape → Layout
  | .literal chars => .states (bytes chars).length
  | .set s => ofSet direction s
  | .anchor _ => .states 1
  | .capture body =>
    match direction with
    | .forward => .inTurn [.states 1, ofShape direction body, .states 1]
    | .backward => ofShape direction body
  | .repeated least most _ body =>
    let maybeEmpty := !body.extent.least.any fun bytes => 0 < bytes
    ofRepeated least most maybeEmpty (ofShape direction body)
  | .seq [] => .states 1
  | .seq parts => .inTurn (direction.order (ofShapes direction parts))
  | .choice branches =>
    match words? branches with
    | some words => ofWords direction words
    | none => ofBranches (ofShapes direction branches)

def ofShapes (direction : Direction) : List Shape → List Layout
  | [] => []
  | shape :: shapes => ofShape direction shape :: ofShapes direction shapes

end

mutual

/-- Whether all matches of a shape start with an anchor. -/
def leads (direction : Direction) (a : Anchor) : Shape → Bool
  | .anchor b => a == b
  | .capture body => leads direction a body
  | .repeated least _ _ body => 0 < least && leads direction a body
  | .seq parts =>
    let edge := direction.order ((leadsAll direction a parts).zip (parts.map Shape.extent))
    let empties := edge.takeWhile fun part => part.2.most == some 0
    (edge.take (empties.length + 1)).any fun part => part.1
  | .choice branches => !branches.isEmpty && (leadsAll direction a branches).all id
  | _ => false

def leadsAll (direction : Direction) (a : Anchor) : List Shape → List Bool
  | [] => []
  | shape :: shapes => leads direction a shape :: leadsAll direction a shapes

end

/-- A whole automaton. Unless it starts at an end of the text, it can skip bytes first. -/
def ofWhole (direction : Direction) (shape : Shape) : Layout :=
  let edge := match direction with
    | .forward => Anchor.textStart
    | .backward => .textEnd
  let start := if leads direction edge shape then Tally.of 1 0 0 else .of 3 1 2
  .inTurn [.made start, ofShape direction (.capture shape), .states 1]

-- ---------------------------------------------------------------------------
-- Tables of words
-- ---------------------------------------------------------------------------

/-- The least number of words that are looked up in a table. -/
def tableSize : Nat := 3000

/-- Whether a shape is a choice between words that are looked up in a table. -/
def isTable : Shape → Bool
  | .choice branches => (words? branches).any fun words => tableSize ≤ words.length
  | _ => false

end Size

namespace Pattern

/-- Patterns with larger automata are refused. -/
def sizeLimit : Nat := 10485760

/-- Whether a pattern is not too large. -/
def isWithinSize (p : Pattern) : Bool :=
  let shape := p.shape
  Size.isTable shape ||
    ((Size.ofWhole .forward shape).fits sizeLimit && (Size.ofWhole .backward shape).fits sizeLimit)

end Pattern

end Restyle
