-- SUMMARY: The states of an automaton in the order in which they are made, and their number.
import Restyle.Text.ByteRanges
import Std.Data.HashMap

/-!
# Layouts of automata

An automaton that reads bytes is described by a layout: how many states are made, one after the
other, and how much room their transitions take. `Layout.build` counts them and gives up once they
take too much room.

Only for sets of characters that are read backward it matters how many states are there before. Such
states are shared by means of a table of a fixed size, and the place of a state in the table follows
from its number.
-/

namespace Restyle

/-- The states that have been made, and the bytes that their transitions and edges take. -/
structure Tally where
  states : Nat
  bytes : Nat

namespace Tally

/-- States, their transitions by ranges of bytes, and their edges that read nothing. -/
def of (states transitions edges : Nat) : Tally := ⟨states, 8 * transitions + 4 * edges⟩

def zero : Tally := of 0 0 0

def add (a b : Tally) : Tally := ⟨a.states + b.states, a.bytes + b.bytes⟩

instance : Add Tally := ⟨add⟩

def sum (tallies : List Tally) : Tally := tallies.foldl add zero

/-- The size of it all in bytes. -/
def size (t : Tally) : Nat := 32 * t.states + t.bytes

end Tally

-- ---------------------------------------------------------------------------
-- Shared states
-- ---------------------------------------------------------------------------

/-- States that read a range of bytes and lead to another state. The table knows at each of its
    places the state that came there last: where it leads to, its range, and its number. -/
structure Sharing where
  /-- The number of the next state. -/
  next : Nat
  table : Std.HashMap Nat (Nat × ByteRange × Nat) := {}

namespace Sharing

/-- The number of places in a table. -/
def places : Nat := 1000

/-- Mixes a number into a hash. -/
def mix (hash : UInt64) (n : Nat) : UInt64 := (hash ^^^ n.toUInt64) * 0x100000001b3

/-- The place of the state that reads a range and leads to a target. -/
def placeOf (target : Nat) (range : ByteRange) : Nat :=
  (mix (mix (mix 0xcbf29ce484222325 target) range.1) range.2).toNat % places

/-- The state that reads a range and leads to a target, if it is not forgotten. -/
def known? (s : Sharing) (target : Nat) (range : ByteRange) : Option Nat := do
  let (target', range', state) ← s.table[placeOf target range]?
  if target' = target ∧ range' = range then some state else none

/-- Makes a new state, which takes its place in the table. -/
def make (s : Sharing) (target : Nat) (range : ByteRange) : Sharing where
  next := s.next + 1
  table := s.table.insert (placeOf target range) (target, range, s.next)

/-- Makes the states of a sequence, the first range of which leads to the target. -/
def addSequence (s : Sharing) (target : Nat) : List ByteRange → Sharing
  | [] => s
  | range :: ranges =>
    match s.known? target range with
    | some state => s.addSequence state ranges
    | none => (s.make target range).addSequence s.next ranges

/-- The number of states for some sequences, if `before` states are there already: a choice between
    the sequences, the target of all, and the states that read ranges. -/
def statesFor (before : Nat) (sequences : List (List ByteRange)) : Nat :=
  let start : Sharing := { next := before + 2 }
  let done := sequences.foldl (fun s sequence => s.addSequence (before + 1) sequence) start
  done.next - before

end Sharing

-- ---------------------------------------------------------------------------
-- Layouts
-- ---------------------------------------------------------------------------

/-- How the states of an automaton are made. -/
inductive Layout where
  | made (tally : Tally)
  /-- A choice between sequences of ranges that are read from the last one to the first. -/
  | backward (sequences : List (List ByteRange))
  | inTurn (layouts : List Layout)
  | times (count : Nat) (layout : Layout)

namespace Layout

/-- States without any transitions of their own. -/
def states (count : Nat) : Layout := made (.of count 0 0)

/-- A state from which two others are reached. -/
def fork : Layout := made (.of 1 0 2)

/-- Adds to a tally unless it exceeds a limit. -/
def grow (limit : Nat) (t more : Tally) : Option Tally :=
  let sum := t + more
  if sum.size ≤ limit then some sum else none

/-- Repeats a step as long as it succeeds. -/
def iterate (step : Tally → Option Tally) : Nat → Tally → Option Tally
  | 0, t => some t
  | count + 1, t =>
    match step t with
    | some t => iterate step count t
    | none => none

mutual

/-- The tally after the states of a layout have been made, if it is within the limit. -/
def build (limit : Nat) : Layout → Tally → Option Tally
  | made tally, t => grow limit t tally
  | backward sequences, t =>
    grow limit t (.of (Sharing.statesFor t.states sequences) 0 sequences.length)
  | inTurn layouts, t => buildAll limit layouts t
  | times count layout, t => iterate (build limit layout) count t

def buildAll (limit : Nat) : List Layout → Tally → Option Tally
  | [], t => some t
  | layout :: layouts, t =>
    match build limit layout t with
    | some t => buildAll limit layouts t
    | none => none

end

/-- Whether an automaton stays within a limit. -/
def fits (limit : Nat) (layout : Layout) : Bool := (layout.build limit .zero).isSome

end Layout

end Restyle
