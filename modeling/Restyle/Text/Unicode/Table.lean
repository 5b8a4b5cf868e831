-- SUMMARY: Sets of characters and case mappings given by compact tables.
import Restyle.Text.CharSet

/-!
# Tables

Data about characters is kept in rows of words. Numbers are written in base 36. A set of characters
is given by the lengths of runs that lie outside and inside of it in turn, from the first code point
on.
-/

namespace Restyle

/-- A digit in base 36. -/
def digit36 (c : Char) : Nat :=
  if c.isDigit then c.toNat - '0'.toNat else c.toNat - 'a'.toNat + 10

/-- A number in base 36. -/
def number36 (digits : List Char) : Nat := digits.foldl (fun n c => n * 36 + digit36 c) 0

/-- The words of a table. -/
def tableWords (rows : List String) : List (List Char) :=
  rows.flatMap fun row => row.toList.splitOn ' '

namespace CharSet

/-- The lengths that a word stands for: `3*4` is four runs of length three. -/
def runLengths (word : List Char) : List Nat :=
  match word.splitOn '*' with
  | [length, count] => List.replicate (number36 count) (number36 length)
  | _ => [number36 word]

/-- The sums of the lengths up to each place. -/
def runningSums (start : Nat) : List Nat → List Nat
  | [] => []
  | n :: ns => (start + n) :: runningSums (start + n) ns

/-- The set whose complement and itself take turns in runs of the given lengths. -/
def ofRuns (rows : List String) : CharSet :=
  ⟨runningSums 0 ((tableWords rows).flatMap runLengths)⟩

end CharSet

/-- A row of data about characters under some names. -/
structure TableEntry where
  names : String
  rows : List String

namespace TableEntry

def isNamed (entry : TableEntry) (name : String) : Bool :=
  (entry.names.toList.splitOn ' ').contains name.toList

/-- The first of the names. -/
def shortName (entry : TableEntry) : String :=
  String.ofList ((entry.names.toList.splitOn ' ').headD [])

def set (entry : TableEntry) : CharSet := CharSet.ofRuns entry.rows

end TableEntry

/-- Data about characters that is found by name. -/
abbrev Table := List TableEntry

namespace Table

def entry? (table : Table) (name : String) : Option TableEntry :=
  table.find? fun entry => entry.isNamed name

def set? (table : Table) (name : String) : Option CharSet :=
  (table.entry? name).map TableEntry.set

end Table

/-- Code points `first`, `first + stride`, … that are mapped by adding `delta`. -/
structure CaseRun where
  first : Nat
  count : Nat
  stride : Nat
  delta : Int

namespace CaseRun

/-- A number in base 36 with a sign. -/
def signed36 : List Char → Int
  | '-' :: digits => -(number36 digits : Int)
  | digits => number36 digits

def ofWord? (word : List Char) : Option CaseRun :=
  match word.splitOn ',' with
  | [first, count, stride, delta] =>
    some ⟨number36 first, number36 count, number36 stride, signed36 delta⟩
  | _ => none

def ofRows (rows : List String) : List CaseRun := (tableWords rows).filterMap ofWord?

/-- Whether a run maps a code point. -/
def covers (run : CaseRun) (code : Nat) : Bool :=
  run.first ≤ code && code < run.first + run.count * run.stride &&
    (code - run.first) % run.stride == 0

def target (run : CaseRun) (code : Nat) : Nat := ((code : Int) + run.delta).toNat

/-- The image of a character; most characters are their own. -/
def apply (runs : List CaseRun) (c : Char) : Char :=
  match runs.find? fun run => run.covers c.toNat with
  | some run => Char.ofNat (run.target c.toNat)
  | none => c

/-- The code points that a run maps, each with its image. -/
def pairs (run : CaseRun) : List (Nat × Nat) :=
  (List.range run.count).map fun i =>
    let code := run.first + i * run.stride
    (code, run.target code)

end CaseRun

end Restyle
