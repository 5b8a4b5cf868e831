-- SUMMARY: Patterns in a simplified form.
import Restyle.Pattern.Basic

/-!
# Shapes

A shape is a pattern without redundant structure: characters that follow each other are one literal,
sequences and choices are flat, repetitions of the empty text are cut down, and a choice between
characters is a set. The size of a pattern is measured on its shape.
-/

namespace Restyle

/-- A pattern in its simplified form. The empty sequence stands for the empty text. -/
inductive Shape where
  | literal (chars : List Char)
  | set (s : CharSet)
  | anchor (a : Anchor)
  | capture (body : Shape)
  | repeated (least : Nat) (most : Option Nat) (greedy : Bool) (body : Shape)
  | seq (parts : List Shape)
  | choice (branches : List Shape)

/-- The least and the greatest number of bytes that a shape matches. There is no least one if
    nothing can be matched, and no greatest one either if there is no bound. -/
structure Extent where
  least : Option Nat
  most : Option Nat

namespace Extent

def exactly (bytes : Nat) : Extent := ⟨some bytes, some bytes⟩

/-- Both extents in turn. -/
def add (a b : Extent) : Extent :=
  ⟨do return (← a.least) + (← b.least), do return (← a.most) + (← b.most)⟩

/-- One extent or the other. -/
def join (a b : Extent) : Extent :=
  ⟨do return min (← a.least) (← b.least), do return max (← a.most) (← b.most)⟩

def times (least : Nat) (most : Option Nat) (e : Extent) : Extent :=
  ⟨e.least.map (· * least), do return (← e.most) * (← most)⟩

def ofSet (s : CharSet) : Extent :=
  match s.ranges.head?, s.ranges.getLast? with
  | some (first, _), some (_, last) =>
    ⟨some (Char.ofNat first).utf8Size, some (Char.ofNat last).utf8Size⟩
  | _, _ => ⟨none, none⟩

end Extent

namespace Shape

-- ---------------------------------------------------------------------------
-- Measures
-- ---------------------------------------------------------------------------

mutual

def extent : Shape → Extent
  | literal chars => .exactly ((chars.map Char.utf8Size).foldr (· + ·) 0)
  | set s => .ofSet s
  | anchor _ => .exactly 0
  | capture body => body.extent
  | repeated least most _ body => body.extent.times least most
  | seq parts => extentInTurn parts
  | choice branches => extentOfAny branches

def extentInTurn : List Shape → Extent
  | [] => .exactly 0
  | part :: parts => part.extent.add (extentInTurn parts)

def extentOfAny : List Shape → Extent
  | [] => ⟨none, none⟩
  | [branch] => branch.extent
  | branch :: branches => branch.extent.join (extentOfAny branches)

end

mutual

/-- The number of nodes. -/
def weight : Shape → Nat
  | literal _ | set _ | anchor _ => 1
  | capture body | repeated _ _ _ body => body.weight + 1
  | seq parts => totalWeight parts + 1
  | choice branches => totalWeight branches + 1

def totalWeight : List Shape → Nat
  | [] => 0
  | shape :: shapes => shape.weight + totalWeight shapes

end

mutual

/-- Whether two shapes are alike. Captures are told apart by their place, so no two are. -/
def alike : Shape → Shape → Bool
  | literal a, literal b => a == b
  | set a, set b => a == b
  | anchor a, anchor b => a == b
  | repeated least most greedy body, repeated least' most' greedy' body' =>
    least == least' && most == most' && greedy == greedy' && body.alike body'
  | seq parts, seq parts' => allAlike parts parts'
  | choice branches, choice branches' => allAlike branches branches'
  | _, _ => false

def allAlike : List Shape → List Shape → Bool
  | [], [] => true
  | a :: as, b :: bs => a.alike b && allAlike as bs
  | _, _ => false

end

-- ---------------------------------------------------------------------------
-- Construction
-- ---------------------------------------------------------------------------

/-- A set of characters; one character alone is a literal. -/
def ofSet (s : CharSet) : Shape :=
  match s.only? with
  | some c => literal [c]
  | none => set s

/-- The parts that a shape adds to a sequence. -/
def parts : Shape → List Shape
  | seq parts => parts
  | shape => [shape]

/-- Puts a part in front of others. -/
def consPart : Shape → List Shape → List Shape
  | literal a, literal b :: rest => literal (a ++ b) :: rest
  | part, rest => part :: rest

def ofParts : List Shape → Shape
  | [part] => part
  | parts => seq parts

/-- A repetition. What matches only the empty text need not be repeated. -/
def ofRepeated (least : Nat) (most : Option Nat) (greedy : Bool) (body : Shape) : Shape :=
  let isEmpty := body.extent.most == some 0
  let least := if isEmpty then min least 1 else least
  let most := if isEmpty then some (min (most.getD 1) 1) else most
  if most = some 0 then seq []
  else if least = 1 ∧ most = some 1 then body
  else repeated least most greedy body

/-- The branches that a shape adds to a choice. -/
def branches : Shape → List Shape
  | choice branches => branches
  | shape => [shape]

/-- The set of the characters between which a list of shapes chooses. -/
def singleChars? (shapes : List Shape) : Option CharSet :=
  (shapes.mapM fun shape => match shape with
    | literal [c] => some c.toNat
    | _ => none).map CharSet.ofCodes

/-- The union of a list of sets. -/
def setUnion? (shapes : List Shape) : Option CharSet :=
  (shapes.mapM fun shape => match shape with
    | set s => some s
    | _ => none).map CharSet.unions

/-- The parts of shapes that are all sequences. -/
def sequences? (shapes : List Shape) : Option (List (List Shape)) :=
  shapes.mapM fun shape => match shape with
    | seq parts => some parts
    | _ => none

/-- The longest common start of two sequences. -/
def commonStart : List Shape → List Shape → List Shape
  | a :: as, b :: bs => if a.alike b then a :: commonStart as bs else []
  | _, _ => []

/-- The longest common start of some sequences. -/
def sharedStart : List (List Shape) → List Shape
  | [] => []
  | first :: rest => rest.foldl commonStart first

/-- A choice; `fuel` bounds how often a common start of all branches is put in front of it. -/
def choose : Nat → List Shape → Shape
  | 0, shapes => choice shapes
  | fuel + 1, shapes =>
    match shapes.flatMap branches with
    | [shape] => shape
    | shapes =>
      match singleChars? shapes, setUnion? shapes, sequences? shapes with
      | some s, _, _ | _, some s, _ => ofSet s
      | _, _, some sequences =>
        match sharedStart sequences with
        | [] => choice shapes
        | start =>
          let rests := sequences.map fun parts => ofParts (parts.drop start.length)
          ofParts (start.foldr consPart (parts (choose fuel rests)))
      | _, _, _ => choice shapes

def ofChoice (shapes : List Shape) : Shape := choose (totalWeight shapes + 1) shapes

end Shape

namespace Pattern

/-- A pattern as the parts of a sequence or as the branches of a choice that may get more. -/
inductive Form where
  | inTurn (parts : List Shape)
  | anyOf (branches : List Shape)

namespace Form

def shape : Form → Shape
  | inTurn parts => Shape.ofParts parts
  | anyOf branches => Shape.ofChoice branches

/-- The parts that a form adds to a sequence. -/
def toParts : Form → List Shape
  | inTurn parts => parts
  | anyOf branches => (Shape.ofChoice branches).parts

/-- The branches that a form adds to a choice. -/
def toBranches : Form → List Shape
  | inTurn parts => [Shape.ofParts parts]
  | anyOf branches => branches

end Form

def form : Pattern → Form
  | empty => .inTurn []
  | one set _ => .inTurn [Shape.ofSet set]
  | anchor a => .inTurn [.anchor a]
  | group true body => .inTurn [.capture body.form.shape]
  | group false body => .inTurn body.form.toParts
  | seq first second => .inTurn (first.form.toParts.foldr Shape.consPart second.form.toParts)
  | either first second => .anyOf (first.form.shape :: second.form.toBranches)
  | repeated least most greedy body =>
    .inTurn (Shape.ofRepeated least most greedy body.form.shape).parts

/-- The simplified form of a pattern. -/
def shape (p : Pattern) : Shape := p.form.shape

end Pattern

end Restyle
