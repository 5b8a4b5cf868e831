-- SUMMARY: The notation of regular expressions.
import Restyle.Pattern.NamedClass
import Restyle.Pattern.Size
import Restyle.Text.Unicode.Case

/-!
# The notation of patterns

A parser that knows the usual notation: alternatives, repetitions, groups with names and flags,
classes with set operations, escapes, and the verbose mode with blanks and comments. There are no
back-references and no conditions on the text around a match beyond anchors.

Parsing needs `fuel`, since groups and classes nest; `Pattern.parse?` gives it enough for the text.
-/

namespace Restyle

namespace Pattern

/-- The modes that a pattern can switch. -/
structure Flags where
  ignoreCase : Bool := false
  multiLine : Bool := false
  dotAll : Bool := false
  /-- Repetitions prefer few over many. -/
  lazy : Bool := false
  unicode : Bool := true
  crlf : Bool := false
  /-- Blanks and comments in the pattern do not count. -/
  verbose : Bool := false

/-- What is left of the text, the modes in force, and the group names in use. -/
structure ParseState where
  rest : List Char
  flags : Flags
  names : List String

/-- Parsing may fail. The reason is never asked for. -/
abbrev Parse := StateT ParseState Option

namespace Parse

def fail {α : Type} : Parse α := fun _ => none

/-- Goes on only if a condition holds. -/
def ensure (condition : Bool) : Parse Unit := if condition then pure () else fail

def flags : Parse Flags := do return (← get).flags

def setFlags (flags : Flags) : Parse Unit := modify fun s => { s with flags }

/-- The next character, if there is one. -/
def peek? : Parse (Option Char) := do return (← get).rest.head?

/-- The next character, which has to be there. -/
def peek : Parse Char := do
  match ← peek? with
  | some c => return c
  | none => fail

def skip (count : Nat) : Parse Unit := modify fun s => { s with rest := s.rest.drop count }

/-- Text without the blanks and comments at its start; `fuel` bounds its length. -/
def dropBlanks : Nat → List Char → List Char
  | 0, text => text
  | _, [] => []
  | fuel + 1, c :: text =>
    if NamedClass.blank.contains c then dropBlanks fuel text
    else if c = '#' then dropBlanks fuel (text.dropWhile fun d => d != '\n')
    else c :: text

/-- Skips blanks and comments in verbose mode. -/
def skipBlanks : Parse Unit := do
  if (← flags).verbose then modify fun s => { s with rest := dropBlanks s.rest.length s.rest }

/-- Skips one character, and blanks behind it. -/
def advance : Parse Unit := do
  skip 1
  skipBlanks

/-- Takes one character. -/
def next : Parse Char := do
  let c ← peek
  skip 1
  return c

/-- The text behind another at its start. -/
def behind? (start text : List Char) : Option (List Char) :=
  if start.isPrefixOf text then some (text.drop start.length) else none

/-- Skips a given text if it comes next. -/
def accept (text : String) : Parse Bool := do
  let s ← get
  match behind? text.toList s.rest with
  | some rest =>
    set { s with rest }
    return true
  | none => return false

/-- What is seen of a text in verbose mode: blanks are left out, and the mark of a comment too, but
    not what the comment says. -/
def seen (text : List Char) : List Char :=
  match text.dropWhile NamedClass.blank.contains with
  | '#' :: comment => comment.dropWhile NamedClass.blank.contains
  | other => other

/-- The character after the next one. In verbose mode it is the one that is seen; if nothing is, the
    character itself counts. -/
def peekAfter? : Parse (Option Char) := do
  let s ← get
  let rest := s.rest.drop 1
  return if s.flags.verbose then (seen rest).head? <|> rest.head? else rest.head?

end Parse

open Parse

/-! ## Modes applied to sets -/

/-- Closes a set under case if the mode asks for it. -/
def closeCase (flags : Flags) (set : CharSet) : CharSet :=
  if !flags.ignoreCase then set
  else if flags.unicode then Unicode.caseClosure set
  else set.asciiCaseClosure

/-- Negates a set if asked to. Without Unicode a negated set would hold parts of characters. -/
def negateIf (flags : Flags) (negated : Bool) (set : CharSet) : Parse CharSet :=
  if negated then
    if flags.unicode then return set.compl else fail
  else return set

/-- A single character. -/
def literal (c : Char) : Parse Pattern := do return .one (closeCase (← flags) (.single c)) 0

/-! ## Escapes -/

/-- What a part of a pattern stands for. -/
inductive Piece where
  | char (c : Char)
  | set (s : CharSet)
  | anchor (a : Anchor)

def hexValue? (c : Char) : Option Nat :=
  if c.isDigit then some (c.toNat - '0'.toNat)
  else if 'a' ≤ c ∧ c ≤ 'f' then some (c.toNat - 'a'.toNat + 10)
  else if 'A' ≤ c ∧ c ≤ 'F' then some (c.toNat - 'A'.toNat + 10)
  else none

/-- The character with a code, unless the code is a surrogate or too large. -/
def charOfCode? (code : Nat) : Option Char :=
  if code < 0xd800 ∨ (0xe000 ≤ code ∧ code < 0x110000) then some (Char.ofNat code) else none

/-- A given number of hexadecimal digits. -/
def hexDigits (value : Nat) : Nat → Parse Nat
  | 0 => return value
  | count + 1 => do
    match hexValue? (← peek) with
    | some digit =>
      advance
      hexDigits (value * 16 + digit) count
    | none => fail

/-- Hexadecimal digits up to a closing brace. -/
def hexInBraces (value : Option Nat) : Nat → Parse Nat
  | 0 => fail
  | fuel + 1 => do
    let c ← peek
    advance
    if c = '\x7d' then
      match value with
      | some value => return value
      | none => fail
    else
      match hexValue? c with
      | some digit => hexInBraces (some (value.getD 0 * 16 + digit)) fuel
      | none => fail

/-- A character by number, after the letter that says how many digits it has. Without Unicode, two
    digits stand for a byte, which has to be a character of its own. -/
def hexChar (letter : Char) (fuel : Nat) : Parse Char := do
  skipBlanks
  let braced := (← peek) == '\x7b'
  let code ← if braced then do
      advance
      hexInBraces none fuel
    else hexDigits 0 (if letter = 'x' then 2 else if letter = 'u' then 4 else 8)
  match charOfCode? code with
  | some c =>
    ensure ((← flags).unicode || braced || letter != 'x' || code < 0x80)
    return c
  | none => fail

/-- The text up to a closing brace. -/
def untilBrace (done : List Char) : Nat → Parse (List Char)
  | 0 => fail
  | fuel + 1 => do
    let c ← peek
    if c = '\x7d' then
      skip 1
      return done.reverse
    else
      advance
      untilBrace (c :: done) fuel

/-- A class of characters by property, after the letter that introduces it. -/
def unicodeClass (negated : Bool) (fuel : Nat) : Parse CharSet := do
  skipBlanks
  let f ← flags
  ensure f.unicode
  let found ← if (← peek) = '\x7b' then do
      advance
      let name ← untilBrace [] fuel
      pure (NamedClass.ofText? name)
    else do
      let c ← peek
      ensure (c != '\\')
      advance
      pure ((NamedClass.ofName? (NamedClass.normalName [c])).map fun s => (s, false))
  match found with
  | some (set, excluded) => negateIf f (negated != excluded) (closeCase f set)
  | none => fail

/-- A class of characters by a single letter. -/
def letterClass (letter : Char) : Parse CharSet := do
  let f ← flags
  let set : CharSet := match letter.toLower with
    | 'd' => if f.unicode then NamedClass.digit else .asciiDigit
    | 's' => if f.unicode then NamedClass.blank else .asciiBlank
    | _ => if f.unicode then NamedClass.word else .asciiWord
  negateIf f letter.isUpper set

/-- The letters and dashes in a special word boundary. -/
def boundaryName (done : List Char) : Nat → Parse (List Char)
  | 0 => fail
  | fuel + 1 => do
    match ← peek? with
    | some c =>
      if c.isAlpha || c == '-' then
        advance
        boundaryName (c :: done) fuel
      else return done.reverse
    | none => return done.reverse

/-- A special word boundary, behind its opening brace. -/
def namedBoundary (unicode : Bool) (fuel : Nat) : Parse Anchor := do
  let name ← boundaryName [] fuel
  ensure ((← peek) == '\x7d')
  skip 1
  match String.ofList name with
  | "start" => return .wordStart unicode
  | "end" => return .wordEnd unicode
  | "start-half" => return .wordStartHalf unicode
  | "end-half" => return .wordEndHalf unicode
  | _ => fail

/-- A word boundary, which may be a special one. Braces without a letter belong to a repetition. -/
def boundary (fuel : Nat) : Parse Anchor := do
  let unicode := (← flags).unicode
  let before ← get
  if (← peek?) != some '\x7b' then return .wordBoundary unicode
  advance
  let c ← peek
  if !(c.isAlpha || c == '-') then
    set before
    return .wordBoundary unicode
  namedBoundary unicode fuel

/-- The characters with a meaning of their own. -/
def isMeta (c : Char) : Bool := "\\.+*?()|[]\x7b\x7d^$#&-~".toList.contains c

/-- The characters that may stand behind a backslash for themselves. -/
def isEscapable (c : Char) : Bool :=
  isMeta c || (c.toNat < 0x80 && !c.isAlphanum && c != '<' && c != '>')

/-- What a character behind a backslash stands for. -/
def escaped (c : Char) (fuel : Nat) : Parse Piece := do
  let unicode := (← flags).unicode
  if isEscapable c then return .char c
  match c with
  | 'x' | 'u' | 'U' => return .char (← hexChar c fuel)
  | 'p' => return .set (← unicodeClass false fuel)
  | 'P' => return .set (← unicodeClass true fuel)
  | 'd' | 's' | 'w' | 'D' | 'S' | 'W' => return .set (← letterClass c)
  | 'a' => return .char '\x07'
  | 'f' => return .char '\x0c'
  | 't' => return .char '\t'
  | 'n' => return .char '\n'
  | 'r' => return .char '\r'
  | 'v' => return .char '\x0b'
  | 'A' => return .anchor .textStart
  | 'z' => return .anchor .textEnd
  | 'b' => return .anchor (← boundary fuel)
  | 'B' => return .anchor (.noWordBoundary unicode)
  | '<' => return .anchor (.wordStart unicode)
  | '>' => return .anchor (.wordEnd unicode)
  | _ => fail

/-- What follows a backslash. -/
def escape (fuel : Nat) : Parse Piece := do escaped (← next) fuel

/-! ## Classes -/

/-- The operations that join two sets inside of a class. -/
inductive SetOp where
  | inter | diff | symmDiff

namespace SetOp

def apply : SetOp → CharSet → CharSet → CharSet
  | inter => CharSet.inter
  | diff => CharSet.diff
  | symmDiff => CharSet.symmDiff

end SetOp

/-- The operator that comes next, if one does. -/
def setOp? : Parse (Option SetOp) := do
  if ← accept "&&" then return some .inter
  if ← accept "--" then return some .diff
  if ← accept "~~" then return some .symmDiff
  return none

/-- A set with the levels of brackets and operators in its notation. -/
structure Nested where
  set : CharSet
  levels : Nat

/-- The items of a class up to an operator or the end. -/
structure Items where
  set : CharSet := .empty
  count : Nat := 0
  /-- The most levels that an item has. -/
  levels : Nat := 0

namespace Items

def add (items : Items) (set : CharSet) (levels : Nat) : Items :=
  { set := items.set ∪ set, count := items.count + 1, levels := max items.levels levels }

/-- The items as one operand. Several items are one level more than the deepest of them. -/
def operand (items : Items) : Nested :=
  { set := items.set, levels := items.levels + if items.count ≤ 1 then 0 else 1 }

end Items

/-- Joins the sets on both sides of an operator. -/
def joinSets (flags : Flags) (left : Option (Nested × SetOp)) (right : Nested) : Nested :=
  match left with
  | none => right
  | some (left, op) =>
    { set := op.apply (closeCase flags left.set) (closeCase flags right.set)
      levels := max left.levels right.levels + 1 }

/-- The class of ASCII characters by name that a text starts with, between `[:` and `:]`: whether it
    is negated, its set, and the text behind it. -/
def asciiClassOf? (text : List Char) : Option (Bool × CharSet × List Char) := do
  let opened ← behind? ['[', ':'] text
  let negated := behind? ['^'] opened
  let inner := negated.getD opened
  let rest ← behind? [':', ']'] (inner.dropWhile fun c => c != ':')
  let named ← CharSet.named? (String.ofList (inner.takeWhile fun c => c != ':'))
  return (negated.isSome, named, rest)

/-- A class of ASCII characters by name, if one comes next. -/
def asciiClass? : Parse (Option CharSet) := do
  let s ← get
  match asciiClassOf? s.rest with
  | some (negated, named, rest) =>
    set { s with rest }
    return some (← negateIf s.flags negated (closeCase s.flags named))
  | none => return none

/-- One item of a class. -/
def classItem (fuel : Nat) : Parse Piece := do
  let c ← next
  if c = '\\' then escape fuel else return .char c

/-- A character of a class. Without Unicode only ASCII is allowed. -/
def classChar (c : Char) : Parse Char := do
  ensure ((← flags).unicode || c.toNat < 0x80)
  return c

/-- Whether a dash comes next that makes a range of the items around it. -/
def rangeDash : Parse Bool := do
  let c ← peek
  let after ← peekAfter?
  return c == '-' && after != some ']' && after != some '-'

/-- The set of an item that stands alone. -/
def soleItem : Piece → Parse CharSet
  | .char c => return .single (← classChar c)
  | .set s => return s
  | .anchor _ => fail

/-- The range between two items. -/
def rangeOf : Piece → Piece → Parse CharSet
  | .char first, .char last => do
    ensure (first ≤ last)
    return .range (← classChar first) (← classChar last)
  | _, _ => fail

/-- The range of characters that starts with an item, or the item alone. -/
def rangeFrom (first : Piece) (fuel : Nat) : Parse CharSet := do
  skipBlanks
  if ← rangeDash then
    advance
    rangeOf first (← classItem fuel)
  else soleItem first

/-- An item of a class, or a range of characters. -/
def classRange (fuel : Nat) : Parse CharSet := do rangeFrom (← classItem fuel) fuel

/-- Dashes at the start of a class stand for themselves. -/
def leadingDashes (items : Items) : Nat → Parse Items
  | 0 => fail
  | fuel + 1 => do
    if (← peek) = '-' then
      advance
      leadingDashes (items.add (.single '-') 0) fuel
    else return items

/-- The characters that stand for themselves at the start of a class. -/
def classStart (fuel : Nat) : Parse Items := do
  let items ← leadingDashes {} fuel
  if items.count = 0 && (← peek) = ']' then
    advance
    let _ ← peek
    return items.add (.single ']') 0
  return items

/-- The start of a class behind its bracket: whether it is negated, and the characters that stand
    for themselves there. -/
def classOpening (fuel : Nat) : Parse (Bool × Items) := do
  skipBlanks
  let negated ← if (← peek) = '^' then do
      advance
      pure true
    else pure false
  return (negated, ← classStart fuel)

/-- The rest of a class with the items `items` so far, behind the operand and operator in `left`. -/
def classRest (negated : Bool) (left : Option (Nested × SetOp)) (items : Items) :
    Nat → Parse Nested
  | 0 => fail
  | fuel + 1 => do
    skipBlanks
    let c ← peek
    if c = '[' then
      match ← asciiClass? with
      | some set => classRest negated left (items.add set 0) fuel
      | none =>
        skip 1
        let (innerNegated, start) ← classOpening fuel
        let inner ← classRest innerNegated none start fuel
        classRest negated left (items.add inner.set inner.levels) fuel
    else if c = ']' then
      skip 1
      let f ← flags
      let whole := joinSets f left items.operand
      return { set := ← negateIf f negated (closeCase f whole.set), levels := whole.levels + 1 }
    else
      match ← setOp? with
      | some op => classRest negated (some (joinSets (← flags) left items.operand, op)) {} fuel
      | none => classRest negated left (items.add (← classRange fuel) 0) fuel

/-! ## Groups and repetitions -/

/-- A letter that names a mode. -/
def setFlag? (letter : Char) (value : Bool) (f : Flags) : Option Flags :=
  match letter with
  | 'i' => some { f with ignoreCase := value }
  | 'm' => some { f with multiLine := value }
  | 's' => some { f with dotAll := value }
  | 'U' => some { f with lazy := value }
  | 'u' => some { f with unicode := value }
  | 'R' => some { f with crlf := value }
  | 'x' => some { f with verbose := value }
  | _ => none

/-- Modes up to `:` or `)`: the modes, whether any were named, and the character that ends them. -/
def flagItems (f : Flags) (seen : List Char) : Nat → Parse (Flags × Bool × Char)
  | 0 => fail
  | fuel + 1 => do
    let c ← next
    if c = ':' || c = ')' then
      ensure (seen.head? != some '-')
      return (f, !seen.isEmpty, c)
    else
      ensure (!seen.contains c)
      if c = '-' then flagItems f (c :: seen) fuel
      else
        match setFlag? c (!seen.contains '-') f with
        | some f => flagItems f (c :: seen) fuel
        | none => fail

/-- Whether a character may stand in the name of a group. -/
def isNameChar (c : Char) (first : Bool) : Bool :=
  c == '_' || Unicode.Later.alphabetic.contains c ||
    !first && (c == '.' || c == '[' || c == ']' || Unicode.Later.numeric.contains c)

/-- Whether characters make up the name of a group. -/
def isGroupName : List Char → Bool
  | [] => false
  | c :: cs => isNameChar c true && cs.all fun c => isNameChar c false

/-- The name of a group up to `>`. No name may be used twice. -/
def groupName : Parse Unit := do
  let s ← get
  let name := s.rest.takeWhile fun c => c != '>'
  match s.rest.dropWhile fun c => c != '>' with
  | [] => fail
  | _ :: rest =>
    ensure (isGroupName name && !s.names.contains (String.ofList name))
    set { s with rest, names := String.ofList name :: s.names }

/-- Decimal digits, and the blanks that verbose mode allows between them. -/
def decimalDigits (value : Option Nat) : Nat → Parse (Option Nat)
  | 0 => fail
  | fuel + 1 => do
    match ← peek? with
    | some c =>
      if c.isDigit then
        advance
        decimalDigits (some (value.getD 0 * 10 + (c.toNat - '0'.toNat))) fuel
      else return value
    | none => return value

/-- Skips blanks in any mode. -/
def skipSpaces : Parse Unit :=
  modify fun s => { s with rest := s.rest.dropWhile NamedClass.blank.contains }

/-- A number between blanks, if there is one. It has to fit into 32 bits. -/
def decimal? (fuel : Nat) : Parse (Option Nat) := do
  skipSpaces
  let value ← decimalDigits none fuel
  skipSpaces
  ensure (value.all fun n => n < 0x100000000)
  return value

/-- A number between blanks. -/
def decimal (fuel : Nat) : Parse Nat := do
  match ← decimal? fuel with
  | some n => return n
  | none => fail

/-- The bounds of a counted repetition, behind its opening brace. -/
def counts (fuel : Nat) : Parse (Nat × Option Nat) := do
  skipBlanks
  let least ← decimal fuel
  let bounds ← if (← peek) = ',' then do
      advance
      if (← peek) = '\x7d' then pure (least, none)
      else do
        let most ← decimal fuel
        pure (least, some most)
    else pure (least, some least)
  ensure ((← peek) == '\x7d')
  ensure (bounds.2.all fun most => bounds.1 ≤ most)
  advance
  return bounds

/-- The bounds of a repetition, if one comes next. -/
def bounds? (fuel : Nat) : Parse (Option (Nat × Option Nat)) := do
  match ← peek? with
  | some '?' =>
    skip 1
    return some (0, some 1)
  | some '*' =>
    skip 1
    return some (0, none)
  | some '+' =>
    skip 1
    return some (1, none)
  | some '\x7b' =>
    skip 1
    return some (← counts fuel)
  | _ => return none

/-- What a repetition makes of the part before it, if one comes next. A mark behind it says whether
    it prefers many or few rounds. -/
def repetition? (fuel : Nat) : Parse (Option (Pattern → Pattern)) := do
  match ← bounds? fuel with
  | some (least, most) =>
    let marked ← accept "?"
    return some (.repeated least most (marked == (← flags).lazy))
  | none => return none

/-- The pattern of a part. -/
def ofPiece : Piece → Parse Pattern
  | .char c => literal c
  | .set s => return .one s 0
  | .anchor a => return .anchor a

/-- A single character or anchor that starts with a given character. -/
def primitiveFrom (c : Char) (fuel : Nat) : Parse Pattern := do
  let f ← flags
  match c with
  | '\\' => ofPiece (← escape fuel)
  | '.' =>
    ensure f.unicode
    if f.dotAll then return .one .full 0
    else if f.crlf then return .one (CharSet.single '\n' ∪ .single '\r').compl 0
    else return .one (CharSet.single '\n').compl 0
  | '^' => return .anchor (if f.multiLine then .lineStart f.crlf else .textStart)
  | '$' => return .anchor (if f.multiLine then .lineEnd f.crlf else .textEnd)
  | c => literal c

/-- A single character or anchor. -/
def primitive (fuel : Nat) : Parse Pattern := do primitiveFrom (← next) fuel

/-- Whether a condition on the text around a match comes next. -/
def looksAround : Parse Bool := do
  let rest := (← get).rest
  return ["?=", "?!", "?<=", "?<!"].any fun start => start.toList.isPrefixOf rest

/-- What is before the body of a group: whether the group captures, or nothing if it only switches
    modes and has no body. -/
def groupOpening (outer : Flags) (fuel : Nat) : Parse (Option Bool) := do
  if (← accept "?P<") || (← accept "?<") then
    groupName
    return some true
  else if ← accept "?" then
    let (inner, named, stop) ← flagItems outer [] fuel
    ensure (named || stop != ')')
    setFlags inner
    return if stop = ')' then none else some false
  else return some true

mutual

/-- Alternatives up to the end of the group or of the text. -/
def alternatives : Nat → Parse Pattern
  | 0 => fail
  | fuel + 1 => do
    let first ← branch [] fuel
    if ← accept "|" then return .either first (← alternatives fuel)
    else return first

/-- One alternative, behind the parts in `done`, the last one first. A switch of modes is a part
    too, but one that cannot be repeated. -/
def branch (done : List (Option Pattern)) : Nat → Parse Pattern
  | 0 => fail
  | fuel + 1 => do
    skipBlanks
    match ← peek? with
    | none | some ')' | some '|' => return .ofParts (done.map fun part => part.getD .empty)
    | some '(' => branch ((← group? fuel) :: done) fuel
    | some '[' =>
      skip 1
      let (negated, start) ← classOpening fuel
      let set ← classRest negated none start fuel
      branch (some (.one set.set set.levels) :: done) fuel
    | some _ =>
      match ← repetition? fuel, done with
      | some again, some last :: before => branch (some (again last) :: before) fuel
      | some _, _ => fail
      | none, _ => branch (some (← primitive fuel) :: done) fuel

/-- A group, or nothing if it only switches modes. -/
def group? : Nat → Parse (Option Pattern)
  | 0 => fail
  | fuel + 1 => do
    advance
    ensure !(← looksAround)
    let outer ← flags
    match ← groupOpening outer fuel with
    | none => return none
    | some captures =>
      let body ← alternatives fuel
      ensure (← accept ")")
      setFlags outer
      return some (.group captures body)

end

/-- Whether a pattern is neither nested too deep nor too large. -/
def isWithinLimits (p : Pattern) : Bool := p.depth .none ≤ depthLimit && p.isWithinSize

/-- The pattern that stands at the start of a text, and what is left of the text behind it. -/
def read? (text : List Char) : Option (Pattern × List Char) :=
  ((alternatives (3 * text.length + 3)).run { rest := text, flags := {}, names := [] }).map
    fun (pattern, state) => (pattern, state.rest)

/-- The pattern that a text denotes, if it is a regular expression within the limits. -/
def parse? (text : String) : Option Pattern :=
  match read? text.toList with
  | some (pattern, []) => if pattern.isWithinLimits then some pattern else none
  | _ => none

/-- The pattern for whole names: the text is put between anchors. -/
def wholeName? (format : String) : Option Pattern := parse? ("^(?:" ++ format ++ ")$")

end Pattern

end Restyle
