-- SUMMARY: Which stretches of a text a pattern matches.
import Restyle.Pattern.Parser

/-!
# Matching

Matching follows the meaning of patterns: from a set of places of the text, the places where matches
that start there can end. Sets of places are natural numbers whose bits stand for the places.
Repetitions without a bound need no more rounds than the text has places.
-/

namespace Restyle

namespace Anchor

/-- Whether a condition holds at a place of a text. -/
def holds (text : Array Char) (place : Nat) (a : Anchor) : Bool :=
  let before : Option Char := if place = 0 then none else text[place - 1]?
  let after : Option Char := text[place]?
  let inWord (unicode : Bool) (c : Option Char) : Bool :=
    c.any (if unicode then NamedClass.word else .asciiWord).contains
  match a with
  | textStart => before.isNone
  | textEnd => after.isNone
  | lineStart false => before.isNone || before == some '\n'
  | lineStart true =>
    before.isNone || before == some '\n' || (before == some '\r' && after != some '\n')
  | lineEnd false => after.isNone || after == some '\n'
  | lineEnd true =>
    after.isNone || after == some '\r' || (after == some '\n' && before != some '\r')
  | wordBoundary unicode => inWord unicode before != inWord unicode after
  | noWordBoundary unicode => inWord unicode before == inWord unicode after
  | wordStart unicode => !inWord unicode before && inWord unicode after
  | wordEnd unicode => inWord unicode before && !inWord unicode after
  | wordStartHalf unicode => !inWord unicode before
  | wordEndHalf unicode => !inWord unicode after

end Anchor

/-- A set of places between the characters of a text: bit `i` is the place before character `i`. -/
abbrev Places := Nat

namespace Places

/-- The places below `count` at which a condition holds. -/
def filter (count : Nat) (p : Nat → Bool) : Places :=
  (List.range count).foldl (fun places i => if p i then places ||| 1 <<< i else places) 0

/-- The places of one set that are not in another. -/
def minus (s t : Places) : Places := s ^^^ (s &&& t)

/-- The places reached by exactly so many steps. -/
def exactly (step : Places → Places) : Nat → Places → Places
  | 0, places => places
  | count + 1, places =>
    let next := step places
    if next = places then places else exactly step count next

/-- The places reached by at most so many steps, where `done` has been reached and `latest` is what
    the last step reached for the first time. -/
def upTo (step : Places → Places) : Nat → Places → Places → Places
  | 0, done, _ => done
  | count + 1, done, latest =>
    let fresh := minus (step latest) done
    if fresh = 0 then done else upTo step count (done ||| fresh) fresh

end Places

/-- A pattern laid on a text: its leaves are the places at which they match. -/
inductive Overlay where
  /-- Matches the empty text at some places. -/
  | stay (places : Places)
  /-- Matches the character behind some places. -/
  | step (places : Places)
  | seq (first second : Overlay)
  | either (first second : Overlay)
  | repeated (least : Nat) (more : Nat) (body : Overlay)

namespace Overlay

/-- The places where matches that start at some places can end. -/
def reach : Overlay → Places → Places
  | stay places, start => start &&& places
  | step places, start => (start &&& places) <<< 1
  | seq first second, start => second.reach (first.reach start)
  | either first second, start => first.reach start ||| second.reach start
  | repeated least more body, start =>
    let fixed := Places.exactly body.reach least start
    Places.upTo body.reach more fixed fixed

end Overlay

namespace Pattern

/-- Lays a pattern on a text. -/
def layOn (text : Array Char) : Pattern → Overlay
  | empty => .stay (Places.filter (text.size + 1) fun _ => true)
  | one set _ => .step (Places.filter text.size fun place => text[place]?.any set.contains)
  | anchor a => .stay (Places.filter (text.size + 1) fun place => a.holds text place)
  | group _ body => body.layOn text
  | seq first second => .seq (first.layOn text) (second.layOn text)
  | either first second => .either (first.layOn text) (second.layOn text)
  | repeated least most _ body =>
    let more := match most with
      | none => text.size + 1
      | some most => min (most - least) (text.size + 1)
    .repeated least more (body.layOn text)

/-- Whether a pattern matches somewhere in a text. -/
def isMatch (p : Pattern) (text : String) : Bool :=
  let chars := text.toList.toArray
  (p.layOn chars).reach (Places.filter (chars.size + 1) fun _ => true) != 0

end Pattern

end Restyle
