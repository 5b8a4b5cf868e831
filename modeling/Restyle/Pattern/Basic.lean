-- SUMMARY: Regular expressions as data.
import Restyle.Text.CharSet

/-!
# Patterns

A pattern describes stretches of a text. The tree follows the notation, with the modes of the
notation worked into its leaves: parts that follow each other form a right-nested chain of `seq`,
and alternatives one of `either`, which ends at the border of a group.
-/

namespace Restyle

/-- A condition on a place between characters. Where words matter, `unicode` says whether they are
    made up of the letters and digits of all scripts or of ASCII. -/
inductive Anchor where
  | textStart
  | textEnd
  /-- The start or the end of a line; `crlf` takes a carriage return for a line end too. -/
  | lineStart (crlf : Bool)
  | lineEnd (crlf : Bool)
  | wordBoundary (unicode : Bool)
  | noWordBoundary (unicode : Bool)
  | wordStart (unicode : Bool)
  | wordEnd (unicode : Bool)
  | wordStartHalf (unicode : Bool)
  | wordEndHalf (unicode : Bool)
deriving DecidableEq

/-- A regular expression. -/
inductive Pattern where
  /-- The empty text; also a switch of modes. -/
  | empty
  /-- One character of a set, whose notation has brackets nested `levels` deep. -/
  | one (set : CharSet) (levels : Nat)
  | anchor (a : Anchor)
  | group (captures : Bool) (body : Pattern)
  | seq (first second : Pattern)
  | either (first second : Pattern)
  /-- At least `least` and at most `most` times. -/
  | repeated (least : Nat) (most : Option Nat) (greedy : Bool) (body : Pattern)

namespace Pattern

/-- Parts that follow each other, the last one first. -/
def ofParts : List Pattern → Pattern
  | [] => .empty
  | last :: before => before.foldl (fun rest part => .seq part rest) last

/-- The chain that a pattern continues. -/
inductive Chain where
  | none | seq | either
deriving DecidableEq

/-- How deep the notation of a pattern is nested. A chain is one level, however long it is. -/
def depth (chain : Chain) : Pattern → Nat
  | empty | anchor _ => 0
  | one _ levels => levels
  | group _ body => body.depth .none + 1
  | seq first second =>
    max (first.depth .none) (second.depth .seq) + if chain = .seq then 0 else 1
  | either first second =>
    max (first.depth .none) (second.depth .either) + if chain = .either then 0 else 1
  | repeated _ _ _ body => body.depth .none + 1

/-- Patterns that nest deeper are refused. -/
def depthLimit : Nat := 250

end Pattern

end Restyle
