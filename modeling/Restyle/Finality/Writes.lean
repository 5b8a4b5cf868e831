-- SUMMARY: Writes to a variable, and variables that are never written again.
import Restyle.Tree.Cursor

/-!
# Writes

A write is an assignment to a name, or an increment or decrement of it. A write inside of a loop may
happen again, so it counts as two.
-/

namespace Restyle

namespace Node

/-- Whether a node is a name that refers to a declaration. -/
def refersTo (target : NodeId) (n : Node) : Bool :=
  match n.kind with
  | .ident _ _ declaration => declaration == some target
  | _ => false

/-- Whether a node writes to a variable. -/
def writesTo (target : NodeId) (n : Node) : Bool :=
  match n.kind with
  | .assign written _ => written.refersTo target
  | .unary operator operand _ => (operator == "++" || operator == "--") && operand.refersTo target
  | _ => false

/-- The number of writes to a variable below a node, with those in loops counted twice. -/
def countWrites (target : NodeId) (scope : Node) : Nat :=
  let writes := scope.cursors.filter fun c => c.node.writesTo target
  (writes.map fun c => if c.ancestors.any fun n => n.tag == .forLoop then 2 else 1).foldr (· + ·) 0

/-- Whether a variable has an initializer. -/
def isInitialized (n : Node) : Bool :=
  match n.kind with
  | .namedVar _ initializer => initializer.isSome
  | _ => false

/-- Whether a variable gets its value at most once inside of its scope. -/
def isEffectivelyFinal (scope var : Node) : Bool :=
  scope.countWrites var.id ≤ if var.isInitialized then 0 else 1

end Node

end Restyle
