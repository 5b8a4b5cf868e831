-- SUMMARY: The padding of an empty initializer in the header of a loop.
import Restyle.Rule.Options

/-!
# Loop headers

An initializer that is left out gets the padding that is asked for. Text that is more than spaces
and tabs is never touched.
-/

namespace Restyle

namespace ForHeader

def ruleName : String := "EmptyForInitializerPad"

/-- The initializer of a loop that has left it out. -/
def emptyInitializer? (loop : Node) : Option Node :=
  match loop.kind with
  | .forLoop control _ =>
    match control.kind with
    | .forControl [init] _ _ => if init.tag == .empty then some init else none
    | _ => none
  | _ => none

/-- Whether text can be replaced by padding. -/
def isPlain (text : String) : Bool := text.toList.all fun c => c == ' ' || c == '\t'

/-- Whether a loop is not padded as asked. -/
def needsPadding (padding : String) (loop : Node) : Bool :=
  match emptyInitializer? loop with
  | some init => init.formatting.lead != padding && isPlain init.formatting.lead
  | none => false

/-- Pads the first initializer of a loop. -/
def pad (padding : String) (loop : Node) : Node :=
  match loop.kind with
  | .forLoop control body =>
    match control.kind with
    | .forControl (first :: others) condition update =>
      let header := .forControl (first.withLead padding :: others) condition update
      loop.withKind (.forLoop (control.withKind header) body)
    | _ => loop
  | _ => loop

def edit {σ ε : Type} (padding : String) (c : Cursor) (rebuilt : Node) : Edit σ ε Node :=
  if needsPadding padding c.node then Edit.replace c.node (pad padding rebuilt)
  else return rebuilt

def apply {R : Type} (policy : PadPolicy) (tree : Node) : Except RuleError (RuleOutput R) :=
  RuleOutput.ofSession RuleError.tree (tree.editAs ruleName () (edit policy.padding))

end ForHeader

end Restyle
