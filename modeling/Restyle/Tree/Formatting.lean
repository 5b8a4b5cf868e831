-- SUMMARY: Text kept around a node and before a token: `Formatting` and `Padded`.

/-!
# Formatting

Whitespace and comments are kept verbatim at the borders of nodes.
-/

namespace Restyle

/-- The text printed before and after a node. -/
structure Formatting where
  lead : String := ""
  trail : String := ""
  deriving DecidableEq

namespace Formatting

def isEmpty (f : Formatting) : Bool := f.lead.isEmpty && f.trail.isEmpty

/-- Formatting with text before the node only. -/
def leading (text : String) : Formatting := { lead := text }

def withLead (f : Formatting) (text : String) : Formatting := { f with lead := text }

def withTrail (f : Formatting) (text : String) : Formatting := { f with trail := text }

def dropLead (f : Formatting) : Formatting := f.withLead ""

def dropTrail (f : Formatting) : Formatting := f.withTrail ""

end Formatting

/-- An element that a token introduces. `before` is the text in front of the token; the text
    behind it belongs to the element. -/
structure Padded (α : Type) where
  before : String
  elem : α
  deriving DecidableEq

namespace Padded

variable {α β : Type}

def map (f : α → β) (p : Padded α) : Padded β := ⟨p.before, f p.elem⟩

def traverse {m : Type → Type} [Monad m] (f : α → m β) (p : Padded α) : m (Padded β) := do
  return ⟨p.before, ← f p.elem⟩

end Padded

end Restyle
