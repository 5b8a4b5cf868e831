-- SUMMARY: Sets of characters that a pattern names by a property.
import Restyle.Text.Unicode.Age
import Restyle.Text.Unicode.Property
import Restyle.Text.Unicode.Script

/-!
# Named classes

A pattern can ask for the characters with a property, such as a category, a script or an age. Names
are compared without case, blanks, dashes and underscores.
-/

namespace Restyle

namespace NamedClass

/-- Whether a name starts with the word `is`, which does not count. -/
def startsWithIs : List Char → Bool
  | a :: b :: _ => (a == 'i' || a == 'I') && (b == 's' || b == 'S')
  | _ => false

/-- A name in the form in which names are compared. One name keeps its first word, since without it
    it would be taken for another. -/
def normalName (name : List Char) : String :=
  let marked := startsWithIs name
  let kept := (if marked then name.drop 2 else name).filter fun c =>
    c.toNat < 0x80 && c != ' ' && c != '_' && c != '-'
  let plain := String.ofList (kept.map Char.toLower)
  if marked && plain == "c" then "isc" else plain

/-- The set of a property without a value: a binary property, a category or a script. -/
def ofName? (name : String) : Option CharSet :=
  (Unicode.binaryProperty? name <|> Unicode.category? name) <|> Unicode.script? name

/-- The set of a property with a value. -/
def ofValue? (property value : String) : Option CharSet :=
  match property with
  | "generalcategory" | "gc" => Unicode.category? value
  | "script" | "sc" => Unicode.script? value
  | "scriptextensions" | "scx" => Unicode.scriptExtension? value
  | "age" => Unicode.age? value
  | "graphemeclusterbreak" | "gcb" => Unicode.clusterRoles.set? value
  | "wordbreak" | "wb" => Unicode.wordRoles.set? value
  | "sentencebreak" | "sb" => Unicode.sentenceRoles.set? value
  | _ => none

/-- The parts of a list before and after the first occurrence of another. -/
def splitAtList (separator : List Char) : List Char → Option (List Char × List Char)
  | [] => none
  | c :: cs =>
    if separator.isPrefixOf (c :: cs) then some ([], (c :: cs).drop separator.length)
    else (splitAtList separator cs).map fun (before, after) => (c :: before, after)

/-- The set meant by the text between braces, and whether it is excluded. -/
def ofText? (text : List Char) : Option (CharSet × Bool) :=
  match splitAtList ['!', '='] text, splitAtList [':'] text, splitAtList ['='] text with
  | some (p, v), _, _ => (ofValue? (normalName p) (normalName v)).map fun s => (s, true)
  | _, some (p, v), _ => (ofValue? (normalName p) (normalName v)).map fun s => (s, false)
  | _, _, some (p, v) => (ofValue? (normalName p) (normalName v)).map fun s => (s, false)
  | _, _, _ => (ofName? (normalName text)).map fun s => (s, false)

-- ---------------------------------------------------------------------------
-- Classes by a letter
-- ---------------------------------------------------------------------------

/-- The digits of all scripts. -/
def digit : CharSet := Unicode.category "nd"

def blank : CharSet := Unicode.whiteSpace

/-- The characters of words: letters, marks, digits, connectors and joiners. -/
def word : CharSet :=
  Unicode.alphabetic ∪ Unicode.categoriesOf ["mn", "mc", "me", "nd", "pc"] ∪
    Unicode.property "joincontrol"

end NamedClass

end Restyle
