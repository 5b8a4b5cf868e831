-- SUMMARY: The text of file paths: names, stems and extensions.

/-!
# Paths

A path is a text whose segments are set apart by `/`. Its name is its last segment, without regard
to empty segments and single dots behind it.
-/

namespace Restyle

namespace Path

/-- Drops the empty segments and single dots at the end of a path that is given in reverse. -/
def dropIdle : List Char → List Char
  | '/' :: rest => dropIdle rest
  | '.' :: '/' :: rest => dropIdle rest
  | ['.'] => []
  | rest => rest

/-- Splits a path before its name. What stands behind the name is dropped. There is no name if the
    path leads to a root or ends in a double dot. -/
def splitName? (path : List Char) : Option (List Char × List Char) :=
  let reversed := dropIdle path.reverse
  let name := (reversed.takeWhile fun c => c != '/').reverse
  let before := (reversed.dropWhile fun c => c != '/').reverse
  if name = [] ∨ name = ['.', '.'] then none else some (before, name)

/-- A name without its last extension. A dot at the start belongs to the stem. -/
def stemOf (name : List Char) : List Char :=
  match name.reverse.dropWhile fun c => c != '.' with
  | [] | [_] => name
  | _ :: stem => stem.reverse

/-- The name of a path without its last extension. -/
def stem? (path : String) : Option String :=
  (splitName? path.toList).map fun (_, name) => String.ofList (stemOf name)

/-- The path to a name below a directory. -/
def join (directory name : String) : String :=
  match directory.toList.getLast? with
  | none | some '/' => directory ++ name
  | some _ => directory ++ "/" ++ name

/-- The last extension of a name, if it has one. -/
def extensionOf (name : List Char) : Option (List Char) :=
  let stem := stemOf name
  if stem.length < name.length then some (name.drop (stem.length + 1)) else none

/-- Drops bytes from the end of a text that is given in reverse. A character of which some bytes are
    left stays. -/
def dropBytes : Nat → List Char → List Char
  | _, [] => []
  | count, c :: text =>
    if c.utf8Size ≤ count then dropBytes (count - c.utf8Size) text else c :: text

/-- Puts an extension behind the stem of the name. A path without a name stays as it is. -/
def setExtension (path : List Char) (extension : String) : String :=
  match splitName? path with
  | some (before, name) => String.ofList (before ++ stemOf name) ++ "." ++ extension
  | none => String.ofList path

/-- Replaces the last extension of the name, or adds one. As many bytes as the old extension has are
    cut off from the end of the path before, so that a name can be lost which ends in its dot. A
    character that is cut in part belongs to the old extension, and the rest of it goes with what is
    left of that. -/
def withExtension (path extension : String) : String :=
  let chars := path.toList
  let old := ((splitName? chars).bind fun (_, name) => extensionOf name).getD []
  let size := (old.map Char.utf8Size).foldr (· + ·) 0
  setExtension (dropBytes size chars.reverse).reverse extension

/-- Where the printed tree of an input goes: into the directory, under the stem of the input. -/
def outputFor (directory input : String) : String :=
  withExtension (join directory ((stem? input).getD "out")) "java"

/-- The path without its last segment, up to the end of the segment before. -/
def parentOf (path : List Char) : List Char :=
  let reversed := dropIdle path.reverse
  (dropIdle (reversed.dropWhile fun c => c != '/')).reverse

/-- A path and all paths above it, the shortest one last; `fuel` bounds their number. -/
def ancestors : Nat → List Char → List String
  | 0, _ => []
  | fuel + 1, path =>
    if path = [] then [] else String.ofList path :: ancestors fuel (parentOf path)

/-- The segments of a path, empty ones included. -/
def segments (path : String) : List String :=
  (path.toList.splitOn '/').map String.ofList

end Path

end Restyle
