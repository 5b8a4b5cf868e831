-- SUMMARY: Access to files, and a store of files as a value.
import Restyle.Files.Path

/-!
# Files

Programs reach files through `FileSystem`. `FileStore` is a file system as a value: what is read
from it is what was put there.
-/

namespace Restyle

/-- Why a file could not be reached. -/
inductive FileError where
  | notFound
  | alreadyExists
  | notDirectory
  | isDirectory
  | nameTooLong
  /-- The path holds the character with the number 0. -/
  | nulInPath
  /-- The contents are not UTF-8. -/
  | notText
  | other (message : String)
  deriving DecidableEq

namespace FileError

def message : FileError → String
  | notFound => "No such file or directory (os error 2)"
  | alreadyExists => "File exists (os error 17)"
  | notDirectory => "Not a directory (os error 20)"
  | isDirectory => "Is a directory (os error 21)"
  | nameTooLong => "File name too long (os error 36)"
  | nulInPath => "file name contained an unexpected NUL byte"
  | notText => "stream did not contain valid UTF-8"
  | other message => message

end FileError

/-- What a program can do with files. -/
class FileSystem (m : Type → Type) where
  /-- The text of a file. -/
  read : (path : String) → m (Except FileError String)
  /-- Writes a file; its directory has to exist. -/
  write : (path text : String) → m (Except FileError Unit)
  /-- Makes a directory and those above it, as far as they are missing. -/
  makeDirectories : (path : String) → m (Except FileError Unit)

/-- What a path can lead to. -/
inductive Entry where
  | file (bytes : ByteArray)
  | directory

/-- Files and directories by the names that lead to them from the root, which is always there. -/
structure FileStore where
  entries : List (List String × Entry)

namespace FileStore

def empty : FileStore := ⟨[]⟩

def entry? (s : FileStore) (place : List String) : Option Entry :=
  if place.isEmpty then some .directory else s.entries.lookup place

/-- Puts an entry to a place; what was there gives way. -/
def put (s : FileStore) (place : List String) (entry : Entry) : FileStore :=
  ⟨(place, entry) :: s.entries.filter fun (other, _) => other != place⟩

/-- Where a path leads to: a place of the store, or a directory outside of it. -/
inductive Spot where
  | within (place : List String)
  | outside
  deriving DecidableEq

/-- The greatest size of a name and of a whole path in bytes. -/
def nameLimit : Nat := 255

def pathLimit : Nat := 4095

/-- One step from a place that has to be a directory. Nothing is known of what lies outside. -/
def step (s : FileStore) (segment : String) : Spot → Except FileError Spot
  | .outside =>
    if segment = "" ∨ segment = "." ∨ segment = ".." then .ok .outside
    else .error (if segment.utf8ByteSize > nameLimit then .nameTooLong else .notFound)
  | .within place =>
    match s.entry? place with
    | none => .error .notFound
    | some (.file _) => .error .notDirectory
    | some .directory =>
      if segment = "" ∨ segment = "." then .ok (.within place)
      else if segment = ".." then
        .ok (if place.isEmpty then .outside else .within place.dropLast)
      else if segment.utf8ByteSize > nameLimit then .error .nameTooLong
      else .ok (.within (place ++ [segment]))

/-- Where segments lead to. All but the last have to be directories. -/
def follow (s : FileStore) : Spot → List String → Except FileError Spot
  | spot, [] => .ok spot
  | spot, segment :: rest => do s.follow (← s.step segment spot) rest

/-- The segments of a path that can be looked up. -/
def segmentsOf (path : String) : Except FileError (List String) :=
  if path.toList.contains '\x00' then .error .nulInPath
  else if path.isEmpty then .error .notFound
  else if path.utf8ByteSize > pathLimit then .error .nameTooLong
  else .ok (Path.segments path)

/-- Where a path starts: absolute ones outside of the store. -/
def startOf (path : String) : Spot := if path.startsWith "/" then .outside else .within []

/-- The spot that a path leads to, which may be free. -/
def locate (s : FileStore) (path : String) : Except FileError Spot := do
  s.follow (startOf path) (← segmentsOf path)

/-- What stands at a spot. -/
def at? (s : FileStore) : Spot → Option Entry
  | .outside => some .directory
  | .within place => s.entry? place

def isDirectory (s : FileStore) (path : String) : Bool :=
  match s.locate path with
  | .ok spot => match s.at? spot with
    | some .directory => true
    | _ => false
  | .error _ => false

def read (s : FileStore) (path : String) : Except FileError String := do
  match s.at? (← s.locate path) with
  | none => .error .notFound
  | some .directory => .error .isDirectory
  | some (.file bytes) =>
    match String.fromUTF8? bytes with
    | some text => return text
    | none => .error .notText

/-- Writes bytes to a file. -/
def writeBytes (s : FileStore) (path : String) (bytes : ByteArray) :
    Except FileError FileStore := do
  match ← s.locate path with
  | .outside => .error .isDirectory
  | .within place =>
    match s.entry? place with
    | some .directory => .error .isDirectory
    | _ => return s.put place (.file bytes)

def write (s : FileStore) (path text : String) : Except FileError FileStore :=
  s.writeBytes path text.toUTF8

/-- Makes one directory. The directory above it has to be there, and the last segment of the path
    has to be a free name. -/
def makeDirectory (s : FileStore) (path : String) : Except FileError FileStore := do
  let segments := (← segmentsOf path).reverse.dropWhile fun segment => segment == ""
  match segments with
  | [] => .error .alreadyExists
  | last :: before =>
    let spot ← s.step last (← s.follow (startOf path) before.reverse)
    match spot, s.at? spot with
    | .within place, none => return s.put place .directory
    | _, _ => .error .alreadyExists

/-- Makes the first of some directories, each of which lies in the next one, and those of the others
    that are missing. -/
def makeFrom (s : FileStore) : List String → Except FileError FileStore
  | [] => .ok s
  | path :: above =>
    match s.makeDirectory path with
    | .ok s => .ok s
    | .error .notFound => do
      let s ← s.makeFrom above
      unlessThere s path (s.makeDirectory path)
    | made => unlessThere s path made
where
  /-- It is no error if a directory is there already. -/
  unlessThere (s : FileStore) (path : String) (made : Except FileError FileStore) :
      Except FileError FileStore :=
    match made with
    | .error .alreadyExists => if s.isDirectory path then .ok s else .error .alreadyExists
    | _ => made

/-- Makes a directory and those above it. -/
def makeDirectories (s : FileStore) (path : String) : Except FileError FileStore :=
  s.makeFrom (Path.ancestors (path.length + 1) path.toList)

/-- The store with a file, and the directories above it. -/
def withFile (s : FileStore) (path : String) (bytes : ByteArray) : FileStore :=
  let made := do
    let s ← s.makeDirectories (String.ofList (Path.parentOf path.toList))
    s.writeBytes path bytes
  made.toOption.getD s

/-- The store with a directory, and those above it. -/
def withDirectory (s : FileStore) (path : String) : FileStore :=
  (s.makeDirectories path).toOption.getD s

/-- The files below a directory with their texts, under the path of the directory. -/
def textsBelow (s : FileStore) (directory : String) : List (String × String) :=
  match s.locate directory with
  | .error _ | .ok .outside => []
  | .ok (.within place) =>
    s.entries.filterMap fun (other, entry) =>
      match entry with
      | .file bytes =>
        if place.isPrefixOf other && place.length < other.length then
          let path := Path.join directory ("/".intercalate (other.drop place.length))
          (String.fromUTF8? bytes).map fun text => (path, text)
        else none
      | .directory => none

/-- Programs that work on a store. What was done before an error stays done. -/
instance : FileSystem (StateM FileStore) where
  read path := do return (← get).read path
  write path text := do
    match (← get).write path text with
    | .ok s => set s; return .ok ()
    | .error e => return .error e
  makeDirectories path := do
    match (← get).makeDirectories path with
    | .ok s => set s; return .ok ()
    | .error e => return .error e

end FileStore

end Restyle
