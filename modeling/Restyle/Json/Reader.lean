-- SUMMARY: Reading JSON values from text, with a limit on nesting.
import Restyle.Json.Token

/-!
# Reading JSON

`Json.read` reads a text as far as it is JSON. What it gives back is a value in any case; the value
shows where the text has a flaw. Values nested more deeply than the limit have no meaning.
-/

namespace Restyle

/-- A value that was read, and the tokens behind it unless the text broke off. -/
structure Reading where
  value : Json
  rest : Option (List Token)

/-- A whole text: its value, and whether nothing follows. -/
structure Document where
  value : Json
  complete : Bool

namespace Json

/-! ## Passing over values -/

/-- An array or an object that is open. -/
inductive Bracket where
  | array | object

/-- What has to come next in JSON text. -/
inductive Awaited where
  | value | itemOrEnd | key | keyOrEnd | colon | commaOrEnd

/-- The tokens behind the value that is being passed over inside of some open brackets, the
    innermost one first; `none` if the text is not JSON. -/
def passOver : List Bracket → Awaited → List Token → Option (List Token)
  | [], .commaOrEnd, tokens => some tokens
  | _, _, [] => none
  | brackets, awaited, token :: tokens =>
    match awaited, token, brackets with
    | .value, .null, _ | .value, .bool _, _ | .value, .str _, _ | .value, .num _, _
    | .value, .halfStr, _ | .value, .hugeNum, _ | .itemOrEnd, .null, _ | .itemOrEnd, .bool _, _
    | .itemOrEnd, .str _, _ | .itemOrEnd, .num _, _ | .itemOrEnd, .halfStr, _
    | .itemOrEnd, .hugeNum, _ => passOver brackets .commaOrEnd tokens
    | .value, .openBracket, _ | .itemOrEnd, .openBracket, _ =>
      passOver (.array :: brackets) .itemOrEnd tokens
    | .value, .openBrace, _ | .itemOrEnd, .openBrace, _ =>
      passOver (.object :: brackets) .keyOrEnd tokens
    | .key, .str _, _ | .key, .halfStr, _ | .keyOrEnd, .str _, _ | .keyOrEnd, .halfStr, _ =>
      passOver brackets .colon tokens
    | .colon, .colon, _ => passOver brackets .value tokens
    | .commaOrEnd, .comma, .array :: _ => passOver brackets .value tokens
    | .commaOrEnd, .comma, .object :: _ => passOver brackets .key tokens
    | .commaOrEnd, .closeBracket, .array :: outer | .itemOrEnd, .closeBracket, .array :: outer =>
      passOver outer .commaOrEnd tokens
    | .commaOrEnd, .closeBrace, .object :: outer | .keyOrEnd, .closeBrace, .object :: outer =>
      passOver outer .commaOrEnd tokens
    | _, _, _ => none

/-- A value that is passed over, since it nests too deep. -/
def meaningless (tokens : List Token) : Reading :=
  match passOver [] .value tokens with
  | some rest => ⟨flawed .meaningless, some rest⟩
  | none => ⟨flawed .notJson, none⟩

/-- An object whose next key has no meaning, from that key on. -/
def endAtKey (fields : List (String × Json)) (tokens : List Token) : Reading :=
  match passOver [.object] .key tokens with
  | some rest => ⟨obj fields (some .meaningless), some rest⟩
  | none => ⟨obj fields (some .notJson), none⟩

/-! ## Reading values -/

/-- The items of an array after those in `done` (last first). `fuel` bounds their number. -/
def readItems (readValue : List Token → Reading) : Nat → List Json → List Token → Reading
  | 0, done, _ => ⟨arr done.reverse (some .notJson), none⟩
  | fuel + 1, done, tokens =>
    match readValue tokens with
    | ⟨value, none⟩ => ⟨arr (value :: done).reverse (some .notJson), none⟩
    | ⟨value, some (.comma :: rest)⟩ => readItems readValue fuel (value :: done) rest
    | ⟨value, some (.closeBracket :: rest)⟩ => ⟨arr (value :: done).reverse none, some rest⟩
    | ⟨value, some _⟩ => ⟨arr (value :: done).reverse (some .notJson), none⟩

/-- The fields of an object after those in `done` (last first). `fuel` bounds their number. -/
def readFields (readValue : List Token → Reading) :
    Nat → List (String × Json) → List Token → Reading
  | 0, done, _ => ⟨obj done.reverse (some .notJson), none⟩
  | fuel + 1, done, .str key :: .colon :: tokens =>
    match readValue tokens with
    | ⟨value, none⟩ => ⟨obj ((key, value) :: done).reverse (some .notJson), none⟩
    | ⟨value, some (.comma :: rest)⟩ => readFields readValue fuel ((key, value) :: done) rest
    | ⟨value, some (.closeBrace :: rest)⟩ => ⟨obj ((key, value) :: done).reverse none, some rest⟩
    | ⟨value, some _⟩ => ⟨obj ((key, value) :: done).reverse (some .notJson), none⟩
  | _, done, .str key :: _ =>
    ⟨obj ((key, flawed .notJson) :: done).reverse (some .notJson), none⟩
  | _, done, .halfStr :: tokens => endAtKey done.reverse (.halfStr :: tokens)
  | _, done, _ => ⟨obj done.reverse (some .notJson), none⟩

/-- Reads one value that nests at most `depth` arrays and objects. -/
def readValue : Nat → List Token → Reading
  | _, .null :: rest => ⟨null, some rest⟩
  | _, .bool b :: rest => ⟨bool b, some rest⟩
  | _, .str s :: rest => ⟨str s, some rest⟩
  | _, .num n :: rest => ⟨num n, some rest⟩
  | _, .halfStr :: rest | _, .hugeNum :: rest => ⟨flawed .meaningless, some rest⟩
  | _ + 1, .openBracket :: .closeBracket :: rest => ⟨array [], some rest⟩
  | depth + 1, .openBracket :: rest => readItems (readValue depth) rest.length [] rest
  | _ + 1, .openBrace :: .closeBrace :: rest => ⟨object [], some rest⟩
  | depth + 1, .openBrace :: rest => readFields (readValue depth) rest.length [] rest
  | _, tokens => meaningless tokens

/-- The nesting that data may have. -/
def nestingLimit : Nat := 127

/-- Reads a text with the given limit on nesting. -/
def readWithin (limit : Nat) (text : String) : Document :=
  match readValue limit (Token.scan text) with
  | ⟨value, some []⟩ => ⟨value, true⟩
  | ⟨value, _⟩ => ⟨value, false⟩

/-- Reads a text of data. -/
def read (text : String) : Document := readWithin nestingLimit text

end Json

end Restyle
