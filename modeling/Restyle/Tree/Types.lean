-- SUMMARY: Types attached to names, literals and classes, and the members a class inherits.

/-!
# Types

The type attribution that a tree carries. Nothing here computes a type; rules only read them, above
all to find the members that a class inherits (`ClassType.visibleSupertypeMembers`).
-/

namespace Restyle

/-- The primitive types, with `void` for methods that return nothing. -/
inductive Primitive where
  | boolean | byte | char | short | int | long | float | double | void
  deriving DecidableEq

namespace Primitive

def all : List Primitive := [boolean, byte, char, short, int, long, float, double, void]

def keyword : Primitive → String
  | boolean => "boolean"
  | byte => "byte"
  | char => "char"
  | short => "short"
  | int => "int"
  | long => "long"
  | float => "float"
  | double => "double"
  | void => "void"

end Primitive

/-- The flags of a member declaration. -/
inductive Flag where
  | isPublic | isProtected | isPrivate | isStatic | isFinal | isAbstract
  deriving DecidableEq

namespace Flag

def all : List Flag := [isPublic, isProtected, isPrivate, isStatic, isFinal, isAbstract]

def keyword : Flag → String
  | isPublic => "public"
  | isProtected => "protected"
  | isPrivate => "private"
  | isStatic => "static"
  | isFinal => "final"
  | isAbstract => "abstract"

end Flag

/-- What a class declaration introduces. -/
inductive ClassKind where
  | plain | interface | enum | annotation
  deriving DecidableEq

namespace ClassKind

def all : List ClassKind := [plain, interface, enum, annotation]

/-- The name used in data. -/
def name : ClassKind → String
  | plain => "class"
  | interface => "interface"
  | enum => "enum"
  | annotation => "annotation"

/-- The keyword used in source text. -/
def keyword : ClassKind → String
  | plain => "class"
  | interface => "interface"
  | enum => "enum"
  | annotation => "@interface"

end ClassKind

mutual

/-- The best known type of an expression or declaration. -/
inductive Ty where
  | unknown
  | primitive (p : Primitive)
  | declared (c : ClassType)

/-- A resolved class with its chain of supertypes. -/
structure ClassType where
  name : String
  kind : ClassKind
  supertype : Option ClassType
  members : List Member

/-- A field of a class. -/
structure Member where
  name : String
  ty : Ty
  flags : List Flag

end

namespace Member

def isPrivate (m : Member) : Bool := m.flags.contains .isPrivate

end Member

namespace ClassType

/-- The part of the qualified name after the last `.` or `$`. -/
def simpleName (c : ClassType) : String :=
  String.ofList (c.name.toList.reverse.takeWhile fun ch => ch != '.' && ch != '$').reverse

/-- The supertypes of a class, nearest first. -/
def supertypes : ClassType → List ClassType
  | ⟨_, _, none, _⟩ => []
  | ⟨_, _, some s, _⟩ => s :: s.supertypes

/-- The members of a list that are visible once the names in `hidden` are taken. Each member hides
    later ones of its name, and a private member hides without being visible. -/
def visibleAmong (hidden : List String) : List Member → List Member
  | [] => []
  | m :: ms =>
    if hidden.contains m.name then visibleAmong hidden ms
    else if m.isPrivate then visibleAmong (m.name :: hidden) ms
    else m :: visibleAmong (m.name :: hidden) ms

/-- The inherited members that are visible in a class, nearest supertype first. -/
def visibleSupertypeMembers (c : ClassType) : List Member :=
  visibleAmong (c.members.map Member.name) (c.supertypes.flatMap ClassType.members)

end ClassType

namespace Ty

/-- Classes are compared by qualified name; their members and supertypes play no part. -/
def same : Ty → Ty → Bool
  | unknown, unknown => true
  | primitive p, primitive q => p == q
  | declared c, declared d => c.name == d.name
  | _, _ => false

def asClass? : Ty → Option ClassType
  | declared c => some c
  | _ => none

def isVoid : Ty → Bool
  | primitive .void => true
  | _ => false

/-- The inherited members that are visible in a type; only classes have any. -/
def visibleSupertypeMembers : Ty → List Member
  | declared c => c.visibleSupertypeMembers
  | _ => []

/-- The text shown for a type. -/
def display : Ty → String
  | unknown => "<unknown>"
  | primitive p => p.keyword
  | declared c => c.name

end Ty

end Restyle
