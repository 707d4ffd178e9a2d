import ReliableDatagrams.Text.Quoted

/-!
# Field kinds

A field is an array of one of six element kinds. The kind decides its tag on the wire, the name
under which applications see it, and how many bytes its elements take.
-/

namespace ReliableDatagrams

/-- The element kind of a field, in the order of the tags. -/
inductive FieldKind where
  | boolean
  | byte
  | char
  | short
  | integer
  | float
deriving DecidableEq, Repr, Inhabited

namespace FieldKind

def all : List FieldKind := [boolean, byte, char, short, integer, float]

theorem mem_all (kind : FieldKind) : kind ∈ all := by
  cases kind <;> decide

/-- The number that stands for the kind in a field header. -/
def tag : FieldKind → Nat
  | boolean => 0
  | byte => 1
  | char => 2
  | short => 3
  | integer => 4
  | float => 5

/-- The kind with a given tag; the tags from 6 on are unassigned. -/
def ofTag? (tag : Nat) : Option FieldKind :=
  all.find? fun kind => kind.tag == tag

theorem ofTag?_tag (kind : FieldKind) : ofTag? kind.tag = some kind := by
  cases kind <;> rfl

def elementName : FieldKind → String
  | boolean => "Boolean"
  | byte => "Byte"
  | char => "Char"
  | short => "Short"
  | integer => "Integer"
  | float => "Float"

/-- The key under which an application finds the values of this kind. -/
def name (kind : FieldKind) : String :=
  kind.elementName ++ "Array"

def ofName? (name : String) : Option FieldKind :=
  all.find? fun kind => kind.name == name

theorem ofName?_name (kind : FieldKind) : ofName? kind.name = some kind := by
  cases kind <;> decide

def unknownNameMessage (name : String) : String :=
  "unknown field kind " ++ Text.quoted name

/-- The number of bytes that `count` elements take: eight booleans share a byte. -/
def payloadSize : FieldKind → (count : Nat) → Nat
  | boolean, count => (count + 7) / 8
  | byte, count => count
  | char, count => count
  | short, count => count * 2
  | integer, count => count * 4
  | float, count => count * 4

end FieldKind

end ReliableDatagrams
