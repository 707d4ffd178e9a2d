import ReliableDatagrams.Field.Values

/-!
# Field maps

What an application sees of a message: at most one array per kind. Values that are added for a kind
that is already there are appended to it, which is how several fields of one kind in a frame become
a single entry.
-/

namespace ReliableDatagrams

/-- At most one array for each kind. -/
structure FieldMap where
  booleans : Option (List Bool) := none
  bytes : Option Bytes := none
  chars : Option String := none
  shorts : Option (List Int16) := none
  integers : Option (List Int32) := none
  floats : Option (List Binary32) := none
deriving DecidableEq, Repr, Inhabited

namespace FieldMap

def empty : FieldMap := {}

/-- The values of a kind, if there are any; an empty array counts as an entry. -/
def get? (fields : FieldMap) : FieldKind → Option FieldValues
  | .boolean => fields.booleans.map .booleans
  | .byte => fields.bytes.map .bytes
  | .char => fields.chars.map .chars
  | .short => fields.shorts.map .shorts
  | .integer => fields.integers.map .integers
  | .float => fields.floats.map .floats

def getByName? (fields : FieldMap) (name : String) : Option FieldValues :=
  (FieldKind.ofName? name).bind fields.get?

def merge (fields : FieldMap) : FieldValues → FieldMap
  | .booleans values => { fields with booleans := some (fields.booleans.getD [] ++ values) }
  | .bytes values => { fields with bytes := some (fields.bytes.getD [] ++ values) }
  | .chars text => { fields with chars := some (fields.chars.getD "" ++ text) }
  | .shorts values => { fields with shorts := some (fields.shorts.getD [] ++ values) }
  | .integers values => { fields with integers := some (fields.integers.getD [] ++ values) }
  | .floats values => { fields with floats := some (fields.floats.getD [] ++ values) }

def mergeAll (fields : FieldMap) (values : List FieldValues) : FieldMap :=
  values.foldl merge fields

def ofList (values : List FieldValues) : FieldMap :=
  empty.mergeAll values

def erase (fields : FieldMap) : FieldKind → FieldMap
  | .boolean => { fields with booleans := none }
  | .byte => { fields with bytes := none }
  | .char => { fields with chars := none }
  | .short => { fields with shorts := none }
  | .integer => { fields with integers := none }
  | .float => { fields with floats := none }

def toList (fields : FieldMap) : List FieldValues :=
  FieldKind.all.filterMap fields.get?

def size (fields : FieldMap) : Nat :=
  fields.toList.length

def isEmpty (fields : FieldMap) : Bool :=
  fields.toList.isEmpty

def counts (fields : FieldMap) : List (String × Nat) :=
  fields.toList.map fun values => (values.kind.name, values.count)

def numEq (a b : FieldMap) : Bool :=
  FieldKind.all.all fun kind =>
    match a.get? kind, b.get? kind with
    | some x, some y => x.numEq y
    | none, none => true
    | _, _ => false

end FieldMap

end ReliableDatagrams
