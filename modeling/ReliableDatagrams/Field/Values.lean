import ReliableDatagrams.Field.Kind
import ReliableDatagrams.Field.Binary32
import ReliableDatagrams.Wire.Bytes

/-!
# Field values

The content of one field: an array of elements of one kind. Text counts its UTF-8 bytes.
-/

namespace ReliableDatagrams

/-- An array of elements of one kind. -/
inductive FieldValues where
  | booleans (values : List Bool)
  | bytes (values : Bytes)
  | chars (text : String)
  | shorts (values : List Int16)
  | integers (values : List Int32)
  | floats (values : List Binary32)
deriving DecidableEq, Repr, Inhabited

namespace FieldValues

def kind : FieldValues → FieldKind
  | booleans _ => .boolean
  | bytes _ => .byte
  | chars _ => .char
  | shorts _ => .short
  | integers _ => .integer
  | floats _ => .float

def count : FieldValues → Nat
  | booleans values => values.length
  | bytes values => values.length
  | chars text => text.utf8ByteSize
  | shorts values => values.length
  | integers values => values.length
  | floats values => values.length

/-- Equality that compares floats as numbers and everything else exactly. -/
def numEq : FieldValues → FieldValues → Bool
  | floats xs, floats ys => xs.length == ys.length && (xs.zip ys).all fun (x, y) => x.numEq y
  | xs, ys => xs == ys

end FieldValues

end ReliableDatagrams
