import ReliableDatagrams.Frame.Basic
import ReliableDatagrams.Wire.Narrow

/-!
# Fields on the wire

A field is a header and a payload. The header is a number of one or two bytes whose top three bits
are the kind's tag and whose other bits count the elements. `readField` takes one field off the
front of a buffer, `readFields` takes all up to the first that is cut off or makes no sense, and
`writeField` is the inverse direction.
-/

namespace ReliableDatagrams

/-- The two layouts of a field header. -/
inductive HeaderWidth where
  | single
  | double
deriving DecidableEq, Repr, Inhabited

namespace HeaderWidth

def ofDoubleCount (doubleCount : Bool) : HeaderWidth :=
  if doubleCount then double else single

def size : HeaderWidth → Nat
  | single => 1
  | double => 2

/-- The number of different counts that a header can hold: all of its bits but three count. -/
def countRange : HeaderWidth → Nat
  | single => 0x20
  | double => 0x2000

def maxCount (width : HeaderWidth) : Nat :=
  width.countRange - 1

end HeaderWidth

/-- Some array has too many elements for a header of a single byte. -/
def FieldMap.needsDoubleCount (fields : FieldMap) : Bool :=
  fields.toList.any fun values => HeaderWidth.single.maxCount < values.count

/-- The numbers in an array of `count` words of `width` bytes each. -/
def words (width : Nat) : (count : Nat) → Bytes → List Nat
  | 0, _ => []
  | count + 1, payload => Bytes.toNat (payload.take width) :: words width count (payload.drop width)

/-- The bytes of the elements. Booleans are packed from the lowest bit of the first byte upwards. -/
def FieldValues.payload : FieldValues → Bytes
  | .booleans values => Bytes.ofNat ((values.length + 7) / 8) (Bits.toNat values)
  | .bytes values => values
  | .chars text => text.toUTF8.data.toList
  | .shorts values => values.flatMap fun x => Bytes.ofNat 2 x.toUInt16.toNat
  | .integers values => values.flatMap fun x => Bytes.ofNat 4 x.toUInt32.toNat
  | .floats values => values.flatMap fun x => Bytes.ofNat 4 x.bits.toNat

/-- The `count` elements that a payload holds; only text can be invalid. -/
def FieldKind.parse? (kind : FieldKind) (count : Nat) (payload : Bytes) : Option FieldValues :=
  match kind with
  | .boolean => some (.booleans (Bits.ofNat count (Bytes.toNat payload)))
  | .byte => some (.bytes payload)
  | .char => (String.fromUTF8? payload.toByteArray).map .chars
  | .short => some (.shorts ((words 2 count payload).map fun n => (UInt16.ofNat n).toInt16))
  | .integer => some (.integers ((words 4 count payload).map fun n => (UInt32.ofNat n).toInt32))
  | .float => some (.floats ((words 4 count payload).map fun n => ⟨UInt32.ofNat n⟩))

/-- Takes a field off the front of a buffer. The answer is `none` if the buffer ends within the
field, and an error if the tag is unassigned or the text is not valid. -/
def readField (width : HeaderWidth) (buffer : Bytes) :
    Except DecodeError (Option (FieldValues × Bytes)) :=
  match buffer.number? width.size with
  | none => .ok none
  | some (header, afterHeader) =>
    match FieldKind.ofTag? (header / width.countRange) with
    | none => .error (.malformedFieldHeader (UInt16.ofNat header))
    | some kind =>
      let count := header % width.countRange
      match afterHeader.split? (kind.payloadSize count) with
      | none => .ok none
      | some (payload, rest) =>
        match kind.parse? count payload with
        | none => .error (.malformedFieldHeader (UInt16.ofNat header))
        | some values => .ok (some (values, rest))

theorem readField_length_lt {width : HeaderWidth} {buffer rest : Bytes} {values : FieldValues}
    (h : readField width buffer = .ok (some (values, rest))) : rest.length < buffer.length := by
  have size_pos : 0 < width.size := by cases width <;> decide
  unfold readField Bytes.number? at h
  rw [Bytes.split?_eq] at h
  by_cases long : width.size ≤ buffer.length
  · simp only [long, if_true, Option.map_some] at h
    split at h
    · simp at h
    · simp only [Bytes.split?_eq] at h
      split at h
      · simp at h
      · rename_i split
        split at h
        · simp at h
        · split at split <;> simp_all
          obtain ⟨-, rfl⟩ := split
          obtain ⟨-, rfl⟩ := h
          simp only [List.length_drop]
          omega
  · simp [long] at h

/-- All fields up to the first that cannot be read, and the bytes from there on. -/
def readFields (width : HeaderWidth) (buffer : Bytes) : List FieldValues × Bytes :=
  match h : readField width buffer with
  | .ok (some (values, rest)) =>
    have := readField_length_lt h
    let (more, ignored) := readFields width rest
    (values :: more, ignored)
  | _ => ([], buffer)
termination_by buffer.length

/-- The bytes of a field, unless it has too many elements for its header. -/
def writeField (width : HeaderWidth) (values : FieldValues) : Except EncodeError Bytes :=
  if width.maxCount < values.count then
    .error (.countOverflow values.kind values.count width.maxCount)
  else
    match narrow? (8 * width.size) values.count with
    | none => .error .countOutOfRange
    | some count =>
      let header := values.kind.tag * width.countRange + count
      .ok (Bytes.ofNat width.size header ++ values.payload)

/-- Appends a field to a buffer, which stays as it is if the field cannot be written. -/
def appendField (width : HeaderWidth) (buffer : Bytes) (values : FieldValues) :
    Except EncodeError Unit × Bytes :=
  match writeField width values with
  | .ok field => (.ok (), buffer ++ field)
  | .error error => (.error error, buffer)

/-- The bytes of several fields; the first that cannot be written decides the error. -/
def writeFields (width : HeaderWidth) : List FieldValues → Except EncodeError Bytes
  | [] => .ok []
  | values :: more =>
    match writeField width values with
    | .error error => .error error
    | .ok field => (writeFields width more).map (field ++ ·)

end ReliableDatagrams
