import ReliableDatagrams.Field.Map
import ReliableDatagrams.Frame.Flags
import ReliableDatagrams.Wire.Hex

/-!
# Frames

A frame is the content of one datagram: flags, a message id if the frame is part of a handshake,
and, unless it is an acknowledgement, a checksum, a timestamp and fields. This module holds the
frame as it is read, the choices made when one is written, and what can go wrong on either side.
-/

namespace ReliableDatagrams

/-- The part of a frame in front of its checksum, readable even if the checksum is wrong. -/
structure FrameHeader where
  flags : FrameFlags
  messageId : Option UInt32
deriving DecidableEq, Repr, Inhabited

/-- A frame that has been read. -/
structure Frame where
  header : FrameHeader
  kind : FrameKind
  timestamp : Option UInt16
  fields : FieldMap
deriving DecidableEq, Repr, Inhabited

/-- How to write a plain frame or the first frame of a handshake. -/
structure FrameOptions where
  /-- A message id makes the frame the first of a handshake. -/
  messageId : Option UInt32 := none
  /-- Without a timestamp the frame says that it has none. -/
  timestamp : Option UInt16 := none
  /-- Field headers take two bytes instead of one. -/
  doubleCount : Bool := false
deriving DecidableEq, Repr, Inhabited

/-- Why bytes are not a frame, or not a field. -/
inductive DecodeError where
  | tooShort
  | zeroMessageId
  | conflictingFlags (flags : FrameFlags)
  | checksumMismatch (header : FrameHeader) (expected actual : UInt32)
  | malformedFieldHeader (header : UInt16)
deriving DecidableEq, Repr

namespace DecodeError

def message : DecodeError → String
  | tooShort => "frame is too short"
  | zeroMessageId => "reliable frame with message id 0"
  | conflictingFlags flags => "conflicting reliable flags " ++ flags.text
  | checksumMismatch _ expected actual =>
    "checksum mismatch: frame says " ++ Hex.padded 8 expected.toNat ++ ", content sums to " ++
      Hex.padded 8 actual.toNat
  | malformedFieldHeader header => "malformed field header " ++ Hex.padded 4 header.toNat

end DecodeError

/-- Why a frame, or a field, cannot be written. -/
inductive EncodeError where
  | countOverflow (kind : FieldKind) (count max : Nat)
  | missingMessageId
  | zeroMessageId
  /-- The count passed the check against the maximum and still does not fit its header. -/
  | countOutOfRange
deriving DecidableEq, Repr

namespace EncodeError

def message : EncodeError → String
  | countOverflow kind count max =>
    s!"{kind.name} field with {count} elements exceeds the maximum of {max}"
  | missingMessageId => "a reliable frame requires a message id"
  | zeroMessageId => "message id 0 is reserved"
  | countOutOfRange => "this is a bug: application logic should have ensured the value range"

end EncodeError

/-- The number of bytes that every frame has at least: its flags, and an id or a checksum. -/
def minFrameSize : Nat := 5

/-- The timestamp that is never written: drawing it asks for a handshake without timestamp, after
which the receiver starts its tracking afresh. -/
def wraparoundTimestamp : UInt16 := 65535

def checksum (content : Bytes) : UInt32 :=
  content.foldl (fun sum byte => sum + byte.toUInt32) 0

end ReliableDatagrams
