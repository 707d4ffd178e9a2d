import ReliableDatagrams.Wire.Bytes

/-!
# Frame flags and frame kinds

The first byte of a frame. Its five low bits tell the step of the handshake that the frame takes,
and at most one of them may be set; the next two tell how the frame is laid out; the top bit is
reserved, ignored when read and never set when written.
-/

namespace ReliableDatagrams

/-- The flags of a frame, lowest bit first. -/
structure FrameFlags where
  syn : Bool := false
  synSuccess : Bool := false
  synFailure : Bool := false
  synAckSuccess : Bool := false
  ack : Bool := false
  ignoreTimestamp : Bool := false
  doubleCount : Bool := false
deriving DecidableEq, Repr, Inhabited

/-- The step of the handshake that a frame takes; plain frames take none. -/
inductive FrameKind where
  | plain
  | syn
  | synSuccess
  | synFailure
  | synAckSuccess
  | ack
deriving DecidableEq, Repr, Inhabited

namespace FrameFlags

def toBits (flags : FrameFlags) : List Bool :=
  [flags.syn, flags.synSuccess, flags.synFailure, flags.synAckSuccess, flags.ack,
    flags.ignoreTimestamp, flags.doubleCount]

def toByte (flags : FrameFlags) : UInt8 :=
  UInt8.ofNat (Bits.toNat flags.toBits)

def ofByte (byte : UInt8) : FrameFlags where
  syn := byte.toNat.testBit 0
  synSuccess := byte.toNat.testBit 1
  synFailure := byte.toNat.testBit 2
  synAckSuccess := byte.toNat.testBit 3
  ack := byte.toNat.testBit 4
  ignoreTimestamp := byte.toNat.testBit 5
  doubleCount := byte.toNat.testBit 6

def handshake (flags : FrameFlags) : FrameFlags :=
  { flags with ignoreTimestamp := false, doubleCount := false }

/-- Some step of the handshake is marked, so the frame carries a message id. -/
def isReliable (flags : FrameFlags) : Bool :=
  flags.syn || flags.synSuccess || flags.synFailure || flags.synAckSuccess || flags.ack

/-- An acknowledgement is marked: such a frame ends after its message id. -/
def isControl (flags : FrameFlags) : Bool :=
  flags.synSuccess || flags.synFailure || flags.synAckSuccess || flags.ack

/-- The step that the flags mark, unless they mark several. -/
def kind? (flags : FrameFlags) : Option FrameKind :=
  match flags.syn, flags.synSuccess, flags.synFailure, flags.synAckSuccess, flags.ack with
  | false, false, false, false, false => some .plain
  | true, false, false, false, false => some .syn
  | false, true, false, false, false => some .synSuccess
  | false, false, true, false, false => some .synFailure
  | false, false, false, true, false => some .synAckSuccess
  | false, false, false, false, true => some .ack
  | _, _, _, _, _ => none

def names : List String :=
  ["RELIABLE_SYN", "RELIABLE_SYN_SUCCESS", "RELIABLE_SYN_FAILURE", "RELIABLE_SYN_ACK_SUCCESS",
    "RELIABLE_ACK", "IGNORE_TIMESTAMP", "DOUBLE_CONTENT_COUNT"]

def text (flags : FrameFlags) : String :=
  let set := (names.zip flags.toBits).filterMap fun (name, bit) => if bit then some name else none
  "FrameFlags(" ++ (if set.isEmpty then "0x0" else " | ".intercalate set) ++ ")"

end FrameFlags

namespace FrameKind

def all : List FrameKind := [plain, syn, synSuccess, synFailure, synAckSuccess, ack]

/-- The flag that marks the kind on the wire; plain frames have none. -/
def flags : FrameKind → FrameFlags
  | plain => {}
  | syn => { syn := true }
  | synSuccess => { synSuccess := true }
  | synFailure => { synFailure := true }
  | synAckSuccess => { synAckSuccess := true }
  | ack => { ack := true }

def isControl (kind : FrameKind) : Bool :=
  kind.flags.isControl

theorem kind?_flags (kind : FrameKind) : kind.flags.kind? = some kind := by
  cases kind <;> rfl

end FrameKind

end ReliableDatagrams
