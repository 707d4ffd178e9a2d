import ReliableDatagrams.Frame.Field

/-!
# Reading frames

`Frame.decode` reads a frame from the bytes of a datagram. Everything in front of the fields must
be right; in the fields it is lenient, and ignores what follows the last one that it can read.
-/

namespace ReliableDatagrams

namespace Frame

/-- Reads the flags and, if they ask for one, the message id. -/
def readHeader (buffer : Bytes) : Except DecodeError (FrameHeader × Bytes) :=
  match buffer with
  | [] => .error .tooShort
  | first :: rest =>
    let flags := FrameFlags.ofByte first
    if flags.isReliable then
      match Bytes.number? rest 4 with
      | none => .error .tooShort
      | some (id, rest) =>
        if id = 0 then .error .zeroMessageId
        else .ok (⟨flags, some (UInt32.ofNat id)⟩, rest)
    else .ok (⟨flags, none⟩, rest)

/-- Reads the timestamp, if the flags do not rule it out. -/
def readTimestamp (flags : FrameFlags) (content : Bytes) :
    Except DecodeError (Option UInt16 × Bytes) :=
  if flags.ignoreTimestamp then .ok (none, content)
  else
    match content.number? 2 with
    | none => .error .tooShort
    | some (timestamp, rest) => .ok (some (UInt16.ofNat timestamp), rest)

/-- Reads what follows the header of a plain frame or of the first frame of a handshake. -/
def readContent (header : FrameHeader) (kind : FrameKind) (buffer : Bytes) :
    Except DecodeError Frame :=
  match buffer.number? 4 with
  | none => .error .tooShort
  | some (sum, content) =>
    let expected := UInt32.ofNat sum
    let actual := checksum content
    if expected ≠ actual then .error (.checksumMismatch header expected actual)
    else
      match readTimestamp header.flags content with
      | .error error => .error error
      | .ok (timestamp, body) =>
        let (values, _) := readFields (.ofDoubleCount header.flags.doubleCount) body
        .ok { header, kind, timestamp, fields := FieldMap.ofList values }

/-- The frame in the bytes of a datagram. An acknowledgement ends after its message id, and bytes
that follow it are ignored. -/
def decode (buffer : Bytes) : Except DecodeError Frame :=
  if buffer.length < minFrameSize then .error .tooShort
  else
    match readHeader buffer with
    | .error error => .error error
    | .ok (header, rest) =>
      match header.flags.kind? with
      | none => .error (.conflictingFlags header.flags.handshake)
      | some kind =>
        if kind.isControl then .ok { header, kind, timestamp := none, fields := .empty }
        else readContent header kind rest

end Frame

/-- The kind of frame that the first byte of a datagram announces, whatever follows it. -/
def announcedKind? (buffer : Bytes) : Option FrameKind :=
  buffer.head?.bind fun first => (FrameFlags.ofByte first).kind?

end ReliableDatagrams
