import ReliableDatagrams.Frame.Field

/-!
# Writing frames

`encode` writes plain frames and the first frames of handshakes, `encodeControl` writes
acknowledgements. The checksum covers everything behind it.
-/

namespace ReliableDatagrams

namespace FrameOptions

/-- The timestamp that is written: the wraparound timestamp is left out. -/
def writtenTimestamp (options : FrameOptions) : Option UInt16 :=
  if options.timestamp = some wraparoundTimestamp then none else options.timestamp

/-- The flags that announce the layout which the options ask for. -/
def flags (options : FrameOptions) : FrameFlags :=
  { syn := options.messageId.isSome
    ignoreTimestamp := options.writtenTimestamp.isNone
    doubleCount := options.doubleCount }

def headerWidth (options : FrameOptions) : HeaderWidth :=
  .ofDoubleCount options.doubleCount

end FrameOptions

def Bytes.ofOption (width : Nat) : Option Nat → Bytes
  | none => []
  | some value => Bytes.ofNat width value

/-- The frame that carries the given fields. Its message id must not be 0, and a frame with the
wraparound timestamp needs one. -/
def encode (fields : List FieldValues) (options : FrameOptions) : Except EncodeError Bytes :=
  if options.timestamp = some wraparoundTimestamp ∧ options.messageId = none then
    .error .missingMessageId
  else if options.messageId = some 0 then .error .zeroMessageId
  else
    match writeFields options.headerWidth fields with
    | .error error => .error error
    | .ok body =>
      let content := Bytes.ofOption 2 (options.writtenTimestamp.map UInt16.toNat) ++ body
      .ok (options.flags.toByte :: Bytes.ofOption 4 (options.messageId.map UInt32.toNat) ++
        Bytes.ofNat 4 (checksum content).toNat ++ content)

def encodeControl (kind : FrameKind) (messageId : UInt32) : Bytes :=
  kind.flags.toByte :: Bytes.ofNat 4 messageId.toNat

end ReliableDatagrams
