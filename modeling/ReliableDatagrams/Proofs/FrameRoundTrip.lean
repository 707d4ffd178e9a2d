import Mathlib.Tactic.Common
import ReliableDatagrams.Frame.Decode
import ReliableDatagrams.Proofs.WriteErrors

/-!
# Reading back written frames

Whatever `encode` writes, `Frame.decode` reads back as the frame that the options and the fields
describe, and acknowledgements are read back too. In particular the fields of a map survive, which
is what a first frame needs in order to be written again from what was read of it.
-/

namespace ReliableDatagrams.Proofs

lemma ofByte_toByte (flags : FrameFlags) : FrameFlags.ofByte flags.toByte = flags := by
  obtain ⟨syn, synSuccess, synFailure, synAckSuccess, ack, ignoreTimestamp, doubleCount⟩ := flags
  revert syn synSuccess synFailure synAckSuccess ack ignoreTimestamp doubleCount
  decide

/-- The kind of frame that carries fields: it is decided by whether there is a message id. -/
def dataKind (messageId : Option UInt32) : FrameKind :=
  if messageId.isSome then .syn else .plain

/-- The frame that a reader makes of what is written with some options. -/
def writtenFrame (fields : List FieldValues) (options : FrameOptions) : Frame where
  header := { flags := options.flags, messageId := options.messageId }
  kind := dataKind options.messageId
  timestamp := options.writtenTimestamp
  fields := FieldMap.ofList fields

lemma readHeader_flags (options : FrameOptions) (hid : options.messageId ≠ some 0)
    (rest : Bytes) :
    Frame.readHeader (options.flags.toByte ::
        (Bytes.ofOption 4 (options.messageId.map UInt32.toNat) ++ rest)) =
      .ok ({ flags := options.flags, messageId := options.messageId }, rest) := by
  simp only [Frame.readHeader, ofByte_toByte]
  cases h : options.messageId with
  | none =>
    have hplain : options.flags.isReliable = false := by simp [FrameFlags.isReliable,
      FrameOptions.flags, h]
    simp [hplain, Bytes.ofOption]
  | some id =>
    have hsyn : options.flags.isReliable = true := by simp [FrameFlags.isReliable,
      FrameOptions.flags, h]
    have hne : id.toNat ≠ 0 := by
      intro h0
      have hzero : id = 0 := UInt32.toNat_inj.1 h0
      exact hid (by rw [h, hzero])
    simp only [hsyn, if_true, Option.map_some, Bytes.ofOption,
      number?_ofNat_append 4 id.toNat rest id.toNat_lt, if_neg hne, UInt32.ofNat_toNat]

lemma readTimestamp_written (options : FrameOptions) (body : Bytes) :
    Frame.readTimestamp options.flags
        (Bytes.ofOption 2 (options.writtenTimestamp.map UInt16.toNat) ++ body) =
      .ok (options.writtenTimestamp, body) := by
  cases h : options.writtenTimestamp with
  | none =>
    have hflag : options.flags.ignoreTimestamp = true := by simp [FrameOptions.flags, h]
    simp [Frame.readTimestamp, hflag, Bytes.ofOption]
  | some timestamp =>
    have hflag : options.flags.ignoreTimestamp = false := by simp [FrameOptions.flags, h]
    simp only [Frame.readTimestamp, hflag, Bool.false_eq_true, if_false, Option.map_some,
      Bytes.ofOption, number?_ofNat_append 2 timestamp.toNat body timestamp.toNat_lt,
      UInt16.ofNat_toNat]

lemma readContent_written (options : FrameOptions) (kind : FrameKind) (fields : List FieldValues)
    (body : Bytes) (h : writeFields options.headerWidth fields = .ok body) :
    let content := Bytes.ofOption 2 (options.writtenTimestamp.map UInt16.toNat) ++ body
    Frame.readContent { flags := options.flags, messageId := options.messageId } kind
        (Bytes.ofNat 4 (checksum content).toNat ++ content) =
      .ok { writtenFrame fields options with kind } := by
  intro content
  have hwidth : HeaderWidth.ofDoubleCount options.flags.doubleCount = options.headerWidth := rfl
  rw [Frame.readContent, number?_ofNat_append 4 _ _ (checksum content).toNat_lt]
  simp only [UInt32.ofNat_toNat, ne_eq, not_true_eq_false, if_false, content,
    readTimestamp_written, hwidth, readFields_writeFields h, writtenFrame]

lemma kind?_of_options (options : FrameOptions) :
    options.flags.kind? = some (dataKind options.messageId) := by
  cases h : options.messageId <;> simp [FrameOptions.flags, FrameFlags.kind?, dataKind, h]

theorem decode_of_encode {fields : List FieldValues} {options : FrameOptions} {buffer : Bytes}
    (h : encode fields options = .ok buffer) :
    Frame.decode buffer = .ok (writtenFrame fields options) := by
  obtain ⟨hvalid, body, hbody, rfl⟩ := (encode_eq_ok_iff _ _).1 h
  have hlong : ¬ (frameAround options body).length < minFrameSize := by
    rw [length_frameAround, minFrameSize]
    omega
  have hcontrol : (dataKind options.messageId).isControl = false := by
    cases options.messageId <;> rfl
  rw [Frame.decode, if_neg hlong, frameAround]
  simp only [List.append_assoc, readHeader_flags options hvalid.messageId, kind?_of_options,
    hcontrol, Bool.false_eq_true, if_false, readContent_written options _ fields body hbody]
  rfl

/-- Frame round trip: what is written is read back as a frame of the kind, message id, timestamp and
layout that the options ask for, with the given arrays merged in order. Floats are bit patterns, so
that their equality is the one of bits. -/
theorem encode_decode_roundTrip (fields : List FieldValues) (options : FrameOptions)
    (buffer : Bytes) (h : encode fields options = .ok buffer) :
    Frame.decode buffer = .ok
      { header :=
          { flags :=
              { syn := options.messageId.isSome
                ignoreTimestamp :=
                  decide (options.timestamp = none ∨ options.timestamp = some 65535)
                doubleCount := options.doubleCount }
            messageId := options.messageId }
        kind := if options.messageId.isSome then .syn else .plain
        timestamp := if options.timestamp = some 65535 then none else options.timestamp
        fields := fields.foldl FieldMap.merge FieldMap.empty } := by
  have hignore : options.writtenTimestamp.isNone =
      decide (options.timestamp = none ∨ options.timestamp = some 65535) := by
    unfold FrameOptions.writtenTimestamp
    by_cases hw : options.timestamp = some wraparoundTimestamp
    · have hw' : options.timestamp = some 65535 := hw
      rw [if_pos hw, decide_eq_true (Or.inr hw')]
      rfl
    · have hw' : ¬ options.timestamp = some 65535 := hw
      rw [if_neg hw]
      cases ht : options.timestamp with
      | none => simp
      | some timestamp => simpa [ht] using hw'
  rw [decode_of_encode h, writtenFrame, FrameOptions.flags, hignore]
  rfl

/-- Two arrays of booleans across a byte, an empty array, text and a NaN, with the timestamp that is
left out. -/
theorem encode_decode_roundTrip_wraparound :
    let fields : List FieldValues :=
      [.booleans [true, false, true, true, false, false, true, false, true], .integers [-2],
        .booleans [false, true], .shorts [], .chars "é", .floats [⟨0x7fc00001⟩]]
    let options : FrameOptions :=
      { messageId := some 7, timestamp := some 65535, doubleCount := true }
    ∃ buffer, encode fields options = .ok buffer ∧ Frame.decode buffer = .ok
      { header :=
          { flags := { syn := true, ignoreTimestamp := true, doubleCount := true }
            messageId := some 7 }
        kind := .syn
        timestamp := none
        fields :=
          { booleans :=
              some [true, false, true, true, false, false, true, false, true, false, true]
            chars := some "é"
            shorts := some []
            integers := some [-2]
            floats := some [⟨0x7fc00001⟩] } } := by
  intro fields options
  refine ⟨_, rfl, ?_⟩
  exact encode_decode_roundTrip fields options _ rfl

/-- An acknowledgement is read back as one of its kind, for its message. -/
theorem decode_encodeControl {kind : FrameKind} (hkind : kind.isControl = true) {id : UInt32}
    (hid : id ≠ 0) :
    Frame.decode (encodeControl kind id) = .ok
      { header := { flags := kind.flags, messageId := some id }, kind, timestamp := none
        fields := .empty } := by
  have hne : id.toNat ≠ 0 := fun h0 => hid (UInt32.toNat_inj.1 h0)
  have hlong : ¬ (encodeControl kind id).length < minFrameSize := by
    simp [encodeControl, minFrameSize]
  have hreliable : kind.flags.isReliable = true := by
    cases kind <;> first | rfl | exact absurd hkind (by decide)
  have hnumber := number?_ofNat_append 4 id.toNat [] id.toNat_lt
  rw [List.append_nil] at hnumber
  rw [Frame.decode, if_neg hlong, encodeControl]
  simp only [Frame.readHeader, ofByte_toByte, hreliable, if_true, hnumber, if_neg hne,
    UInt32.ofNat_toNat, FrameKind.kind?_flags, hkind]

theorem ofList_toList (fields : FieldMap) : FieldMap.ofList fields.toList = fields := by
  obtain ⟨booleans, bytes, chars, shorts, integers, floats⟩ := fields
  cases booleans <;> cases bytes <;> cases chars <;> cases shorts <;> cases integers <;>
    cases floats <;> simp [FieldMap.ofList, FieldMap.mergeAll, FieldMap.toList, FieldKind.all,
      List.filterMap_cons, FieldMap.get?, FieldMap.merge, FieldMap.empty]

end ReliableDatagrams.Proofs
