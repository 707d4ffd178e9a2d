import Mathlib.Tactic.Common
import ReliableDatagrams.Frame.Decode
import ReliableDatagrams.Proofs.FieldGrammar

/-!
# The grammar of frames

Which bytes are a frame, and what is wrong with those that are not, as one list of conditions of which
the first that holds decides. Every number is looked up at its place in the buffer, and the conditions
before it see to it that the buffer reaches that far; what the fields are is left to their grammar.
-/

namespace ReliableDatagrams.Proofs

def numberAt (buffer : Bytes) (offset width : Nat) : Nat :=
  Bytes.toNat ((buffer.drop offset).take width)

def flagsOf (buffer : Bytes) : FrameFlags :=
  FrameFlags.ofByte (buffer.headD 0)

def headerOf (buffer : Bytes) : FrameHeader where
  flags := flagsOf buffer
  messageId :=
    if (flagsOf buffer).isReliable then some (UInt32.ofNat (numberAt buffer 1 4)) else none

/-- Where the checksum stands in a frame that has one: behind the message id, if there is one. -/
def sumOffset (buffer : Bytes) : Nat :=
  if (flagsOf buffer).isReliable then 5 else 1

def contentOf (buffer : Bytes) : Bytes :=
  buffer.drop (sumOffset buffer + 4)

def timestampOf (flags : FrameFlags) (content : Bytes) : Option UInt16 :=
  if flags.ignoreTimestamp then none else some (UInt16.ofNat (numberAt content 0 2))

def bodyOf (flags : FrameFlags) (content : Bytes) : Bytes :=
  if flags.ignoreTimestamp then content else content.drop 2

def byteSum (content : Bytes) : Nat :=
  content.foldr (fun byte sum => byte.toNat + sum) 0

/-- The number of steps of the handshake that are marked. -/
def stepCount (flags : FrameFlags) : Nat :=
  [flags.syn, flags.synSuccess, flags.synFailure, flags.synAckSuccess, flags.ack].count true

def IsReadAs (buffer : Bytes) (result : Except DecodeError Frame) : Prop :=
  let header := headerOf buffer
  let content := contentOf buffer
  let stored := UInt32.ofNat (numberAt buffer (sumOffset buffer) 4)
  let actual := UInt32.ofNat (byteSum content)
  if buffer.length < 5 then result = .error .tooShort
  else if header.flags.isReliable ∧ numberAt buffer 1 4 = 0 then result = .error .zeroMessageId
  else if 1 < stepCount header.flags then
    result = .error (.conflictingFlags header.flags.handshake)
  else if header.flags.isControl then
    ∃ kind : FrameKind, kind.flags = header.flags.handshake ∧
      result = .ok { header, kind, timestamp := none, fields := .empty }
  else if buffer.length < sumOffset buffer + 4 then result = .error .tooShort
  else if stored ≠ actual then result = .error (.checksumMismatch header stored actual)
  else if ¬ header.flags.ignoreTimestamp ∧ content.length < 2 then result = .error .tooShort
  else
    ∃ (kind : FrameKind) (values : List FieldValues) (ignored : Bytes),
      kind.flags = header.flags.handshake ∧
        IsLongest (.ofDoubleCount header.flags.doubleCount) (bodyOf header.flags content) values
          ignored ∧
        result = .ok
          { header, kind
            timestamp := timestampOf header.flags content
            fields := FieldMap.ofList values }

lemma kind?_eq_some_iff (flags : FrameFlags) (kind : FrameKind) :
    flags.kind? = some kind ↔ kind.flags = flags.handshake := by
  obtain ⟨syn, synSuccess, synFailure, synAckSuccess, ack, ignoreTimestamp, doubleCount⟩ := flags
  revert syn synSuccess synFailure synAckSuccess ack ignoreTimestamp doubleCount
  cases kind <;> decide

lemma kind?_eq_none_iff (flags : FrameFlags) : flags.kind? = none ↔ 1 < stepCount flags := by
  obtain ⟨syn, synSuccess, synFailure, synAckSuccess, ack, ignoreTimestamp, doubleCount⟩ := flags
  revert syn synSuccess synFailure synAckSuccess ack ignoreTimestamp doubleCount
  decide

lemma isControl_of_handshake {flags : FrameFlags} {kind : FrameKind}
    (h : kind.flags = flags.handshake) : kind.isControl = flags.isControl := by
  rw [FrameKind.isControl, h]
  rfl

lemma checksum_eq (content : Bytes) : checksum content = UInt32.ofNat (byteSum content) := by
  have hfold : ∀ start : UInt32,
      content.foldl (fun sum byte => sum + byte.toUInt32) start =
        start + UInt32.ofNat (byteSum content) := by
    induction content with
    | nil => simp [byteSum]
    | cons byte rest ih =>
      intro start
      have hcons : byteSum (byte :: rest) = byte.toNat + byteSum rest := rfl
      have hbyte : UInt32.ofNat byte.toNat = byte.toUInt32 := UInt32.ofNat_uInt8ToNat _
      rw [List.foldl_cons, ih, hcons, UInt32.ofNat_add, hbyte, UInt32.add_assoc]
  rw [checksum, hfold, UInt32.zero_add]

lemma numberAt_lt (buffer : Bytes) (offset width : Nat) :
    numberAt buffer offset width < Nat.pow 256 width := by
  have hwidth : ((buffer.drop offset).take width).length ≤ width := List.length_take_le _ _
  exact Nat.lt_of_lt_of_le (bytes_toNat_lt _) (Nat.pow_le_pow_right (by decide) hwidth)

lemma ofNat_numberAt_ne_zero_iff (buffer : Bytes) (offset : Nat) :
    UInt32.ofNat (numberAt buffer offset 4) ≠ 0 ↔ numberAt buffer offset 4 ≠ 0 := by
  have hsmall : numberAt buffer offset 4 < UInt32.size := numberAt_lt buffer offset 4
  rw [ne_eq, ← UInt32.toNat_inj, UInt32.toNat_ofNat_of_lt' hsmall]
  rfl

lemma number?_drop (buffer : Bytes) (offset width : Nat) (h : offset ≤ buffer.length) :
    Bytes.number? (buffer.drop offset) width =
      if offset + width ≤ buffer.length then
        some (numberAt buffer offset width, buffer.drop (offset + width))
      else none := by
  have hlength : width ≤ (buffer.drop offset).length ↔ offset + width ≤ buffer.length := by
    rw [List.length_drop]
    omega
  rw [Bytes.number?, Bytes.split?_eq]
  by_cases hlong : offset + width ≤ buffer.length
  · rw [if_pos (hlength.2 hlong), if_pos hlong, Option.map_some, List.drop_drop]
    rfl
  · rw [if_neg fun hw => hlong (hlength.1 hw), if_neg hlong, Option.map_none]

lemma readHeader_eq {buffer : Bytes} (h : 5 ≤ buffer.length) :
    Frame.readHeader buffer =
      if (flagsOf buffer).isReliable ∧ numberAt buffer 1 4 = 0 then .error .zeroMessageId
      else .ok (headerOf buffer, buffer.drop (sumOffset buffer)) := by
  cases buffer with
  | nil => cases h
  | cons first rest =>
    have hnumber := number?_drop (first :: rest) 1 4 (by omega)
    rw [if_pos (by omega), List.drop_one, List.tail_cons] at hnumber
    have hflags : flagsOf (first :: rest) = FrameFlags.ofByte first := rfl
    unfold Frame.readHeader headerOf sumOffset
    rw [hflags]
    dsimp only
    cases hreliable : (FrameFlags.ofByte first).isReliable with
    | false => simp
    | true =>
      rw [hnumber]
      by_cases hzero : numberAt (first :: rest) 1 4 = 0 <;> simp [hzero]

lemma readTimestamp_eq (flags : FrameFlags) (content : Bytes) :
    Frame.readTimestamp flags content =
      if ¬ flags.ignoreTimestamp ∧ content.length < 2 then .error .tooShort
      else .ok (timestampOf flags content, bodyOf flags content) := by
  unfold Frame.readTimestamp timestampOf bodyOf
  cases flags.ignoreTimestamp with
  | true => simp
  | false =>
    have hnumber := number?_drop content 0 2 (Nat.zero_le _)
    rw [List.drop_zero, Nat.zero_add] at hnumber
    rw [hnumber]
    by_cases hlong : 2 ≤ content.length
    · have hshort : ¬ content.length < 2 := Nat.not_lt.2 hlong
      simp only [if_pos hlong, hshort, and_false, if_false, Bool.false_eq_true]
    · have hshort : content.length < 2 := Nat.lt_of_not_le hlong
      simp only [if_neg hlong, hshort, Bool.false_eq_true, not_false_eq_true, and_self, if_true,
        if_false]

lemma readContent_iff {buffer : Bytes} {kind : FrameKind} (h : sumOffset buffer ≤ buffer.length)
    (hkind : kind.flags = (headerOf buffer).flags.handshake) (result : Except DecodeError Frame) :
    Frame.readContent (headerOf buffer) kind (buffer.drop (sumOffset buffer)) = result ↔
      let header := headerOf buffer
      let content := contentOf buffer
      let stored := UInt32.ofNat (numberAt buffer (sumOffset buffer) 4)
      let actual := UInt32.ofNat (byteSum content)
      if buffer.length < sumOffset buffer + 4 then result = .error .tooShort
      else if stored ≠ actual then result = .error (.checksumMismatch header stored actual)
      else if ¬ header.flags.ignoreTimestamp ∧ content.length < 2 then result = .error .tooShort
      else
        ∃ (kind : FrameKind) (values : List FieldValues) (ignored : Bytes),
          kind.flags = header.flags.handshake ∧
            IsLongest (.ofDoubleCount header.flags.doubleCount) (bodyOf header.flags content)
              values ignored ∧
            result = .ok
              { header, kind
                timestamp := timestampOf header.flags content
                fields := FieldMap.ofList values } := by
  unfold Frame.readContent
  rw [number?_drop _ _ _ h]
  by_cases hsum : sumOffset buffer + 4 ≤ buffer.length
  · simp only [if_pos hsum, Nat.not_lt.2 hsum, if_false, checksum_eq, readTimestamp_eq]
    rw [← contentOf]
    by_cases hsame : UInt32.ofNat (numberAt buffer (sumOffset buffer) 4) =
        UInt32.ofNat (byteSum (contentOf buffer))
    · simp only [hsame, ne_eq, not_true_eq_false, if_false]
      by_cases hshort : ¬ (headerOf buffer).flags.ignoreTimestamp ∧ (contentOf buffer).length < 2
      · simp only [if_pos hshort]
        exact eq_comm
      · simp only [if_neg hshort]
        constructor
        · rintro rfl
          exact ⟨kind, _, _, hkind, (readFields_eq_iff _ _ _ _).1 rfl, rfl⟩
        · rintro ⟨other, values, ignored, hother, hlongest, rfl⟩
          have hsameKind : kind = other := by
            rw [← kind?_eq_some_iff] at hkind hother
            exact Option.some.inj (hkind.symm.trans hother)
          rw [(readFields_eq_iff _ _ _ _).2 hlongest, hsameKind]
    · simp only [if_pos hsame]
      exact eq_comm
  · simp only [if_neg hsum, Nat.lt_of_not_le hsum, if_true]
    exact eq_comm

lemma decode_eq_iff (buffer : Bytes) (result : Except DecodeError Frame) :
    Frame.decode buffer = result ↔ IsReadAs buffer result := by
  have hflags : (headerOf buffer).flags = flagsOf buffer := rfl
  unfold Frame.decode IsReadAs
  by_cases hshort : buffer.length < 5
  · rw [if_pos (show buffer.length < minFrameSize from hshort)]
    simp only [if_pos hshort]
    exact eq_comm
  rw [if_neg (show ¬ buffer.length < minFrameSize from hshort), readHeader_eq (by omega)]
  simp only [if_neg hshort, hflags]
  by_cases hzero : (flagsOf buffer).isReliable ∧ numberAt buffer 1 4 = 0
  · simp only [if_pos hzero]
    exact eq_comm
  simp only [if_neg hzero, hflags]
  cases hkind : (flagsOf buffer).kind? with
  | none =>
    simp only [if_pos ((kind?_eq_none_iff _).1 hkind)]
    exact eq_comm
  | some kind =>
    have hsingle : ¬ 1 < stepCount (flagsOf buffer) := by
      rw [← kind?_eq_none_iff, hkind]
      exact Option.some_ne_none kind
    have hhandshake := (kind?_eq_some_iff _ _).1 hkind
    simp only [if_neg hsingle, isControl_of_handshake hhandshake]
    cases hcontrol : (flagsOf buffer).isControl with
    | true =>
      simp only [if_true]
      constructor
      · rintro rfl
        exact ⟨kind, hhandshake, rfl⟩
      · rintro ⟨other, hother, rfl⟩
        rw [← kind?_eq_some_iff, hkind] at hother
        rw [Option.some.inj hother]
    | false =>
      have hoffset : sumOffset buffer ≤ buffer.length := by
        unfold sumOffset
        split <;> omega
      simp only [Bool.false_eq_true, if_false]
      exact readContent_iff hoffset hhandshake result

/-- Bytes are read as the first condition that holds for them says, and never fail for a field that
makes no sense. The fields of a frame are merged in their order, and there is just one longest sequence
of fields with which its body begins; the bytes behind it count for nothing but the checksum. -/
theorem decode_follows_grammar (buffer : Bytes) :
    (∀ result, Frame.decode buffer = result ↔ IsReadAs buffer result) ∧
      (∀ header, Frame.decode buffer ≠ .error (.malformedFieldHeader header)) ∧
        ∀ (width : HeaderWidth) (body : Bytes),
          ∃! longest : List FieldValues × Bytes, IsLongest width body longest.1 longest.2 := by
  refine ⟨decode_eq_iff buffer, fun header hmalformed => ?_, fun width body => ?_⟩
  · -- no condition of the list leads to this error
    rw [decode_eq_iff] at hmalformed
    simp only [IsReadAs, Except.error.injEq, reduceCtorEq, and_false, exists_false,
      ite_self] at hmalformed
  · refine ⟨readFields width body, (readFields_eq_iff _ _ _ _).1 rfl, fun other hother => ?_⟩
    exact ((readFields_eq_iff _ _ _ _).2 hother).symm

end ReliableDatagrams.Proofs
