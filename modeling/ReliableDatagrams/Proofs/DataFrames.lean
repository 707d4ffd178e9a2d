import ReliableDatagrams.Frame.Encode
import ReliableDatagrams.Proofs.FrameGrammar

/-!
# Frames with fields

Plain frames and the first frames of handshakes have a checksum and fields. The bytes of such a frame
are its first byte, the message id, the checksum, the timestamp and what the fields are read from, one
after the other (`IsDataFrame.layout`).
-/

namespace ReliableDatagrams.Proofs

/-- The bytes are right up to the end of a checksum. -/
structure IsRightUpToSum (buffer : Bytes) (kind : FrameKind) : Prop where
  length : sumOffset buffer + 4 ≤ buffer.length
  marked : (flagsOf buffer).kind? = some kind
  data : kind.isControl = false
  messageId : (flagsOf buffer).isReliable = true → numberAt buffer 1 4 ≠ 0

/-- The checksum that stands in front of the content. -/
def storedSum (buffer : Bytes) : UInt32 :=
  UInt32.ofNat (numberAt buffer (sumOffset buffer) 4)

/-- The bytes are read as a plain frame or as the first frame of a handshake. -/
structure IsDataFrame (buffer : Bytes) (frame : Frame) : Prop extends
    IsRightUpToSum buffer frame.kind where
  header : frame.header = headerOf buffer
  sum : storedSum buffer = checksum (contentOf buffer)
  stamp : (flagsOf buffer).ignoreTimestamp = false → 2 ≤ (contentOf buffer).length
  timestamp : frame.timestamp = timestampOf (flagsOf buffer) (contentOf buffer)
  fields : frame.fields = FieldMap.ofList (readFields
    (.ofDoubleCount (flagsOf buffer).doubleCount) (bodyOf (flagsOf buffer) (contentOf buffer))).1

lemma isControl_of_data {kind : FrameKind} (h : kind = .plain ∨ kind = .syn) :
    kind.isControl = false := by
  rcases h with rfl | rfl <;> rfl

lemma isReliable_of_syn {flags : FrameFlags} (h : flags.kind? = some .syn) :
    flags.isReliable = true := by
  have hset : flags.syn = true := congrArg FrameFlags.syn ((kind?_eq_some_iff _ _).1 h).symm
  simp [FrameFlags.isReliable, hset]

lemma sumOffset_pos (buffer : Bytes) : 0 < sumOffset buffer := by
  unfold sumOffset
  split <;> decide

/-- Whatever frame is read, its header and its kind are those of the bytes. -/
lemma header_of_decode {buffer : Bytes} {frame : Frame} (h : Frame.decode buffer = .ok frame) :
    frame.header = headerOf buffer ∧ (flagsOf buffer).kind? = some frame.kind ∧
      ((flagsOf buffer).isReliable = true → numberAt buffer 1 4 ≠ 0) := by
  rw [decode_eq_iff] at h
  unfold IsReadAs at h
  dsimp only at h
  split_ifs at h with hshort hzero hconflict hcontrol hcut hsum htimeless
  · obtain ⟨kind, hkind, hok⟩ := h
    cases hok
    exact ⟨rfl, (kind?_eq_some_iff _ _).2 hkind, fun hreliable h0 => hzero ⟨hreliable, h0⟩⟩
  · obtain ⟨kind, _, _, hkind, -, hok⟩ := h
    cases hok
    exact ⟨rfl, (kind?_eq_some_iff _ _).2 hkind, fun hreliable h0 => hzero ⟨hreliable, h0⟩⟩

lemma isDataFrame_of_decode {buffer : Bytes} {frame : Frame}
    (h : Frame.decode buffer = .ok frame) (hdata : frame.kind.isControl = false) :
    IsDataFrame buffer frame := by
  have hflags : (headerOf buffer).flags = flagsOf buffer := rfl
  obtain ⟨hheader, hmarked, hid⟩ := header_of_decode h
  rw [decode_eq_iff] at h
  unfold IsReadAs at h
  dsimp only at h
  split_ifs at h with hshort hzero hconflict hcontrol hcut hsum htimeless
  · obtain ⟨kind, hkind, hok⟩ := h
    cases hok
    rw [isControl_of_handshake hkind, hcontrol] at hdata
    cases hdata
  · obtain ⟨kind, values, ignored, -, hlongest, hok⟩ := h
    cases hok
    refine ⟨⟨Nat.le_of_not_lt hcut, hmarked, hdata, hid⟩, hheader, ?_, fun hstamp => ?_, rfl, ?_⟩
    · rw [checksum_eq]
      exact not_not.1 hsum
    · refine Nat.le_of_not_lt fun hless => htimeless ⟨?_, hless⟩
      rw [hflags, hstamp]
      exact Bool.false_ne_true
    · rw [hflags, ← readFields_eq_iff] at hlongest
      rw [hlongest]

/-- Bytes do not agree with their checksum if all is right up to there and the sums are different. -/
lemma decode_eq_mismatch_iff (buffer : Bytes) (header : FrameHeader) (expected actual : UInt32) :
    Frame.decode buffer = .error (.checksumMismatch header expected actual) ↔
      (∃ kind, IsRightUpToSum buffer kind) ∧ expected ≠ actual ∧ header = headerOf buffer ∧
        expected = storedSum buffer ∧ actual = checksum (contentOf buffer) := by
  have hflags : (headerOf buffer).flags = flagsOf buffer := rfl
  rw [decode_eq_iff, checksum_eq]
  unfold IsReadAs
  dsimp only
  constructor
  · intro h
    split_ifs at h with hshort hzero hconflict hcontrol hcut hsum htimeless
    · cases h
    · cases h
    · cases h
    · obtain ⟨_, _, hok⟩ := h
      cases hok
    · cases h
    · cases h
      refine ⟨?_, hsum, rfl, rfl, rfl⟩
      cases hkind : (flagsOf buffer).kind? with
      | none => exact absurd ((kind?_eq_none_iff _).1 hkind) hconflict
      | some kind =>
        refine ⟨kind, Nat.le_of_not_lt hcut, hkind, ?_, fun hreliable h0 => hzero ⟨hreliable, h0⟩⟩
        rw [isControl_of_handshake ((kind?_eq_some_iff _ _).1 hkind)]
        exact Bool.eq_false_iff.2 hcontrol
    · cases h
    · obtain ⟨_, _, _, _, _, hok⟩ := h
      cases hok
  · rintro ⟨⟨kind, hright⟩, hsum, rfl, rfl, rfl⟩
    have hpos := sumOffset_pos buffer
    have hlength := hright.length
    have hshort : ¬ buffer.length < 5 := by omega
    have hzero : ¬((flagsOf buffer).isReliable = true ∧ numberAt buffer 1 4 = 0) :=
      fun hwrong => hright.messageId hwrong.1 hwrong.2
    have hsingle : ¬ 1 < stepCount (flagsOf buffer) := by
      rw [← kind?_eq_none_iff, hright.marked]
      exact Option.some_ne_none _
    have hcontrol : (flagsOf buffer).isControl = false := by
      rw [← isControl_of_handshake ((kind?_eq_some_iff _ _).1 hright.marked), hright.data]
    rw [storedSum] at hsum ⊢
    simp only [hflags, if_neg hshort, if_neg hzero, if_neg hsingle, hcontrol, Bool.false_eq_true,
      if_false, if_neg (Nat.not_lt.2 hlength), if_pos hsum]

lemma messageId_headerOf_ne_zero {buffer : Bytes}
    (h : (flagsOf buffer).isReliable = true → numberAt buffer 1 4 ≠ 0) :
    (headerOf buffer).messageId ≠ some 0 := by
  rw [headerOf]
  by_cases hreliable : (flagsOf buffer).isReliable = true
  · rw [if_pos hreliable]
    exact fun hzero =>
      (ofNat_numberAt_ne_zero_iff buffer 1).2 (h hreliable) (Option.some.inj hzero)
  · rw [if_neg hreliable]
    exact (Option.some_ne_none _).symm

/-- A frame that can be read has no message id or one that is not 0. -/
lemma messageId_ne_zero {buffer : Bytes} {frame : Frame} (h : Frame.decode buffer = .ok frame) :
    frame.header.messageId ≠ some 0 := by
  obtain ⟨hheader, -, hid⟩ := header_of_decode h
  rw [hheader]
  exact messageId_headerOf_ne_zero hid

lemma announcedKind?_of_decode {buffer : Bytes} {frame : Frame}
    (h : Frame.decode buffer = .ok frame) : announcedKind? buffer = some frame.kind := by
  cases buffer with
  | nil => cases h
  | cons first rest => exact (header_of_decode h).2.1

lemma announcedKind?_of_mismatch {buffer : Bytes} {header : FrameHeader} {expected actual : UInt32}
    (h : Frame.decode buffer = .error (.checksumMismatch header expected actual)) :
    announcedKind? buffer = header.flags.kind? := by
  obtain ⟨-, -, rfl, -⟩ := (decode_eq_mismatch_iff _ _ _ _).1 h
  cases buffer with
  | nil => cases h
  | cons first rest => rfl

lemma ofNat_numberAt {buffer : Bytes} {offset width : Nat} (h : offset + width ≤ buffer.length) :
    Bytes.ofNat width (numberAt buffer offset width) = (buffer.drop offset).take width := by
  have hsame := Bytes.ofNat_toNat ((buffer.drop offset).take width)
  rwa [List.length_take, List.length_drop, Nat.min_eq_left (by omega)] at hsame

lemma drop_eq_number_append {buffer : Bytes} {offset width : Nat}
    (h : offset + width ≤ buffer.length) :
    buffer.drop offset =
      Bytes.ofNat width (numberAt buffer offset width) ++ buffer.drop (offset + width) := by
  rw [ofNat_numberAt h, ← List.drop_drop, List.take_append_drop]

namespace IsDataFrame

variable {buffer : Bytes} {frame : Frame} (h : IsDataFrame buffer frame)

include h

/-- The id, if there is one, stands between the first byte and the checksum. -/
lemma drop_one : buffer.drop 1 =
    Bytes.ofOption 4 (frame.header.messageId.map UInt32.toNat) ++ buffer.drop (sumOffset buffer) := by
  have hlength := h.length
  rw [h.header, headerOf]
  unfold sumOffset at hlength ⊢
  by_cases hreliable : (flagsOf buffer).isReliable = true
  · rw [if_pos hreliable] at hlength
    have hid : numberAt buffer 1 4 < UInt32.size := numberAt_lt buffer 1 4
    simp only [if_pos hreliable, Option.map_some, UInt32.toNat_ofNat_of_lt' hid]
    exact drop_eq_number_append (by omega)
  · simp only [if_neg hreliable, Option.map_none, Bytes.ofOption, List.nil_append]

lemma content : contentOf buffer = Bytes.ofOption 2 (frame.timestamp.map UInt16.toNat) ++
    bodyOf (flagsOf buffer) (contentOf buffer) := by
  rw [h.timestamp, timestampOf, bodyOf]
  cases hignored : (flagsOf buffer).ignoreTimestamp with
  | true => rfl
  | false =>
    have hstamp : numberAt (contentOf buffer) 0 2 < UInt16.size := numberAt_lt (contentOf buffer) 0 2
    have hlong : 0 + 2 ≤ (contentOf buffer).length := h.stamp hignored
    simp only [Bool.false_eq_true, if_false, Option.map_some, UInt16.toNat_ofNat_of_lt' hstamp]
    exact drop_eq_number_append hlong

theorem layout : buffer = buffer.headD 0 ::
    (Bytes.ofOption 4 (frame.header.messageId.map UInt32.toNat) ++
      Bytes.ofNat 4 (checksum (contentOf buffer)).toNat ++ contentOf buffer) := by
  have hlength := h.length
  have hsum : numberAt buffer (sumOffset buffer) 4 < UInt32.size := numberAt_lt _ _ _
  have hstored : Bytes.ofNat 4 (checksum (contentOf buffer)).toNat ++ contentOf buffer =
      buffer.drop (sumOffset buffer) := by
    rw [← h.sum, storedSum, UInt32.toNat_ofNat_of_lt' hsum]
    exact (drop_eq_number_append hlength).symm
  rw [List.append_assoc, hstored, ← h.drop_one]
  cases buffer with
  | nil => cases hlength
  | cons first rest => rfl

end IsDataFrame

end ReliableDatagrams.Proofs
