import ReliableDatagrams.Proofs.AnswerDiscipline

/-!
# Damaged bytes

A byte of a frame that is not the one that was sent shows in the checksum, wherever it stands behind
the header: either the stored sum is another one or the sum of the content, and not both. Two bytes
differ by less than the range of a sum, so that it makes no difference that sums wrap around. The error
comes before anything of the content is looked at, and has the header of the frame that was sent.
-/

namespace ReliableDatagrams.Proofs

lemma byteSum_set (content : Bytes) {index : Nat} (h : index < content.length) (byte : UInt8) :
    byteSum (content.set index byte) + content[index].toNat = byteSum content + byte.toNat := by
  have hcons : ∀ (first : UInt8) (rest : Bytes),
      byteSum (first :: rest) = first.toNat + byteSum rest := fun _ _ => rfl
  induction content generalizing index with
  | nil => cases h
  | cons first rest ih =>
    cases index with
    | zero =>
      simp only [List.set_cons_zero, List.getElem_cons_zero, hcons]
      omega
    | succ index =>
      have hrest := ih (Nat.lt_of_succ_lt_succ h)
      simp only [List.set_cons_succ, List.getElem_cons_succ, hcons]
      omega

lemma checksum_set_ne (content : Bytes) {index : Nat} (h : index < content.length) {byte : UInt8}
    (hother : byte ≠ content[index]) : checksum (content.set index byte) ≠ checksum content := by
  intro hsame
  refine hother (UInt8.toNat_inj.1 ?_)
  have hsums := byteSum_set content h byte
  have hnew := byte.toNat_lt
  have hold := content[index].toNat_lt
  simp only [checksum_eq, ← UInt32.toNat_inj, UInt32.toNat_ofNat'] at hsame
  omega

lemma eq_of_toNat_eq {bytes other : Bytes} (hlength : bytes.length = other.length)
    (h : bytes.toNat = other.toNat) : bytes = other := by
  rw [← Bytes.ofNat_toNat bytes, hlength, h, Bytes.ofNat_toNat]

section Change

variable {buffer : Bytes} {index : Nat} (byte : UInt8)

lemma numberAt_set {offset width : Nat} (h : offset + width ≤ index) :
    numberAt (buffer.set index byte) offset width = numberAt buffer offset width := by
  rw [numberAt, List.drop_set, if_neg (by omega), List.take_set, List.set_eq_of_length_le, numberAt]
  exact Nat.le_trans (List.length_take_le _ _) (by omega)

lemma numberAt_set_ne {offset width : Nat} (hfrom : offset ≤ index) (hto : index < offset + width)
    (hinside : index < buffer.length) (hother : byte ≠ buffer[index]) :
    numberAt (buffer.set index byte) offset width ≠ numberAt buffer offset width := by
  intro hsame
  have hslice := eq_of_toNat_eq (by simp only [List.length_take, List.length_drop,
    List.length_set]) hsame
  have hplace := congrArg (fun slice : Bytes => slice[index - offset]?) hslice
  have hwidth : index - offset < width := by omega
  simp only [List.getElem?_take, if_pos hwidth, List.getElem?_drop, Nat.add_sub_cancel' hfrom,
    List.getElem?_set_self hinside, List.getElem?_eq_getElem hinside, Option.some.injEq] at hplace
  exact hother hplace

lemma flagsOf_set (h : 0 < index) : flagsOf (buffer.set index byte) = flagsOf buffer := by
  cases buffer with
  | nil => rfl
  | cons first rest =>
    obtain ⟨later, rfl⟩ := Nat.exists_eq_succ_of_ne_zero (Nat.ne_of_gt h)
    rfl

variable (h : sumOffset buffer ≤ index)

include h

lemma sumOffset_set : sumOffset (buffer.set index byte) = sumOffset buffer := by
  rw [sumOffset, flagsOf_set byte (Nat.lt_of_lt_of_le (sumOffset_pos buffer) h), sumOffset]

lemma messageId_set (hreliable : (flagsOf buffer).isReliable = true) :
    numberAt (buffer.set index byte) 1 4 = numberAt buffer 1 4 := by
  rw [sumOffset, if_pos hreliable] at h
  exact numberAt_set byte h

lemma headerOf_set : headerOf (buffer.set index byte) = headerOf buffer := by
  rw [headerOf, flagsOf_set byte (Nat.lt_of_lt_of_le (sumOffset_pos buffer) h), headerOf]
  by_cases hreliable : (flagsOf buffer).isReliable = true
  · rw [messageId_set byte h hreliable]
  · rw [if_neg hreliable, if_neg hreliable]

lemma IsRightUpToSum.set {kind : FrameKind} (hright : IsRightUpToSum buffer kind) :
    IsRightUpToSum (buffer.set index byte) kind := by
  have hflags := @flagsOf_set buffer index byte (Nat.lt_of_lt_of_le (sumOffset_pos buffer) h)
  refine ⟨?_, ?_, hright.data, ?_⟩
  · rw [sumOffset_set byte h, List.length_set]
    exact hright.length
  · rw [hflags]
    exact hright.marked
  · intro hreliable
    rw [hflags] at hreliable
    rw [messageId_set byte h hreliable]
    exact hright.messageId hreliable

/-- The stored sum changes, or the one of the content, and the other one stays as it is. -/
lemma sum_set_ne (hinside : index < buffer.length) (hother : byte ≠ buffer[index])
    (hsum : storedSum buffer = checksum (contentOf buffer)) :
    storedSum (buffer.set index byte) ≠ checksum (contentOf (buffer.set index byte)) := by
  rw [storedSum, contentOf, sumOffset_set byte h]
  by_cases hstored : index < sumOffset buffer + 4
  · rw [List.drop_set_of_lt hstored, ← contentOf, ← hsum, storedSum]
    have hnew : numberAt (buffer.set index byte) (sumOffset buffer) 4 < UInt32.size :=
      numberAt_lt _ _ _
    have hold : numberAt buffer (sumOffset buffer) 4 < UInt32.size := numberAt_lt _ _ _
    rw [ne_eq, ← UInt32.toNat_inj, UInt32.toNat_ofNat_of_lt' hnew, UInt32.toNat_ofNat_of_lt' hold]
    exact numberAt_set_ne byte h hstored hinside hother
  · have hcovered : sumOffset buffer + 4 ≤ index := Nat.not_lt.1 hstored
    have hplace : index - (sumOffset buffer + 4) < (contentOf buffer).length := by
      rw [contentOf, List.length_drop]
      omega
    have hbyte : (contentOf buffer)[index - (sumOffset buffer + 4)] = buffer[index] := by
      simp only [contentOf, List.getElem_drop, Nat.add_sub_cancel' hcovered]
    rw [numberAt_set byte hcovered, List.drop_set, if_neg hstored, ← contentOf, ← storedSum, hsum]
    exact (checksum_set_ne _ hplace (hbyte ▸ hother)).symm

end Change

/-- An engine rejects the first frame of a message under the id of the message, and says so as long as
the message has not been accepted. -/
structure IsRejectedUnder (datagram : Bytes) (id : UInt32) : Prop where
  id_ne_zero : id ≠ 0
  receive : ∀ (engine : Engine) occasion source,
    engine.receive occasion source datagram = engine.rejectSyn occasion source id
  answer : ∀ (engine : Engine) occasion source, WellFiled engine.store →
    ¬ .synAckSent ≤ (connectionOrNew engine.store occasion.now ⟨source, id, .receiver⟩).status →
    (engine.receive occasion source datagram).2 =
      [.sent source (encodeControl .synFailure id)
        (occasion.accepts source (encodeControl .synFailure id))]

lemma isRejectedUnder_of_mismatch {datagram : Bytes} {header : FrameHeader} {id : UInt32}
    {expected actual : UInt32}
    (h : Frame.decode datagram = .error (.checksumMismatch header expected actual))
    (hkind : header.flags.kind? = some .syn) (hid : header.messageId = some id) (hne : id ≠ 0) :
    IsRejectedUnder datagram id := by
  have hreceive : ∀ (engine : Engine) occasion source,
      engine.receive occasion source datagram = engine.rejectSyn occasion source id := by
    intro engine occasion source
    unfold Engine.receive
    simp only [h, hkind, hid]
  refine ⟨hne, hreceive, fun engine occasion source hfiled hwaiting => ?_⟩
  rw [hreceive]
  exact (rejectSyn_waiting occasion rfl (connectionOrNew_key hfiled _ _) hwaiting).2

lemma IsDataFrame.exists_id {buffer : Bytes} {frame : Frame} (h : IsDataFrame buffer frame)
    (hkind : frame.kind = .syn) : ∃ id, frame.header.messageId = some id ∧ id ≠ 0 := by
  have hreliable := isReliable_of_syn (hkind ▸ h.marked)
  refine ⟨UInt32.ofNat (numberAt buffer 1 4), ?_, ?_⟩
  · rw [h.header]
    exact if_pos hreliable
  · exact (ofNat_numberAt_ne_zero_iff buffer 1).2 (h.messageId hreliable)

/-- A single byte of a plain frame or of the first frame of a message that becomes another one, in the
checksum or anywhere behind it, is found: the bytes are read as far as the header, which is the one of the
frame, and do not agree with their checksum. The first frame of a message is rejected under the id of the
message for it. -/
theorem damaged_byte_found {buffer : Bytes} {frame : Frame}
    (hdecoded : Frame.decode buffer = .ok frame) (hkind : frame.kind = .plain ∨ frame.kind = .syn)
    {index : Nat} (hbehind : sumOffset buffer ≤ index) (hinside : index < buffer.length)
    {byte : UInt8} (hother : byte ≠ buffer[index]) :
    (∃ expected actual, expected ≠ actual ∧ Frame.decode (buffer.set index byte) =
      .error (.checksumMismatch frame.header expected actual)) ∧
    (frame.kind = .syn → ∃ id, frame.header.messageId = some id ∧
      IsRejectedUnder (buffer.set index byte) id) := by
  have hframe := isDataFrame_of_decode hdecoded (isControl_of_data hkind)
  have hsums := sum_set_ne byte hbehind hinside hother hframe.sum
  have hright := hframe.toIsRightUpToSum.set byte hbehind
  have hdamaged := (decode_eq_mismatch_iff _ _ _ _).2 ⟨⟨_, hright⟩, hsums, rfl, rfl, rfl⟩
  rw [headerOf_set byte hbehind, ← hframe.header] at hdamaged
  refine ⟨⟨_, _, hsums, hdamaged⟩, fun hsyn => ?_⟩
  obtain ⟨id, hid, hne⟩ := hframe.exists_id hsyn
  refine ⟨id, hid, isRejectedUnder_of_mismatch hdamaged ?_ hid hne⟩
  have hmarked := hframe.marked
  rw [hsyn] at hmarked
  rw [hframe.header]
  exact hmarked

/-- A first frame with a field of one byte and two bytes behind it that make no field, of which the last
one is damaged; and the same with a damaged checksum. -/
theorem damaged_byte_found_in_ignored :
    let buffer : Bytes := [0x21, 7, 0, 0, 0, 0x28, 1, 0, 0, 0x21, 5, 0xff, 3]
    let frame : Frame :=
      { header := { flags := { syn := true, ignoreTimestamp := true }, messageId := some 7 }
        kind := .syn
        timestamp := none
        fields := { bytes := some [5] } }
    Frame.decode buffer = .ok frame ∧
    Frame.decode (buffer.set 12 4) = .error (.checksumMismatch frame.header 0x128 0x129) ∧
    IsRejectedUnder (buffer.set 12 4) 7 ∧ IsRejectedUnder (buffer.set 5 0x29) 7 := by
  intro buffer frame
  have hdecoded : Frame.decode buffer = .ok frame := by decide +kernel
  obtain ⟨id, hid, hignored⟩ := (damaged_byte_found hdecoded (.inr rfl)
    (show sumOffset buffer ≤ 12 by decide) (show 12 < buffer.length by decide)
    (show (4 : UInt8) ≠ 3 by decide)).2 rfl
  obtain ⟨same, hsame, hsum⟩ := (damaged_byte_found hdecoded (.inr rfl)
    (show sumOffset buffer ≤ 5 by decide) (show 5 < buffer.length by decide)
    (show (0x29 : UInt8) ≠ 0x28 by decide)).2 rfl
  obtain rfl : 7 = id := Option.some.inj hid
  obtain rfl : 7 = same := Option.some.inj hsame
  exact ⟨hdecoded, by decide +kernel, hignored, hsum⟩

end ReliableDatagrams.Proofs
