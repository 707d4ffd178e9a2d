import Mathlib.Data.List.Sort
import ReliableDatagrams.Proofs.DataFrames
import ReliableDatagrams.Proofs.FrameRoundTrip
import ReliableDatagrams.Proofs.WriteErrors

/-!
# The normal form of a frame

Reading is lenient. It drops the reserved bit, the bits behind the last boolean of an array, the order
and the number of the fields of a kind, and all that follows the last field. So one frame has many
bytes, of which writing makes one choice: `IsNormal` says which one. A frame that is written again as it
was read, like the first frame of a message that is repeated, comes out in this form.
-/

namespace ReliableDatagrams.Proofs

/-- The bits of the last byte of an array of booleans that stand for no element are not set. -/
def HasZeroPadding (payload : Bytes) : FieldValues → Prop
  | .booleans values => ∀ index, values.length ≤ index →
    payload[index / 8]?.map (fun byte => byte.toNat.testBit (index % 8)) ≠ some true
  | _ => True

/-- A body consists of complete fields, one after the other, and their unused bits are not set. -/
inductive ConsistsOf (width : HeaderWidth) : Bytes → List FieldValues → Prop where
  | nil : ConsistsOf width [] []
  | cons {field body : Bytes} {values : FieldValues} {more : List FieldValues}
      (first : IsField width field values)
      (padding : HasZeroPadding (field.drop width.size) values)
      (others : ConsistsOf width body more) : ConsistsOf width (field ++ body) (values :: more)

/-- The fields stand in the order of their kinds, and none is there twice. -/
def AreAscending (fields : List FieldValues) : Prop :=
  fields.Pairwise fun earlier later => earlier.kind.tag < later.kind.tag

/-- The bytes of a frame are as it is written. -/
structure IsNormal (buffer : Bytes) : Prop where
  reserved : (buffer.headD 0).toNat.testBit 7 = false
  body : ∃ fields, AreAscending fields ∧ ConsistsOf (.ofDoubleCount (flagsOf buffer).doubleCount)
    (bodyOf (flagsOf buffer) (contentOf buffer)) fields

lemma testBit_of_length_le {payload : Bytes} {index : Nat} (h : payload.length ≤ index / 8) :
    payload.toNat.testBit index = false := by
  have hsmall := bytes_toNat_lt payload
  have hpow : Nat.pow 256 payload.length = 2 ^ (8 * payload.length) := (Nat.pow_mul 2 8 _).symm
  have hle : 2 ^ (8 * payload.length) ≤ 2 ^ index := Nat.pow_le_pow_right (by decide) (by omega)
  rw [hpow] at hsmall
  exact Nat.testBit_lt_two_pow (Nat.lt_of_lt_of_le hsmall hle)

/-- Unused bits that are not set are zeros above the number that the other bits make. -/
lemma hasZeroPadding_iff (payload : Bytes) (values : List Bool) :
    HasZeroPadding payload (.booleans values) ↔ payload.toNat < 2 ^ values.length := by
  have hbit : ∀ index, payload[index / 8]?.map (fun byte => byte.toNat.testBit (index % 8)) ≠
      some true ↔ payload.toNat.testBit index = false := by
    intro index
    by_cases hinside : index / 8 < payload.length
    · rw [List.getElem?_eq_getElem hinside, testBit_toNat payload index hinside, Option.map_some,
        ne_eq, Option.some.injEq, Bool.not_eq_true]
    · rw [List.getElem?_eq_none (Nat.not_lt.1 hinside),
        testBit_of_length_le (Nat.not_lt.1 hinside)]
      simp only [Option.map_none, ne_eq, reduceCtorEq, not_false_eq_true]
  simp only [HasZeroPadding, hbit]
  constructor
  · exact Nat.lt_pow_two_of_testBit _
  · intro hsmall index hindex
    exact Nat.testBit_lt_two_pow
      (Nat.lt_of_lt_of_le hsmall (Nat.pow_le_pow_right (by decide) hindex))

/-- Of the payloads of an array the one that is written is the one without loose ends. -/
lemma eq_payload_iff (payload : Bytes) (values : FieldValues) :
    payload = values.payload ↔ Holds payload values ∧ HasZeroPadding payload values := by
  cases values with
  | booleans values =>
    rw [holds_booleans_iff, hasZeroPadding_iff]
    constructor
    · rintro rfl
      refine ⟨⟨Bytes.length_ofNat _ _, ?_⟩, ?_⟩
      · rw [FieldValues.payload, bits_ofNat_packed]
      · rw [FieldValues.payload, toNat_packed]
        exact bits_toNat_lt values
    · rintro ⟨⟨hlength, hvalues⟩, hsmall⟩
      have hnumber : Bits.toNat values = payload.toNat := by
        rw [hvalues, Bits.toNat_ofNat]
        exact Nat.mod_eq_of_lt hsmall
      rw [FieldValues.payload, hnumber, ← hlength, Bytes.ofNat_toNat]
  | _ => exact ⟨fun h => ⟨h, trivial⟩, fun h => h.1⟩

lemma writeField_eq_ok_iff_isField (width : HeaderWidth) (values : FieldValues) (field : Bytes) :
    writeField width values = .ok field ↔
      IsField width field values ∧ HasZeroPadding (field.drop width.size) values := by
  have hrange : 0 < width.countRange := by cases width <;> decide
  have hcount : values.count ≤ width.maxCount ↔ values.count < width.countRange := by
    unfold HeaderWidth.maxCount
    omega
  have hpayload : ∀ payload : Bytes,
      (Bytes.ofNat width.size (values.kind.tag * width.countRange + values.count) ++ payload).drop
        width.size = payload := fun payload => List.drop_left' (Bytes.length_ofNat _ _)
  rw [writeField_eq_ok_iff, hcount]
  constructor
  · rintro ⟨hfits, rfl⟩
    obtain ⟨hholds, hpadding⟩ := (eq_payload_iff values.payload values).1 rfl
    refine ⟨.mk hfits hholds, ?_⟩
    rw [hpayload]
    exact hpadding
  · rintro ⟨hfield, hpadding⟩
    cases hfield with
    | @mk _ payload hfits hholds =>
      rw [hpayload] at hpadding
      rw [(eq_payload_iff payload values).2 ⟨hholds, hpadding⟩]
      exact ⟨hfits, rfl⟩

/-- What is written is a body without loose ends, and every such body is written. -/
lemma writeFields_eq_ok_iff (width : HeaderWidth) (fields : List FieldValues) (body : Bytes) :
    writeFields width fields = .ok body ↔ ConsistsOf width body fields := by
  induction fields generalizing body with
  | nil =>
    constructor
    · intro h
      obtain rfl : [] = body := Except.ok.inj h
      exact .nil
    · rintro ⟨⟩
      rfl
  | cons values more ih =>
    rw [writeFields_cons_eq_ok_iff]
    constructor
    · rintro ⟨field, tail, hfield, hmore, rfl⟩
      obtain ⟨hfirst, hpadding⟩ := (writeField_eq_ok_iff_isField _ _ _).1 hfield
      exact .cons hfirst hpadding ((ih tail).1 hmore)
    · rintro (_ | ⟨hfirst, hpadding, hothers⟩)
      exact ⟨_, _, (writeField_eq_ok_iff_isField _ _ _).2 ⟨hfirst, hpadding⟩, (ih _).2 hothers, rfl⟩

lemma kind_of_get? {map : FieldMap} {kind : FieldKind} {values : FieldValues}
    (h : map.get? kind = some values) : values.kind = kind := by
  cases kind <;> obtain ⟨_, -, rfl⟩ := Option.map_eq_some_iff.1 h <;> rfl

lemma areAscending_toList (map : FieldMap) : AreAscending map.toList := by
  have hall : FieldKind.all.Pairwise fun kind later => kind.tag < later.tag := by decide
  refine hall.filterMap map.get? fun kind later hless values hvalues other hother => ?_
  rw [kind_of_get? hvalues, kind_of_get? hother]
  exact hless

lemma get?_merge_of_none {map : FieldMap} {values : FieldValues}
    (h : map.get? values.kind = none) (kind : FieldKind) :
    (map.merge values).get? kind = if kind = values.kind then some values else map.get? kind := by
  cases values <;> cases kind <;>
    simp_all [FieldMap.merge, FieldMap.get?, FieldValues.kind]

lemma get?_mergeAll_iff {fields : List FieldValues}
    (hdistinct : fields.Pairwise fun earlier later => earlier.kind ≠ later.kind) {map : FieldMap}
    (hnew : ∀ values ∈ fields, map.get? values.kind = none) (kind : FieldKind)
    (found : FieldValues) :
    (map.mergeAll fields).get? kind = some found ↔
      (found ∈ fields ∧ found.kind = kind) ∨ map.get? kind = some found := by
  induction fields generalizing map with
  | nil => simp only [FieldMap.mergeAll, List.foldl_nil, List.not_mem_nil, false_and, false_or]
  | cons first rest ih =>
    obtain ⟨hfirst, hrest⟩ := List.pairwise_cons.1 hdistinct
    obtain ⟨hnone, hothers⟩ := List.forall_mem_cons.1 hnew
    have hmerged := get?_merge_of_none hnone
    have hstep := @ih hrest (map.merge first) fun values hmem => by
      rw [hmerged, if_neg (hfirst values hmem).symm, hothers values hmem]
    refine hstep.trans ?_
    rw [hmerged]
    by_cases hkind : kind = first.kind
    · subst hkind
      rw [if_pos rfl, hnone]
      constructor
      · rintro (⟨hmem, hsame⟩ | hsome)
        · exact .inl ⟨List.mem_cons_of_mem _ hmem, hsame⟩
        · obtain rfl := Option.some.inj hsome
          exact .inl ⟨List.mem_cons_self, rfl⟩
      · rintro (⟨hmem, hsame⟩ | hsome)
        · rcases List.mem_cons.1 hmem with rfl | hlater
          · exact .inr rfl
          · exact .inl ⟨hlater, hsame⟩
        · cases hsome
    · rw [if_neg hkind]
      refine or_congr_left (and_congr_left fun hsame => ?_)
      rw [List.mem_cons, or_iff_right]
      rintro rfl
      exact hkind hsame.symm

lemma toList_ofList {fields : List FieldValues} (h : AreAscending fields) :
    (FieldMap.ofList fields).toList = fields := by
  have hirrefl : Std.Irrefl fun earlier later : FieldValues => earlier.kind.tag < later.kind.tag :=
    ⟨fun _ => Nat.lt_irrefl _⟩
  have hantisymm :
      Std.Antisymm fun earlier later : FieldValues => earlier.kind.tag < later.kind.tag :=
    ⟨fun _ _ hless hgreater => absurd hgreater (Nat.lt_asymm hless)⟩
  have hdistinct : fields.Pairwise fun earlier later => earlier.kind ≠ later.kind :=
    h.imp fun hless hsame => Nat.ne_of_lt hless (congrArg FieldKind.tag hsame)
  have hempty : ∀ kind, FieldMap.empty.get? kind = none := fun kind => by cases kind <;> rfl
  refine (areAscending_toList _).eq_of_mem_iff h fun values => ?_
  simp only [mem_toList_iff, FieldMap.ofList, get?_mergeAll_iff hdistinct fun _ _ => hempty _,
    hempty, reduceCtorEq, or_false, exists_and_left, exists_eq', and_true]

/-- What the fields of a body are written as is the body exactly if it is as it is written. -/
lemma eq_body_iff {width : HeaderWidth} {body again : Bytes}
    (h : writeFields width (FieldMap.ofList (readFields width body).1).toList = .ok again) :
    again = body ↔ ∃ fields, AreAscending fields ∧ ConsistsOf width body fields := by
  constructor
  · rintro rfl
    exact ⟨_, areAscending_toList _, (writeFields_eq_ok_iff _ _ _).1 h⟩
  · rintro ⟨fields, hascending, hconsists⟩
    have hwritten := (writeFields_eq_ok_iff _ _ _).2 hconsists
    rw [readFields_writeFields hwritten, toList_ofList hascending, hwritten] at h
    exact (Except.ok.inj h).symm

def optionsOf (frame : Frame) : FrameOptions where
  messageId := frame.header.messageId
  timestamp := frame.timestamp
  doubleCount := frame.header.flags.doubleCount

def reencode (frame : Frame) : Except EncodeError Bytes :=
  encode frame.fields.toList (optionsOf frame)

lemma writtenTimestamp_optionsOf {frame : Frame} (h : frame.timestamp ≠ some 65535) :
    (optionsOf frame).writtenTimestamp = frame.timestamp :=
  if_neg h

lemma toByte_ofByte_iff (byte : UInt8) :
    (FrameFlags.ofByte byte).toByte = byte ↔ byte.toNat.testBit 7 = false := by
  have hall : ∀ number < 256, (FrameFlags.ofByte (UInt8.ofNat number)).toByte = UInt8.ofNat number ↔
      (UInt8.ofNat number).toNat.testBit 7 = false := by decide +kernel
  have hbyte := hall byte.toNat byte.toNat_lt
  rwa [UInt8.ofNat_toNat] at hbyte

lemma flags_of_data {flags : FrameFlags} {kind : FrameKind} (hmarked : flags.kind? = some kind)
    (hdata : kind.isControl = false) :
    kind = (if flags.isReliable then .syn else .plain) ∧
      flags = { syn := flags.isReliable, ignoreTimestamp := flags.ignoreTimestamp,
                doubleCount := flags.doubleCount } := by
  obtain ⟨syn, synSuccess, synFailure, synAckSuccess, ack, ignoreTimestamp, doubleCount⟩ := flags
  revert syn synSuccess synFailure synAckSuccess ack ignoreTimestamp doubleCount hdata
  cases kind <;> decide

namespace IsDataFrame

variable {buffer : Bytes} {frame : Frame} (h : IsDataFrame buffer frame)

include h

lemma isSome_messageId : frame.header.messageId.isSome = (flagsOf buffer).isReliable := by
  rw [h.header, headerOf]
  cases (flagsOf buffer).isReliable <;> rfl

lemma isNone_timestamp : frame.timestamp.isNone = (flagsOf buffer).ignoreTimestamp := by
  rw [h.timestamp, timestampOf]
  cases (flagsOf buffer).ignoreTimestamp <;> rfl

lemma kind_eq : frame.kind = dataKind frame.header.messageId := by
  rw [dataKind, h.isSome_messageId]
  exact (flags_of_data h.marked h.data).1

variable (hstamp : frame.timestamp ≠ some 65535)

include hstamp

lemma areValid : AreValid (optionsOf frame) := by
  refine ⟨?_, fun hlast => absurd hlast hstamp⟩
  rw [optionsOf, h.header]
  exact messageId_headerOf_ne_zero h.messageId

/-- The frame is announced by the flags by which it was announced. -/
lemma flags : (optionsOf frame).flags = flagsOf buffer := by
  have hid : (optionsOf frame).messageId.isSome = (flagsOf buffer).isReliable := h.isSome_messageId
  have hdouble : (optionsOf frame).doubleCount = (flagsOf buffer).doubleCount :=
    congrArg (fun header => header.flags.doubleCount) h.header
  rw [FrameOptions.flags, writtenTimestamp_optionsOf hstamp, h.isNone_timestamp, hid, hdouble]
  exact (flags_of_data h.marked h.data).2.symm

/-- Other fields behind the same header are the same bytes only if they are. -/
lemma frameAround_eq_iff (body : Bytes) :
    frameAround (optionsOf frame) body = buffer ↔
      (buffer.headD 0).toNat.testBit 7 = false ∧
        body = bodyOf (flagsOf buffer) (contentOf buffer) := by
  have hlayout := h.layout
  have hcontent := h.content
  have hfirst : (optionsOf frame).flags.toByte = buffer.headD 0 ↔
      (buffer.headD 0).toNat.testBit 7 = false := by
    rw [h.flags hstamp]
    exact toByte_ofByte_iff _
  rw [← hfirst, frameAround, writtenTimestamp_optionsOf hstamp]
  constructor
  · intro hsame
    obtain ⟨hbyte, hrest⟩ := List.cons.inj (hsame.trans hlayout)
    -- id and checksum take as many bytes on both sides, whatever the checksums are
    have hlengths : (Bytes.ofOption 4 ((optionsOf frame).messageId.map UInt32.toNat) ++
        Bytes.ofNat 4 (checksum (Bytes.ofOption 2 (frame.timestamp.map UInt16.toNat) ++
          body)).toNat).length =
        (Bytes.ofOption 4 (frame.header.messageId.map UInt32.toNat) ++
          Bytes.ofNat 4 (checksum (contentOf buffer)).toNat).length := by
      simp only [optionsOf, List.length_append, Bytes.length_ofNat]
    have hcontents := (List.append_inj hrest hlengths).2
    rw [hcontent] at hcontents
    exact ⟨hbyte, List.append_cancel_left hcontents⟩
  · rintro ⟨hbyte, rfl⟩
    refine Eq.trans ?_ hlayout.symm
    rw [← hcontent, hbyte]
    rfl

lemma writtenFrame_eq : writtenFrame frame.fields.toList (optionsOf frame) = frame := by
  have hheader : ({ flags := flagsOf buffer, messageId := frame.header.messageId } : FrameHeader) =
      frame.header := by
    rw [h.header]
    rfl
  rw [writtenFrame, h.flags hstamp, writtenTimestamp_optionsOf hstamp, ofList_toList]
  change Frame.mk { flags := flagsOf buffer, messageId := frame.header.messageId }
    (dataKind frame.header.messageId) frame.timestamp frame.fields = frame
  rw [hheader, ← h.kind_eq]

/-- The frame is written as the bytes that it was read from exactly if these are normal. -/
lemma eq_iff_isNormal {again : Bytes} (hagain : reencode frame = .ok again) :
    again = buffer ↔ IsNormal buffer := by
  have hwidth : (optionsOf frame).headerWidth = .ofDoubleCount (flagsOf buffer).doubleCount := by
    rw [FrameOptions.headerWidth, optionsOf, h.header]
    rfl
  obtain ⟨-, body, hbody, rfl⟩ := (encode_eq_ok_iff _ _).1 hagain
  rw [hwidth, h.fields] at hbody
  rw [h.frameAround_eq_iff hstamp, eq_body_iff hbody]
  exact ⟨fun ⟨hreserved, hfields⟩ => ⟨hreserved, hfields⟩,
    fun hnormal => ⟨hnormal.reserved, hnormal.body⟩⟩

end IsDataFrame

/-- A plain frame or the first frame of a message that was read from some bytes can be written again,
unless it has the timestamp that is never written or an array became too long. It is read again as the
same frame, bit for bit, and written again as the same bytes, which are normal; they are the bytes from
the start exactly if these were normal. -/
theorem reencode_normalizes {buffer : Bytes} {frame : Frame}
    (hdecoded : Frame.decode buffer = .ok frame) (hkind : frame.kind = .plain ∨ frame.kind = .syn)
    (hstamp : frame.timestamp ≠ some 65535)
    (hcounts : ∀ kind values, frame.fields.get? kind = some values →
      values.count ≤ maxElements frame.header.flags.doubleCount) :
    ∃ again, reencode frame = .ok again ∧ Frame.decode again = .ok frame ∧
      (∀ reread, Frame.decode again = .ok reread → reencode reread = .ok again) ∧
      IsNormal again ∧ (again = buffer ↔ IsNormal buffer) := by
  have hdata := isControl_of_data hkind
  have hframe := isDataFrame_of_decode hdecoded hdata
  have hshort : ∀ values ∈ frame.fields.toList,
      values.count ≤ maxElements (optionsOf frame).doubleCount := by
    intro values hmem
    obtain ⟨kind, hget⟩ := (mem_toList_iff _ _).1 hmem
    exact hcounts kind values hget
  obtain ⟨again, hagain⟩ := (encode_succeeds_iff (hframe.areValid hstamp) _).2 hshort
  have hread := decode_of_encode hagain
  rw [hframe.writtenFrame_eq hstamp] at hread
  refine ⟨again, hagain, hread, fun reread hreread => ?_, ?_, hframe.eq_iff_isNormal hstamp hagain⟩
  · obtain rfl := Except.ok.inj (hread.symm.trans hreread)
    exact hagain
  · exact ((isDataFrame_of_decode hread hdata).eq_iff_isNormal hstamp hagain).1 rfl

/-- A first frame with the reserved bit, two fields of booleans around one of shorts, set bits behind the
last boolean of each, and a field that is cut off. -/
theorem reencode_normalizes_loose_ends :
    let buffer : Bytes := [0x81, 7, 0, 0, 0, 0x5f, 2, 0, 0, 5, 0, 3, 0xfd, 0x61, 2, 1, 7, 0xaa,
      0x44, 1]
    let frame : Frame :=
      { header := { flags := { syn := true }, messageId := some 7 }
        kind := .syn
        timestamp := some 5
        fields :=
          { booleans := some [true, false, true, false, true, false, true, false, true, false]
            shorts := some [0x102] } }
    let again : Bytes := [1, 7, 0, 0, 0, 0xc9, 0, 0, 0, 5, 0, 10, 0x55, 1, 0x61, 2, 1]
    Frame.decode buffer = .ok frame ∧ reencode frame = .ok again ∧
      Frame.decode again = .ok frame ∧ IsNormal again ∧ ¬IsNormal buffer := by
  intro buffer frame again
  have hdecoded : Frame.decode buffer = .ok frame := by decide +kernel
  have hagain : reencode frame = .ok again := by decide +kernel
  have hcounts : ∀ kind ∈ FieldKind.all, ∀ values ∈ frame.fields.get? kind,
      values.count ≤ maxElements frame.header.flags.doubleCount := by
    decide +kernel
  obtain ⟨found, hfound, hread, -, hnormal, hsame⟩ := reencode_normalizes hdecoded (.inr rfl)
    (by decide) fun kind values hget => hcounts kind (FieldKind.mem_all kind) values hget
  obtain rfl : again = found := Except.ok.inj (hagain.symm.trans hfound)
  exact ⟨hdecoded, hagain, hread, hnormal, fun hloose => absurd (hsame.2 hloose) (by decide)⟩

end ReliableDatagrams.Proofs
