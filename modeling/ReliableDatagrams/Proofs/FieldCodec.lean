import Mathlib.Tactic.Common
import ReliableDatagrams.Frame.Field

/-!
# Reading back written fields

`readField` undoes `writeField` whatever bytes follow, and `readFields` undoes `writeFields`. Per
kind this rests on one fact: the elements are parsed from exactly the payload that holds them.
-/

namespace ReliableDatagrams.Proofs

lemma split?_append (front rest : Bytes) :
    Bytes.split? (front ++ rest) front.length = some (front, rest) := by
  rw [Bytes.split?_eq, if_pos (by simp), List.take_left, List.drop_left]

lemma number?_ofNat_append (width value : Nat) (rest : Bytes) (h : value < Nat.pow 256 width) :
    Bytes.number? (Bytes.ofNat width value ++ rest) width = some (value, rest) := by
  have hs := split?_append (Bytes.ofNat width value) rest
  rw [Bytes.length_ofNat] at hs
  simp only [Bytes.number?, hs, Option.map_some, Bytes.toNat_ofNat, Nat.mod_eq_of_lt h]

lemma bits_toNat_lt (bits : List Bool) : Bits.toNat bits < Nat.pow 2 bits.length := by
  have h := Bits.toNat_ofNat bits.length (Bits.toNat bits)
  rw [Bits.ofNat_toNat] at h
  rw [h]
  exact Nat.mod_lt _ (Nat.pow_pos (by decide))

lemma bytes_toNat_lt (bytes : Bytes) : bytes.toNat < Nat.pow 256 bytes.length := by
  have h := Bytes.toNat_ofNat bytes.length bytes.toNat
  rw [Bytes.ofNat_toNat] at h
  rw [h]
  exact Nat.mod_lt _ (Nat.pow_pos (by decide))

lemma toNat_packed (bits : List Bool) :
    Bytes.toNat (Bytes.ofNat ((bits.length + 7) / 8) (Bits.toNat bits)) = Bits.toNat bits := by
  have hpow : Nat.pow 256 ((bits.length + 7) / 8) = Nat.pow 2 (8 * ((bits.length + 7) / 8)) :=
    (Nat.pow_mul 2 8 _).symm
  have hle : Nat.pow 2 bits.length ≤ Nat.pow 2 (8 * ((bits.length + 7) / 8)) :=
    Nat.pow_le_pow_right (by decide) (by omega)
  rw [Bytes.toNat_ofNat, hpow, Nat.mod_eq_of_lt (Nat.lt_of_lt_of_le (bits_toNat_lt bits) hle)]

lemma bits_ofNat_packed (bits : List Bool) :
    Bits.ofNat bits.length
      (Bytes.toNat (Bytes.ofNat ((bits.length + 7) / 8) (Bits.toNat bits))) = bits := by
  rw [toNat_packed, Bits.ofNat_toNat]

lemma words_flatMap {α : Type} (width : Nat) (value : α → Nat)
    (h : ∀ x, value x < Nat.pow 256 width) (xs : List α) :
    words width xs.length (xs.flatMap fun x => Bytes.ofNat width (value x)) = xs.map value := by
  induction xs with
  | nil => rfl
  | cons x xs ih =>
    have hl : (Bytes.ofNat width (value x)).length = width := Bytes.length_ofNat _ _
    rw [List.length_cons, List.flatMap_cons, words, List.take_left' hl, List.drop_left' hl, ih,
      Bytes.toNat_ofNat, Nat.mod_eq_of_lt (h x), List.map_cons]

lemma length_flatMap_ofNat {α : Type} (width : Nat) (value : α → Nat) (xs : List α) :
    (xs.flatMap fun x => Bytes.ofNat width (value x)).length = xs.length * width := by
  induction xs with
  | nil => simp
  | cons x xs ih => simp only [List.flatMap_cons, List.length_append, Bytes.length_ofNat, ih,
      List.length_cons, Nat.succ_mul, Nat.add_comm]

lemma fromUTF8?_toUTF8 (text : String) :
    String.fromUTF8? text.toUTF8.data.toList.toByteArray = some text := by
  have h : text.toUTF8.data.toList.toByteArray = text.toByteArray :=
    ByteArray.ext (by simp [List.data_toByteArray])
  rw [h, String.fromUTF8?, dif_pos text.isValidUTF8]
  rfl

theorem payload_length (values : FieldValues) :
    values.payload.length = values.kind.payloadSize values.count := by
  cases values with
  | booleans values => exact Bytes.length_ofNat _ _
  | bytes values => rfl
  | chars text =>
    rw [FieldValues.payload, Array.length_toList, ByteArray.size_data]
    rfl
  | shorts values => exact length_flatMap_ofNat 2 _ values
  | integers values => exact length_flatMap_ofNat 4 _ values
  | floats values => exact length_flatMap_ofNat 4 _ values

theorem parse?_payload (values : FieldValues) :
    values.kind.parse? values.count values.payload = some values := by
  cases values with
  | booleans values =>
    simp only [FieldValues.kind, FieldKind.parse?, FieldValues.count, FieldValues.payload,
      bits_ofNat_packed]
  | bytes values => rfl
  | chars text =>
    simp only [FieldValues.kind, FieldKind.parse?, FieldValues.payload, fromUTF8?_toUTF8,
      Option.map_some]
  | shorts values =>
    simp only [FieldValues.kind, FieldKind.parse?, FieldValues.count, FieldValues.payload]
    have hback : ∀ x : Int16, (UInt16.ofNat x.toUInt16.toNat).toInt16 = x := by
      intro x
      rw [UInt16.ofNat_toNat, Int16.toInt16_toUInt16]
    rw [words_flatMap 2 _ fun x => x.toUInt16.toNat_lt, List.map_map]
    simp only [Function.comp_def, hback, List.map_id']
  | integers values =>
    simp only [FieldValues.kind, FieldKind.parse?, FieldValues.count, FieldValues.payload]
    have hback : ∀ x : Int32, (UInt32.ofNat x.toUInt32.toNat).toInt32 = x := by
      intro x
      rw [UInt32.ofNat_toNat, Int32.toInt32_toUInt32]
    rw [words_flatMap 4 _ fun x => x.toUInt32.toNat_lt, List.map_map]
    simp only [Function.comp_def, hback, List.map_id']
  | floats values =>
    simp only [FieldValues.kind, FieldKind.parse?, FieldValues.count, FieldValues.payload]
    rw [words_flatMap 4 _ fun x => x.bits.toNat_lt, List.map_map]
    simp only [Function.comp_def, UInt32.ofNat_toNat, List.map_id']

lemma tag_lt (kind : FieldKind) : kind.tag < 6 := by
  cases kind <;> decide

/-- A field can be written if and only if its header can count the elements. -/
theorem writeField_eq_ok_iff (width : HeaderWidth) (values : FieldValues) (field : Bytes) :
    writeField width values = .ok field ↔
      values.count ≤ width.maxCount ∧
        field = Bytes.ofNat width.size (values.kind.tag * width.countRange + values.count) ++
          values.payload := by
  unfold writeField
  by_cases h : width.maxCount < values.count
  · simp only [if_pos h, reduceCtorEq, false_iff, not_and]
    omega
  · have hfit : narrow? (8 * width.size) values.count = some values.count := by
      rw [narrow?, if_pos]
      cases width <;>
        simp only [HeaderWidth.maxCount, HeaderWidth.countRange, HeaderWidth.size] at * <;>
        simp only [Nat.shiftLeft_eq] <;> omega
    simp only [if_neg h, hfit, Except.ok.injEq]
    constructor
    · exact fun hf => ⟨by omega, hf.symm⟩
    · exact fun hf => hf.2.symm

lemma header_parts (width : HeaderWidth) (kind : FieldKind) (count : Nat)
    (h : count ≤ width.maxCount) :
    (kind.tag * width.countRange + count) / width.countRange = kind.tag ∧
      (kind.tag * width.countRange + count) % width.countRange = count ∧
      kind.tag * width.countRange + count < Nat.pow 256 width.size := by
  have ht := tag_lt kind
  cases width <;>
    simp only [HeaderWidth.maxCount, HeaderWidth.countRange, HeaderWidth.size, Nat.pow_eq] at * <;>
    refine ⟨?_, ?_, ?_⟩ <;> omega

theorem readField_writeField {width : HeaderWidth} {values : FieldValues} {field : Bytes}
    (h : writeField width values = .ok field) (rest : Bytes) :
    readField width (field ++ rest) = .ok (some (values, rest)) := by
  obtain ⟨hcount, rfl⟩ := (writeField_eq_ok_iff width values field).mp h
  obtain ⟨htag, hmod, hlt⟩ := header_parts width values.kind values.count hcount
  have hsplit := split?_append values.payload rest
  rw [payload_length] at hsplit
  rw [List.append_assoc, readField, number?_ofNat_append _ _ _ hlt]
  simp only [htag, hmod, FieldKind.ofTag?_tag, hsplit, parse?_payload]

lemma readFields_nil (width : HeaderWidth) : readFields width [] = ([], []) := by
  have h : readField width [] = .ok none := by cases width <;> rfl
  rw [readFields]
  split
  · simp_all
  · rfl

theorem readFields_append {width : HeaderWidth} {values : FieldValues} {field : Bytes}
    (h : writeField width values = .ok field) (rest : Bytes) :
    readFields width (field ++ rest) =
      (values :: (readFields width rest).1, (readFields width rest).2) := by
  have hr := readField_writeField h rest
  rw [readFields]
  split
  · simp_all
  · simp_all

lemma writeFields_cons_eq_ok_iff (width : HeaderWidth) (values : FieldValues)
    (more : List FieldValues) (body : Bytes) :
    writeFields width (values :: more) = .ok body ↔
      ∃ field tail, writeField width values = .ok field ∧ writeFields width more = .ok tail ∧
        field ++ tail = body := by
  rw [writeFields]
  cases hfield : writeField width values with
  | error error => simp only [reduceCtorEq, false_and, exists_false]
  | ok field =>
    cases hmore : writeFields width more with
    | error error => simp only [Except.map, reduceCtorEq, false_and, and_false, exists_false]
    | ok tail =>
      simp only [Except.map, Except.ok.injEq, exists_and_left, exists_eq_left']

theorem readFields_writeFields {width : HeaderWidth} {fields : List FieldValues} {body : Bytes}
    (h : writeFields width fields = .ok body) : readFields width body = (fields, []) := by
  induction fields generalizing body with
  | nil =>
    obtain rfl : [] = body := Except.ok.inj h
    exact readFields_nil width
  | cons values more ih =>
    obtain ⟨field, tail, hfield, hmore, rfl⟩ := (writeFields_cons_eq_ok_iff _ _ _ _).1 h
    rw [readFields_append hfield, ih hmore]

def fieldsSize (width : HeaderWidth) : List FieldValues → Nat
  | [] => 0
  | values :: more =>
    width.size + values.kind.payloadSize values.count + fieldsSize width more

lemma writeFields_of_counts {width : HeaderWidth} {fields : List FieldValues}
    (h : ∀ values ∈ fields, values.count ≤ width.maxCount) :
    ∃ body, writeFields width fields = .ok body ∧ body.length = fieldsSize width fields := by
  induction fields with
  | nil => exact ⟨[], rfl, rfl⟩
  | cons values more ih =>
    obtain ⟨tail, htail, hlength⟩ := ih fun other hmem => h other (List.mem_cons_of_mem _ hmem)
    let field := Bytes.ofNat width.size (values.kind.tag * width.countRange + values.count) ++
      values.payload
    have hfield : writeField width values = .ok field :=
      (writeField_eq_ok_iff width values field).2 ⟨h values List.mem_cons_self, rfl⟩
    refine ⟨field ++ tail, ?_, ?_⟩
    · exact (writeFields_cons_eq_ok_iff _ _ _ _).2 ⟨field, tail, hfield, htail, rfl⟩
    · rw [List.length_append, List.length_append, Bytes.length_ofNat, payload_length, hlength]
      rfl

lemma counts_of_writeFields {width : HeaderWidth} {fields : List FieldValues} {body : Bytes}
    (h : writeFields width fields = .ok body) :
    ∀ values ∈ fields, values.count ≤ width.maxCount := by
  induction fields generalizing body with
  | nil => exact fun _ hmem => absurd hmem List.not_mem_nil
  | cons values more ih =>
    obtain ⟨field, tail, hfield, hmore, -⟩ := (writeFields_cons_eq_ok_iff _ _ _ _).1 h
    exact List.forall_mem_cons.2 ⟨((writeField_eq_ok_iff width values field).1 hfield).1, ih hmore⟩

lemma length_of_writeFields {width : HeaderWidth} {fields : List FieldValues} {body : Bytes}
    (h : writeFields width fields = .ok body) : body.length = fieldsSize width fields := by
  obtain ⟨other, hother, hlength⟩ := writeFields_of_counts (counts_of_writeFields h)
  rw [Except.ok.inj (h.symm.trans hother), hlength]

end ReliableDatagrams.Proofs
