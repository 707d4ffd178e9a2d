import Mathlib.Data.List.ModifyLast
import ReliableDatagrams.Proofs.NormalForms

/-!
# Fields delimit themselves

A field tells by itself where it ends. What is written can be read back in front of any other bytes, and
what is read takes up as many bytes as its header announces. It would be written as the same bytes, but
for the bits behind the last boolean of an array, which are ignored when they are read and never set when
they are written (`field_delimits_itself`).
-/

namespace ReliableDatagrams.Proofs

/-- The bytes of a field, with the bits of the last byte cleared that stand for no boolean. -/
def clearPadding (field : Bytes) : FieldValues → Bytes
  | .booleans values =>
    if values.length % 8 = 0 then field
    else field.modifyLast fun byte => UInt8.ofNat (byte.toNat % 2 ^ (values.length % 8))
  | _ => field

lemma bytes_toNat_append (front back : Bytes) :
    Bytes.toNat (front ++ back) = Bytes.toNat front + Nat.pow 256 front.length * back.toNat := by
  induction front with
  | nil => simp [Bytes.toNat]
  | cons byte rest ih =>
    have hpow : Nat.pow 256 (rest.length + 1) = 256 * Nat.pow 256 rest.length := Nat.mul_comm _ _
    rw [List.cons_append, Bytes.toNat, ih, Bytes.toNat, List.length_cons, hpow, Nat.mul_add,
      Nat.mul_assoc, Nat.add_assoc]

/-- Dropping high bits of a number drops them from its last byte. -/
lemma toNat_concat_mod (front : Bytes) (last : UInt8) (used : Nat) :
    Bytes.toNat (front ++ [last]) % 2 ^ (8 * front.length + used) =
      Bytes.toNat (front ++ [UInt8.ofNat (last.toNat % 2 ^ used)]) := by
  have hfront : front.toNat < Nat.pow 256 front.length := bytes_toNat_lt front
  have hpos : 0 < Nat.pow 256 front.length := Nat.zero_lt_of_lt hfront
  have hpow : 2 ^ (8 * front.length + used) = Nat.pow 256 front.length * 2 ^ used := by
    rw [Nat.pow_add, Nat.pow_mul]
    rfl
  have hlast : (UInt8.ofNat (last.toNat % 2 ^ used)).toNat = last.toNat % 2 ^ used :=
    UInt8.toNat_ofNat_of_lt' (Nat.lt_of_le_of_lt (Nat.mod_le _ _) last.toNat_lt)
  have hconcat : ∀ byte : UInt8,
      Bytes.toNat (front ++ [byte]) = front.toNat + Nat.pow 256 front.length * byte.toNat := by
    intro byte
    rw [bytes_toNat_append]
    simp only [Bytes.toNat, Nat.mul_zero, Nat.add_zero]
  rw [hconcat, hconcat, hlast, hpow, Nat.mod_mul, Nat.add_mul_mod_self_left,
    Nat.mod_eq_of_lt hfront, Nat.add_mul_div_left _ _ hpos, Nat.div_eq_of_lt hfront, Nat.zero_add]

lemma ofNat_mod_of_whole {payload : Bytes} {count : Nat} (h : count = 8 * payload.length) :
    Bytes.ofNat payload.length (payload.toNat % 2 ^ count) = payload := by
  have hpow : 2 ^ count = Nat.pow 256 payload.length := by
    rw [h, Nat.pow_mul]
    rfl
  rw [hpow, Nat.mod_eq_of_lt (bytes_toNat_lt payload), Bytes.ofNat_toNat]

lemma ofNat_mod_of_partial {payload : Bytes} {count : Nat} (hlength : payload.length = (count + 7) / 8)
    (hpartial : count % 8 ≠ 0) :
    Bytes.ofNat payload.length (payload.toNat % 2 ^ count) =
      payload.modifyLast fun byte => UInt8.ofNat (byte.toNat % 2 ^ (count % 8)) := by
  rcases List.eq_nil_or_concat' payload with rfl | ⟨front, last, rfl⟩
  · rw [List.length_nil] at hlength
    omega
  · rw [List.length_append, List.length_singleton] at hlength ⊢
    have hbits : count = 8 * front.length + count % 8 := by omega
    have hmod := toNat_concat_mod front last (count % 8)
    rw [← hbits] at hmod
    have hback := Bytes.ofNat_toNat (front ++ [UInt8.ofNat (last.toNat % 2 ^ (count % 8))])
    rw [List.length_append, List.length_singleton] at hback
    rw [hmod, List.modifyLast_concat, hback]

/-- Of all payloads of an array the written one is the one with cleared bits. -/
lemma payload_eq_clearPadding {payload : Bytes} {values : FieldValues} (h : Holds payload values) :
    values.payload = clearPadding payload values := by
  cases values with
  | booleans values =>
    obtain ⟨hlength, hvalues⟩ := (holds_booleans_iff payload values).1 h
    have hnumber : Bits.toNat values = payload.toNat % 2 ^ values.length := by
      conv_lhs => rw [hvalues]
      exact Bits.toNat_ofNat _ _
    rw [FieldValues.payload, ← hlength, hnumber, clearPadding]
    split
    · rename_i hwhole
      exact ofNat_mod_of_whole (by omega)
    · rename_i hpartial
      exact ofNat_mod_of_partial hlength hpartial
  | _ => exact (eq_payload_of_holds h FieldKind.noConfusion).symm

/-- The bits are those of the payload, whatever stands in front of it. -/
lemma clearPadding_append {header payload : Bytes} {values : FieldValues} (h : Holds payload values) :
    clearPadding (header ++ payload) values = header ++ clearPadding payload values := by
  cases values with
  | booleans values =>
    unfold clearPadding
    dsimp only
    split
    · rfl
    · rename_i hpartial
      have hsome : payload ≠ [] := by
        rintro rfl
        have hlength := h.1
        rw [List.length_nil] at hlength
        omega
      exact List.modifyLast_append_of_right_ne_nil _ _ _ hsome
  | _ => rfl

section Fields

variable {width : HeaderWidth} {field : Bytes} {values : FieldValues}

lemma length_of_isField (h : IsField width field values) :
    field.length = width.size + values.kind.payloadSize values.count := by
  cases h with
  | mk count holds => rw [List.length_append, Bytes.length_ofNat, length_of_holds holds]

/-- What stands in the bytes of a field is written as they are, but for its unused bits. -/
lemma writeField_of_isField (h : IsField width field values) :
    writeField width values = .ok (clearPadding field values) := by
  cases h with
  | mk count holds =>
    rw [writeField_eq_ok_iff, clearPadding_append holds, payload_eq_clearPadding holds]
    refine ⟨?_, rfl⟩
    unfold HeaderWidth.maxCount
    omega

end Fields

/-- What is written of an array is read back as the array, floats bit for bit, in front of any bytes, and
just these bytes are left. What is read of an array takes up the header and as many bytes as the elements
take, and the array is written in the same layout as these bytes with the unused bits cleared. An array
is written if and only if the header can count its elements. -/
theorem field_delimits_itself (width : HeaderWidth) (values : FieldValues) :
    ((∃ field, writeField width values = .ok field) ↔ values.count ≤ width.maxCount) ∧
    (∀ field, writeField width values = .ok field → ∀ rest,
      readField width (field ++ rest) = .ok (some (values, rest))) ∧
    ∀ buffer rest, readField width buffer = .ok (some (values, rest)) →
      ∃ field, buffer = field ++ rest ∧
        field.length = width.size + values.kind.payloadSize values.count ∧
        writeField width values = .ok (clearPadding field values) := by
  refine ⟨?_, fun field hwritten rest => readField_writeField hwritten rest, ?_⟩
  · simp only [writeField_eq_ok_iff, exists_and_left, exists_eq, and_true]
  · intro buffer rest hread
    obtain ⟨field, hfield, hbuffer⟩ := isField_of_readField hread
    exact ⟨field, hbuffer, length_of_isField hfield, writeField_of_isField hfield⟩

/-- Ten booleans in two bytes, with set bits behind the last one and two bytes after the field. -/
theorem field_delimits_itself_of_loose_bits :
    let values : FieldValues := .booleans [true, false, true, true, false, false, false, true, false, true]
    let field : Bytes := [0x0a, 0x00, 0x8d, 0xfe]
    let written : Bytes := [0x0a, 0x00, 0x8d, 0x02]
    readField .double (field ++ [7, 8]) = .ok (some (values, [7, 8])) ∧
      writeField .double values = .ok written ∧ clearPadding field values = written ∧
      readField .double (written ++ [7, 8]) = .ok (some (values, [7, 8])) := by
  intro values field written
  have hread : readField .double (field ++ [7, 8]) = .ok (some (values, [7, 8])) := by
    decide +kernel
  obtain ⟨-, hback, htaken⟩ := field_delimits_itself .double values
  obtain ⟨taken, hbuffer, -, hwritten⟩ := htaken _ _ hread
  obtain rfl : field = taken := List.append_cancel_right hbuffer
  have hcleared : clearPadding field values = written := by decide +kernel
  rw [hcleared] at hwritten
  exact ⟨hread, hwritten, hcleared, hback written hwritten [7, 8]⟩

end ReliableDatagrams.Proofs
