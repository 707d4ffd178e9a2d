import Mathlib.Data.Nat.Bitwise
import ReliableDatagrams.Proofs.FieldCodec

/-!
# The grammar of fields

What a field is, said without reading one: a header with a known tag and a count, and a payload that
holds as many elements. The bits of a last byte of booleans that stand for no element are arbitrary, so
that one array has several payloads; every other kind has one.

`readField` takes off exactly the fields of this grammar, and `readFields` the longest sequence of them
with which a body begins.
-/

namespace ReliableDatagrams.Proofs

/-- The bytes are a payload of an array. -/
def Holds (payload : Bytes) : FieldValues → Prop
  | .booleans values =>
    payload.length = (values.length + 7) / 8 ∧ ∀ index < values.length,
      values[index]? = payload[index / 8]?.map fun byte => byte.toNat.testBit (index % 8)
  | .bytes values => payload = values
  | .chars text => payload = text.toUTF8.data.toList
  | .shorts values => payload = values.flatMap fun x => Bytes.ofNat 2 x.toUInt16.toNat
  | .integers values => payload = values.flatMap fun x => Bytes.ofNat 4 x.toUInt32.toNat
  | .floats values => payload = values.flatMap fun x => Bytes.ofNat 4 x.bits.toNat

lemma getElem?_bits_ofNat (count value index : Nat) :
    (Bits.ofNat count value)[index]? = if index < count then some (value.testBit index) else none := by
  induction count generalizing value index with
  | zero => rfl
  | succ count ih =>
    cases index with
    | zero => simp [Bits.ofNat, Nat.testBit_zero, beq_eq_decide]
    | succ index => simp [Bits.ofNat, ih, Nat.testBit_add_one]

lemma testBit_toNat (payload : Bytes) (index : Nat) (h : index / 8 < payload.length) :
    (Bytes.toNat payload).testBit index = (payload[index / 8]).toNat.testBit (index % 8) := by
  induction payload generalizing index with
  | nil => cases h
  | cons byte rest ih =>
    have hbyte : byte.toNat < 2 ^ 8 := byte.toNat_lt
    have hsum : Bytes.toNat (byte :: rest) = 2 ^ 8 * Bytes.toNat rest + byte.toNat := by
      rw [Bytes.toNat, Nat.add_comm]
      rfl
    rw [hsum, Nat.testBit_two_pow_mul_add _ hbyte]
    by_cases hfirst : index < 8
    · have hdiv : index / 8 = 0 := Nat.div_eq_of_lt hfirst
      simp only [hfirst, if_true, hdiv, List.getElem_cons_zero, Nat.mod_eq_of_lt hfirst]
    · have hdiv : index / 8 = (index - 8) / 8 + 1 := by omega
      have hmod : index % 8 = (index - 8) % 8 := by omega
      have hrest : (index - 8) / 8 < rest.length := by
        rw [List.length_cons] at h
        omega
      simp only [hfirst, if_false, hdiv, hmod, List.getElem_cons_succ]
      exact ih _ hrest

/-- The bits of a payload are read from the lowest of its first byte upwards. -/
lemma holds_booleans_iff (payload : Bytes) (values : List Bool) :
    Holds payload (.booleans values) ↔ payload.length = (values.length + 7) / 8 ∧
      values = Bits.ofNat values.length (Bytes.toNat payload) := by
  refine and_congr_right fun hlength => ?_
  have hbit : ∀ index < values.length,
      payload[index / 8]?.map (fun byte => byte.toNat.testBit (index % 8)) =
        (Bits.ofNat values.length (Bytes.toNat payload))[index]? := by
    intro index hindex
    have hinside : index / 8 < payload.length := by omega
    rw [getElem?_bits_ofNat, if_pos hindex, testBit_toNat payload index hinside,
      List.getElem?_eq_getElem hinside, Option.map_some]
  constructor
  · intro hbits
    refine List.ext_getElem? fun index => ?_
    by_cases hindex : index < values.length
    · rw [hbits index hindex, hbit index hindex]
    · rw [List.getElem?_eq_none (by omega), getElem?_bits_ofNat, if_neg hindex]
  · intro hvalues index hindex
    rw [hbit index hindex, ← hvalues]

lemma eq_payload_of_holds {payload : Bytes} {values : FieldValues} (h : Holds payload values)
    (hkind : values.kind ≠ .boolean) : payload = values.payload := by
  cases values with
  | booleans values => exact absurd rfl hkind
  | _ => exact h

lemma length_of_holds {payload : Bytes} {values : FieldValues} (h : Holds payload values) :
    payload.length = values.kind.payloadSize values.count := by
  by_cases hkind : values.kind = .boolean
  · cases values with
    | booleans values => exact h.1
    | _ => cases hkind
  · rw [eq_payload_of_holds h hkind, payload_length]

lemma flatMap_words (width count : Nat) (payload : Bytes) (h : payload.length = count * width) :
    (words width count payload).flatMap (Bytes.ofNat width) = payload := by
  induction count generalizing payload with
  | zero =>
    rw [Nat.zero_mul] at h
    rw [List.length_eq_zero_iff.1 h]
    rfl
  | succ count ih =>
    have hfront : (payload.take width).length = width := by
      rw [List.length_take, h, Nat.succ_mul]
      omega
    have hback : (payload.drop width).length = count * width := by
      rw [List.length_drop, h, Nat.succ_mul]
      omega
    have hword : Bytes.ofNat width (Bytes.toNat (payload.take width)) = payload.take width := by
      have hsame := Bytes.ofNat_toNat (payload.take width)
      rwa [hfront] at hsame
    rw [words, List.flatMap_cons, hword, ih _ hback, List.take_append_drop]

lemma length_words (width count : Nat) (payload : Bytes) :
    (words width count payload).length = count := by
  induction count generalizing payload with
  | zero => rfl
  | succ count ih => rw [words, List.length_cons, ih]

lemma words_lt (width count : Nat) (payload : Bytes) (h : payload.length = count * width) :
    ∀ word ∈ words width count payload, word < Nat.pow 256 width := by
  induction count generalizing payload with
  | zero => exact fun word hmem => absurd hmem List.not_mem_nil
  | succ count ih =>
    have hfront : (payload.take width).length = width := by
      rw [List.length_take, h, Nat.succ_mul]
      omega
    have hback : (payload.drop width).length = count * width := by
      rw [List.length_drop, h, Nat.succ_mul]
      omega
    intro word hmem
    rcases List.mem_cons.1 hmem with rfl | hlater
    · have hword := bytes_toNat_lt (payload.take width)
      rwa [hfront] at hword
    · exact ih _ hback word hlater

/-- Elements that take the same bytes as the words of a payload are held by it. -/
lemma flatMap_of_words {α : Type} (width count : Nat) (payload : Bytes)
    (h : payload.length = count * width) (element : Nat → α) (value : α → Nat)
    (hback : ∀ word < Nat.pow 256 width, value (element word) = word) :
    payload = ((words width count payload).map element).flatMap
      fun x => Bytes.ofNat width (value x) := by
  have hsame : (words width count payload).map (fun word => Bytes.ofNat width (value (element word))) =
      (words width count payload).map (Bytes.ofNat width) :=
    List.map_congr_left fun word hmem => by
      rw [hback word (words_lt width count payload h word hmem)]
  rw [List.flatMap_map, List.flatMap_def, hsame, ← List.flatMap_def,
    flatMap_words width count payload h]

lemma fromUTF8?_eq_some {payload : Bytes} {text : String}
    (h : String.fromUTF8? payload.toByteArray = some text) :
    payload = text.toUTF8.data.toList := by
  unfold String.fromUTF8? at h
  split at h
  · rw [← Option.some.inj h]
    change payload = payload.toByteArray.data.toList
    rw [List.data_toByteArray]
  · cases h

theorem parse?_eq_some_iff {kind : FieldKind} {count : Nat} {payload : Bytes}
    (hlength : payload.length = kind.payloadSize count) (values : FieldValues) :
    kind.parse? count payload = some values ↔
      values.kind = kind ∧ values.count = count ∧ Holds payload values := by
  constructor
  · intro h
    cases kind with
    | boolean =>
      obtain rfl := Option.some.inj h
      refine ⟨rfl, Bits.length_ofNat _ _, ?_⟩
      rw [holds_booleans_iff, Bits.length_ofNat]
      exact ⟨hlength, rfl⟩
    | byte =>
      obtain rfl := Option.some.inj h
      exact ⟨rfl, hlength, rfl⟩
    | char =>
      obtain ⟨text, htext, rfl⟩ := Option.map_eq_some_iff.1 h
      have hpayload := fromUTF8?_eq_some htext
      refine ⟨rfl, ?_, hpayload⟩
      rw [hpayload] at hlength
      exact (payload_length (.chars text)).symm.trans hlength
    | short =>
      obtain rfl := Option.some.inj h
      refine ⟨rfl, by simp [FieldValues.count, length_words], ?_⟩
      refine flatMap_of_words 2 count payload hlength _ _ fun word hword => ?_
      rw [UInt16.toUInt16_toInt16, UInt16.toNat_ofNat_of_lt' hword]
    | integer =>
      obtain rfl := Option.some.inj h
      refine ⟨rfl, by simp [FieldValues.count, length_words], ?_⟩
      refine flatMap_of_words 4 count payload hlength _ _ fun word hword => ?_
      rw [UInt32.toUInt32_toInt32, UInt32.toNat_ofNat_of_lt' hword]
    | float =>
      obtain rfl := Option.some.inj h
      refine ⟨rfl, by simp [FieldValues.count, length_words], ?_⟩
      exact flatMap_of_words 4 count payload hlength _ _ fun word hword =>
        UInt32.toNat_ofNat_of_lt' hword
  · rintro ⟨rfl, rfl, hholds⟩
    by_cases hkind : values.kind = .boolean
    · cases values with
      | booleans values =>
        exact congrArg some (congrArg _ ((holds_booleans_iff payload values).1 hholds).2.symm)
      | _ => cases hkind
    · rw [eq_payload_of_holds hholds hkind, parse?_payload]

/-- The bytes are a complete field: the tag of its kind and the number of its elements in a header,
and a payload that holds them. -/
inductive IsField (width : HeaderWidth) : Bytes → FieldValues → Prop where
  | mk {values : FieldValues} {payload : Bytes} (count : values.count < width.countRange)
      (holds : Holds payload values) :
      IsField width
        (Bytes.ofNat width.size (values.kind.tag * width.countRange + values.count) ++ payload) values

lemma ofTag?_eq_some {tag : Nat} {kind : FieldKind} (h : FieldKind.ofTag? tag = some kind) :
    kind.tag = tag := by
  simpa using List.find?_some h

lemma number?_eq_some {buffer rest : Bytes} {width value : Nat}
    (h : buffer.number? width = some (value, rest)) :
    buffer = Bytes.ofNat width value ++ rest := by
  unfold Bytes.number? at h
  rw [Bytes.split?_eq] at h
  split at h
  · rename_i hlong
    obtain ⟨rfl, rfl⟩ := Prod.mk.inj (Option.some.inj h)
    have hsame := Bytes.ofNat_toNat (buffer.take width)
    rw [List.length_take, Nat.min_eq_left hlong] at hsame
    rw [hsame, List.take_append_drop]
  · cases h

lemma split?_eq_some {buffer front rest : Bytes} {n : Nat}
    (h : buffer.split? n = some (front, rest)) : buffer = front ++ rest ∧ front.length = n := by
  rw [Bytes.split?_eq] at h
  split at h
  · rename_i hlong
    obtain ⟨rfl, rfl⟩ := Prod.mk.inj (Option.some.inj h)
    rw [List.take_append_drop, List.length_take]
    exact ⟨rfl, Nat.min_eq_left hlong⟩
  · cases h

lemma isField_of_readField {width : HeaderWidth} {buffer rest : Bytes} {values : FieldValues}
    (h : readField width buffer = .ok (some (values, rest))) :
    ∃ field, IsField width field values ∧ buffer = field ++ rest := by
  unfold readField at h
  split at h
  · cases h
  · rename_i header afterHeader hnumber
    split at h
    · cases h
    · rename_i kind hkind
      dsimp only at h
      split at h
      · cases h
      · rename_i payload remaining hsplit
        split at h
        · cases h
        · rename_i parsed hparsed
          obtain ⟨rfl, rfl⟩ := Prod.mk.inj (Option.some.inj (Except.ok.inj h))
          obtain ⟨hafter, hlength⟩ := split?_eq_some hsplit
          obtain ⟨hparsedKind, hcount, hholds⟩ := (parse?_eq_some_iff hlength parsed).1 hparsed
          have hrange : 0 < width.countRange := by cases width <;> decide
          have hheader : parsed.kind.tag * width.countRange + parsed.count = header := by
            rw [hparsedKind, hcount, ofTag?_eq_some hkind, Nat.mul_comm]
            exact Nat.div_add_mod _ _
          refine ⟨_, .mk (hcount ▸ Nat.mod_lt _ hrange) hholds, ?_⟩
          rw [hheader, List.append_assoc, ← hafter]
          exact number?_eq_some hnumber

lemma readField_of_isField {width : HeaderWidth} {field : Bytes} {values : FieldValues}
    (h : IsField width field values) (rest : Bytes) :
    readField width (field ++ rest) = .ok (some (values, rest)) := by
  cases h with
  | @mk _ payload count holds =>
    have hmax : values.count ≤ width.maxCount := by
      unfold HeaderWidth.maxCount
      omega
    obtain ⟨htag, hmod, hlt⟩ := header_parts width values.kind values.count hmax
    have hsplit := split?_append payload rest
    rw [length_of_holds holds] at hsplit
    have hparse := (parse?_eq_some_iff (length_of_holds holds) values).2 ⟨rfl, rfl, holds⟩
    rw [List.append_assoc, readField, number?_ofNat_append _ _ _ hlt]
    simp only [htag, hmod, FieldKind.ofTag?_tag, hsplit, hparse]

/-- A field is read off the front of a buffer exactly if the buffer begins with one. -/
theorem readField_eq_some_iff (width : HeaderWidth) (buffer : Bytes) (values : FieldValues)
    (rest : Bytes) :
    readField width buffer = .ok (some (values, rest)) ↔
      ∃ field, IsField width field values ∧ buffer = field ++ rest := by
  refine ⟨isField_of_readField, ?_⟩
  rintro ⟨field, hfield, rfl⟩
  exact readField_of_isField hfield rest

/-- A body begins with some fields, one after the other, and goes on with the given rest. -/
inductive BeginsWith (width : HeaderWidth) : Bytes → List FieldValues → Bytes → Prop where
  | nil (rest : Bytes) : BeginsWith width rest [] rest
  | cons {field body rest : Bytes} {values : FieldValues} {more : List FieldValues}
      (first : IsField width field values) (others : BeginsWith width body more rest) :
      BeginsWith width (field ++ body) (values :: more) rest

/-- A body begins with these fields, and no further field follows. -/
structure IsLongest (width : HeaderWidth) (body : Bytes) (fields : List FieldValues) (rest : Bytes) :
    Prop where
  begins : BeginsWith width body fields rest
  ends : ∀ field values more, IsField width field values → rest ≠ field ++ more

/-- The fields that are read are the longest sequence with which the body begins. -/
theorem readFields_eq_iff (width : HeaderWidth) (body : Bytes) (fields : List FieldValues)
    (rest : Bytes) : readFields width body = (fields, rest) ↔ IsLongest width body fields rest := by
  constructor
  · intro h
    fun_induction readFields width body generalizing fields rest with
    | case1 body values after hread _ more ignored hmore ih =>
      obtain ⟨rfl, rfl⟩ := Prod.mk.inj h
      obtain ⟨field, hfield, rfl⟩ := isField_of_readField hread
      obtain ⟨hbegins, hends⟩ := ih _ _ hmore
      exact ⟨.cons hfield hbegins, hends⟩
    | case2 body hnone =>
      obtain ⟨rfl, rfl⟩ := Prod.mk.inj h
      refine ⟨.nil _, ?_⟩
      rintro field values more hfield rfl
      exact hnone values more (readField_of_isField hfield more)
  · rintro ⟨hbegins, hends⟩
    induction hbegins with
    | nil rest =>
      rw [readFields]
      split
      · rename_i values after hread
        obtain ⟨field, hfield, rfl⟩ := isField_of_readField hread
        exact absurd rfl (hends field values after hfield)
      · rfl
    | @cons field body rest values more first others ih =>
      have hread := readField_of_isField first body
      rw [readFields]
      split
      · rename_i found after hfound
        rw [hread] at hfound
        obtain ⟨rfl, rfl⟩ := Prod.mk.inj (Option.some.inj (Except.ok.inj hfound))
        rw [ih hends]
      · rename_i hnone
        exact absurd hread (hnone values body)

end ReliableDatagrams.Proofs
