import Mathlib.Tactic.Common
import ReliableDatagrams.Frame.Encode
import ReliableDatagrams.Proofs.FieldCodec

/-!
# When a frame cannot be written

The options are looked at before the fields, and the fields in their order, so that of several things
that are wrong the first decides the error. What is not wrong in one of these ways is written, and no
count that has passed its check is too large for the header (`IsDecidedByFirstFault`).

A sender has the layout chosen by its map of fields. This is the right choice: the narrow layout serves
exactly the maps that are content with it, and no map fails that the wide layout could serve.
-/

namespace ReliableDatagrams.Proofs

/-- The largest number of elements that an array in a frame may have. -/
def maxElements (doubleCount : Bool) : Nat :=
  if doubleCount then 8191 else 31

/-- The first of some arrays that has more elements than it may have. -/
structure IsFirstTooLong (max : Nat) (fields : List FieldValues) (found : FieldValues) : Prop where
  tooLong : max < found.count
  first : ∃ before after, fields = before ++ found :: after ∧
    ∀ values ∈ before, values.count ≤ max

lemma not_isFirstTooLong_nil (max : Nat) (found : FieldValues) : ¬IsFirstTooLong max [] found := by
  rintro ⟨-, before, after, hsplit, -⟩
  cases before <;> cases hsplit

lemma isFirstTooLong_cons_iff (max : Nat) (values found : FieldValues) (more : List FieldValues) :
    IsFirstTooLong max (values :: more) found ↔
      (max < values.count ∧ found = values) ∨
        (values.count ≤ max ∧ IsFirstTooLong max more found) := by
  constructor
  · rintro ⟨htoo, before, after, hsplit, hshort⟩
    cases before with
    | nil =>
      obtain ⟨rfl, rfl⟩ := List.cons.inj hsplit
      exact .inl ⟨htoo, rfl⟩
    | cons first rest =>
      obtain ⟨rfl, rfl⟩ := List.cons.inj hsplit
      obtain ⟨hfirst, hrest⟩ := List.forall_mem_cons.1 hshort
      exact .inr ⟨hfirst, htoo, rest, after, rfl, hrest⟩
  · rintro (⟨htoo, rfl⟩ | ⟨hshort, htoo, before, after, rfl, hbefore⟩)
    · exact ⟨htoo, [], more, rfl, fun _ hmem => absurd hmem List.not_mem_nil⟩
    · exact ⟨htoo, values :: before, after, rfl, List.forall_mem_cons.2 ⟨hshort, hbefore⟩⟩

lemma maxCount_ofDoubleCount (doubleCount : Bool) :
    (HeaderWidth.ofDoubleCount doubleCount).maxCount = maxElements doubleCount := by
  cases doubleCount <;> rfl

lemma writeField_eq_error_iff (width : HeaderWidth) (values : FieldValues) (error : EncodeError) :
    writeField width values = .error error ↔
      width.maxCount < values.count ∧
        error = .countOverflow values.kind values.count width.maxCount := by
  by_cases hlong : width.maxCount < values.count
  · rw [writeField, if_pos hlong, Except.error.injEq]
    exact ⟨fun h => ⟨hlong, h.symm⟩, fun h => h.2.symm⟩
  · have hwritten := (writeField_eq_ok_iff width values _).2 ⟨Nat.not_lt.1 hlong, rfl⟩
    simp only [hwritten, reduceCtorEq, hlong, false_and]

lemma writeFields_eq_error_iff (width : HeaderWidth) (fields : List FieldValues)
    (error : EncodeError) :
    writeFields width fields = .error error ↔
      ∃ found, IsFirstTooLong width.maxCount fields found ∧
        error = .countOverflow found.kind found.count width.maxCount := by
  induction fields with
  | nil =>
    simp only [writeFields, reduceCtorEq, not_isFirstTooLong_nil, false_and, exists_false]
  | cons values more ih =>
    have hfirst := writeField_eq_error_iff width values error
    simp only [isFirstTooLong_cons_iff, or_and_right, exists_or, and_assoc, exists_and_left,
      exists_eq_left]
    rw [writeFields]
    cases hfield : writeField width values with
    | error fault =>
      have hlong := ((writeField_eq_error_iff width values fault).1 hfield).1
      rw [hfield] at hfirst
      simp only [hfirst, Nat.not_le.2 hlong, false_and, or_false]
    | ok field =>
      have hshort := ((writeField_eq_ok_iff width values field).1 hfield).1
      simp only [Nat.not_lt.2 hshort, hshort, false_and, false_or, true_and, ← ih]
      cases writeFields width more <;> simp only [Except.map, Except.error.injEq, reduceCtorEq]

/-- The options ask for a frame that there can be. -/
structure AreValid (options : FrameOptions) : Prop where
  messageId : options.messageId ≠ some 0
  timestamp : options.timestamp = some 65535 → options.messageId ≠ none

def frameAround (options : FrameOptions) (body : Bytes) : Bytes :=
  let content := Bytes.ofOption 2 (options.writtenTimestamp.map UInt16.toNat) ++ body
  options.flags.toByte :: (Bytes.ofOption 4 (options.messageId.map UInt32.toNat) ++
    Bytes.ofNat 4 (checksum content).toNat ++ content)

lemma length_frameAround (options : FrameOptions) (body : Bytes) :
    (frameAround options body).length =
      5 + (Bytes.ofOption 4 (options.messageId.map UInt32.toNat)).length +
        (Bytes.ofOption 2 (options.writtenTimestamp.map UInt16.toNat)).length + body.length := by
  simp only [frameAround, List.length_cons, List.length_append, Bytes.length_ofNat]
  omega

section Options

variable {options : FrameOptions} (fields : List FieldValues)

lemma encode_of_areValid (h : AreValid options) :
    encode fields options = (writeFields options.headerWidth fields).map (frameAround options) := by
  have htimely : ¬(options.timestamp = some wraparoundTimestamp ∧ options.messageId = none) :=
    fun hwrong => h.timestamp hwrong.1 hwrong.2
  rw [encode, if_neg htimely, if_neg h.messageId]
  cases writeFields options.headerWidth fields <;> rfl

lemma encode_of_not_areValid (h : ¬AreValid options) :
    (options.timestamp = some 65535 ∧ options.messageId = none ∧
      encode fields options = .error .missingMessageId) ∨
    (options.messageId = some 0 ∧ encode fields options = .error .zeroMessageId) := by
  by_cases hmissing : options.timestamp = some wraparoundTimestamp ∧ options.messageId = none
  · exact .inl ⟨hmissing.1, hmissing.2, if_pos hmissing⟩
  by_cases hzero : options.messageId = some 0
  · exact .inr ⟨hzero, by rw [encode, if_neg hmissing, if_pos hzero]⟩
  · exact absurd ⟨hzero, fun ht hid => hmissing ⟨ht, hid⟩⟩ h

/-- What is written is what the fields are written as, with a frame around it. -/
lemma encode_eq_ok_iff (buffer : Bytes) :
    encode fields options = .ok buffer ↔ AreValid options ∧
      ∃ body, writeFields options.headerWidth fields = .ok body ∧
        frameAround options body = buffer := by
  by_cases h : AreValid options
  · rw [encode_of_areValid fields h]
    cases writeFields options.headerWidth fields with
    | error error => simp only [Except.map, reduceCtorEq, false_and, exists_false, and_false]
    | ok body => simp only [Except.map, Except.ok.injEq, h, true_and, exists_eq_left']
  · rcases encode_of_not_areValid fields h with ⟨-, -, hresult⟩ | ⟨-, hresult⟩ <;>
      simp only [hresult, h, reduceCtorEq, false_and]

/-- The layout that the options ask for has the maximum that is looked at. -/
lemma encode_eq_countOverflow_iff (h : AreValid options) (error : EncodeError) :
    encode fields options = .error error ↔
      ∃ found, IsFirstTooLong (maxElements options.doubleCount) fields found ∧
        error = .countOverflow found.kind found.count (maxElements options.doubleCount) := by
  rw [encode_of_areValid fields h, ← maxCount_ofDoubleCount]
  refine Iff.trans ?_ (writeFields_eq_error_iff _ _ error)
  change _ ↔ writeFields options.headerWidth fields = .error error
  cases writeFields options.headerWidth fields <;>
    simp only [Except.map, Except.error.injEq, reduceCtorEq]

end Options

lemma exists_isFirstTooLong_iff (max : Nat) (fields : List FieldValues) :
    (∃ found, IsFirstTooLong max fields found) ↔ ∃ values ∈ fields, max < values.count := by
  induction fields with
  | nil => simp [not_isFirstTooLong_nil]
  | cons values more ih =>
    simp only [isFirstTooLong_cons_iff, exists_or, exists_and_left, exists_eq, and_true, ih,
      List.mem_cons, exists_eq_or_imp]
    by_cases hlong : max < values.count
    · simp only [hlong, true_or]
    · simp only [hlong, false_or, Nat.not_lt.1 hlong, true_and]

/-- What comes of writing some fields is decided by what is wrong first. -/
structure IsDecidedByFirstFault (fields : List FieldValues) (options : FrameOptions) : Prop where
  missingMessageId : encode fields options = .error .missingMessageId ↔
    options.timestamp = some 65535 ∧ options.messageId = none
  zeroMessageId : encode fields options = .error .zeroMessageId ↔ options.messageId = some 0
  countOverflow : ∀ kind count max,
    encode fields options = .error (.countOverflow kind count max) ↔
      AreValid options ∧ max = maxElements options.doubleCount ∧
        ∃ found, IsFirstTooLong max fields found ∧ found.kind = kind ∧ found.count = count
  written : (∃ buffer, encode fields options = .ok buffer) ↔
    AreValid options ∧ ∀ values ∈ fields, values.count ≤ maxElements options.doubleCount
  /-- A count that has passed its check fits the header. -/
  inRange : encode fields options ≠ .error .countOutOfRange

lemma encode_fails_iff {options : FrameOptions} (h : AreValid options) (fields : List FieldValues) :
    (∃ error, encode fields options = .error error) ↔
      ∃ values ∈ fields, maxElements options.doubleCount < values.count := by
  simp only [encode_eq_countOverflow_iff fields h, ← exists_isFirstTooLong_iff]
  exact ⟨fun ⟨_, found, hfound, _⟩ => ⟨found, hfound⟩, fun ⟨found, hfound⟩ => ⟨_, found, hfound, rfl⟩⟩

lemma encode_succeeds_iff {options : FrameOptions} (h : AreValid options)
    (fields : List FieldValues) :
    (∃ buffer, encode fields options = .ok buffer) ↔
      ∀ values ∈ fields, values.count ≤ maxElements options.doubleCount := by
  have hfails := encode_fails_iff h fields
  cases hresult : encode fields options with
  | ok buffer =>
    rw [hresult] at hfails
    simp only [reduceCtorEq, exists_false, false_iff, not_exists, not_and, Nat.not_lt] at hfails
    exact ⟨fun _ => hfails, fun _ => ⟨buffer, rfl⟩⟩
  | error error =>
    obtain ⟨values, hmem, hlong⟩ := hfails.1 ⟨error, hresult⟩
    refine ⟨?_, fun hshort => absurd (hshort values hmem) (Nat.not_le.2 hlong)⟩
    rintro ⟨buffer, hok⟩
    cases hok

lemma isDecidedByFirstFault (fields : List FieldValues) (options : FrameOptions) :
    IsDecidedByFirstFault fields options := by
  by_cases h : AreValid options
  · have hfaulty := encode_eq_countOverflow_iff fields h
    refine ⟨?_, ?_, fun kind count max => ?_, ?_, ?_⟩
    · simp only [hfaulty, reduceCtorEq, and_false, exists_false, false_iff, not_and]
      exact h.timestamp
    · simp only [hfaulty, reduceCtorEq, and_false, exists_false, false_iff]
      exact h.messageId
    · simp only [hfaulty, EncodeError.countOverflow.injEq, h, true_and]
      constructor
      · rintro ⟨found, hfound, rfl, rfl, rfl⟩
        exact ⟨rfl, found, hfound, rfl, rfl⟩
      · rintro ⟨rfl, found, hfound, rfl, rfl⟩
        exact ⟨found, hfound, rfl, rfl, rfl⟩
    · simp only [encode_succeeds_iff h, h, true_and]
    · simp only [ne_eq, hfaulty, reduceCtorEq, and_false, exists_false, not_false_eq_true]
  · rcases encode_of_not_areValid fields h with ⟨htime, hid, hresult⟩ | ⟨hid, hresult⟩
    · refine ⟨?_, ?_, fun kind count max => ?_, ?_, ?_⟩
      · simp only [hresult, htime, hid, and_self]
      · simp only [hresult, hid, Except.error.injEq, reduceCtorEq]
      · simp only [hresult, h, Except.error.injEq, reduceCtorEq, false_and]
      · simp only [hresult, h, reduceCtorEq, exists_false, false_and]
      · simp only [hresult, ne_eq, Except.error.injEq, reduceCtorEq, not_false_eq_true]
    · refine ⟨?_, ?_, fun kind count max => ?_, ?_, ?_⟩
      · simp only [hresult, hid, Except.error.injEq, reduceCtorEq, and_false]
      · simp only [hresult, hid]
      · simp only [hresult, h, Except.error.injEq, reduceCtorEq, false_and]
      · simp only [hresult, h, reduceCtorEq, exists_false, false_and]
      · simp only [hresult, ne_eq, Except.error.injEq, reduceCtorEq, not_false_eq_true]

lemma mem_toList_iff (map : FieldMap) (values : FieldValues) :
    values ∈ map.toList ↔ ∃ kind, map.get? kind = some values := by
  simp only [FieldMap.toList, List.mem_filterMap, FieldKind.mem_all, true_and]

/-- A map asks for the wide layout if the narrow one does not serve it. -/
lemma needsDoubleCount_iff (map : FieldMap) :
    map.needsDoubleCount = true ↔ ∃ values ∈ map.toList, maxElements false < values.count := by
  simp only [FieldMap.needsDoubleCount, List.any_eq_true, decide_eq_true_eq]
  rfl

/-- In the layout that a map asks for only what is too long for both layouts is too long. -/
lemma tooLong_needed_iff (map : FieldMap) :
    (∃ values ∈ map.toList, maxElements map.needsDoubleCount < values.count) ↔
      ∃ values ∈ map.toList, maxElements true < values.count := by
  cases hneeded : map.needsDoubleCount with
  | true => exact Iff.rfl
  | false =>
    have hnone : ¬∃ values ∈ map.toList, maxElements false < values.count := by
      rw [← needsDoubleCount_iff, hneeded]
      exact Bool.false_ne_true
    refine iff_of_false hnone ?_
    rintro ⟨values, hmem, hlong⟩
    exact hnone ⟨values, hmem, Nat.lt_trans (show 31 < 8191 by decide) hlong⟩

/-- Of the things that keep fields from being written the first decides the error: a timestamp that
asks for a message id while there is none, a message id that is 0, and an array that is too long for
the layout. A map of fields is written in the layout that it asks for unless an array is too long for
any layout, and in the narrow layout exactly if this is the one it asks for. -/
theorem encode_decided_by_first_fault (fields : List FieldValues) (options : FrameOptions) :
    IsDecidedByFirstFault fields options ∧
      (AreValid options → ∀ map : FieldMap,
        ((∃ error, encode map.toList { options with doubleCount := map.needsDoubleCount } =
            .error error) ↔ ∃ kind values, map.get? kind = some values ∧ 8191 < values.count) ∧
        ((∃ error, encode map.toList { options with doubleCount := false } = .error error) ↔
          map.needsDoubleCount = true)) := by
  refine ⟨isDecidedByFirstFault fields options, fun h map => ?_⟩
  have hvalid : ∀ doubleCount, AreValid { options with doubleCount } :=
    fun _ => ⟨h.messageId, h.timestamp⟩
  constructor
  · rw [encode_fails_iff (hvalid _), tooLong_needed_iff]
    constructor
    · rintro ⟨values, hmem, hlong⟩
      obtain ⟨kind, hget⟩ := (mem_toList_iff map values).1 hmem
      exact ⟨kind, values, hget, hlong⟩
    · rintro ⟨kind, values, hget, hlong⟩
      exact ⟨values, (mem_toList_iff map values).2 ⟨kind, hget⟩, hlong⟩
  · rw [encode_fails_iff (hvalid _), needsDoubleCount_iff]

/-- Two arrays are too long for the narrow layout, and the first of them is no more looked at once the
options are wrong. Merged they are too long for the narrow layout, too, and not for the wide one. -/
theorem encode_decided_by_first_fault_of_several :
    let fields : List FieldValues := [.chars "é", .shorts (List.replicate 40 7),
      .bytes (List.replicate 50 1), .shorts [8]]
    let map := FieldMap.ofList fields
    IsDecidedByFirstFault fields {} ∧
    encode fields {} = .error (.countOverflow .short 40 31) ∧
    encode fields { timestamp := some 65535 } = .error .missingMessageId ∧
    encode fields { messageId := some 0, timestamp := some 65535 } = .error .zeroMessageId ∧
    (∃ error, encode map.toList { doubleCount := false } = .error error) ∧
    ¬∃ error, encode map.toList { doubleCount := map.needsDoubleCount } = .error error := by
  intro fields map
  have hvalid : AreValid {} := ⟨by decide, by decide⟩
  obtain ⟨hdecided, hmap⟩ := encode_decided_by_first_fault fields {}
  obtain ⟨hneeded, hnarrow⟩ := hmap hvalid map
  refine ⟨hdecided, by decide +kernel, by decide +kernel, by decide +kernel,
    hnarrow.2 (by decide +kernel), fun hfails => ?_⟩
  obtain ⟨kind, values, hget, hlong⟩ := hneeded.1 hfails
  have hshort : ∀ kind ∈ FieldKind.all, ∀ values ∈ map.get? kind, values.count ≤ 8191 := by
    decide +kernel
  exact Nat.not_lt.2 (hshort kind (FieldKind.mem_all kind) values hget) hlong

end ReliableDatagrams.Proofs
