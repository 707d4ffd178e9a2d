import ReliableDatagrams.Engine.Send
import ReliableDatagrams.Proofs.MessageIdDraws
import ReliableDatagrams.Proofs.RecordChanges
import ReliableDatagrams.Proofs.Totals
import ReliableDatagrams.Proofs.WriteErrors

/-!
# Sizes of what is written

A field is appended to a buffer as a whole or not at all, so that one can go on after a field that cannot
be written. How many bytes it takes is decided by its kind and its count, and how many a frame takes by
its options and its fields. A message is too large exactly if this number, `frameSize`, is, which is known
before anything is written (`fields_appended_whole_and_sizes_exact`).
-/

namespace ReliableDatagrams.Proofs

/-- The number of bytes of a field: its header and its elements. -/
def fieldSize (width : HeaderWidth) (values : FieldValues) : Nat :=
  width.size + values.kind.payloadSize values.count

/-- Appends fields one after the other, and goes on after those that cannot be written. -/
def appendEach (width : HeaderWidth) :
    (buffer : Bytes) → List FieldValues → List (Except EncodeError Unit) × Bytes
  | buffer, [] => ([], buffer)
  | buffer, values :: more =>
    let (result, extended) := appendField width buffer values
    let (results, whole) := appendEach width extended more
    (result :: results, whole)

def FitsHeader (width : HeaderWidth) (values : FieldValues) : Prop :=
  values.count ≤ width.maxCount

instance (width : HeaderWidth) (values : FieldValues) : Decidable (FitsHeader width values) :=
  Nat.decLe _ _

/-- How it ends to append an array: with an error if the header cannot count its elements. -/
def appendAnswer (width : HeaderWidth) (values : FieldValues) : Except EncodeError Unit :=
  if FitsHeader width values then .ok ()
  else .error (.countOverflow values.kind values.count width.maxCount)

/-- The bytes are those of an array, as many as its kind and its count say. -/
structure IsWritten (width : HeaderWidth) (values : FieldValues) (field : Bytes) : Prop where
  written : writeField width values = .ok field
  size : field.length = fieldSize width values

section Fields

variable {width : HeaderWidth} {values : FieldValues}

lemma isWritten_of_ok {field : Bytes} (h : writeField width values = .ok field) :
    IsWritten width values field := by
  refine ⟨h, ?_⟩
  obtain ⟨-, rfl⟩ := (writeField_eq_ok_iff width values field).1 h
  rw [List.length_append, Bytes.length_ofNat, payload_length, fieldSize]

lemma appendField_of_fits (h : FitsHeader width values) (buffer : Bytes) :
    ∃ field, IsWritten width values field ∧
      appendField width buffer values = (appendAnswer width values, buffer ++ field) := by
  have hwritten := (writeField_eq_ok_iff width values _).2 ⟨h, rfl⟩
  refine ⟨_, isWritten_of_ok hwritten, ?_⟩
  rw [appendField, hwritten, appendAnswer, if_pos h]

lemma appendField_of_not_fits (h : ¬FitsHeader width values) (buffer : Bytes) :
    appendField width buffer values = (appendAnswer width values, buffer) := by
  have hwritten := (writeField_eq_error_iff width values _).2 ⟨Nat.lt_of_not_le h, rfl⟩
  rw [appendField, hwritten, appendAnswer, if_neg h]

lemma appendEach_eq (buffer : Bytes) (fields : List FieldValues) :
    ∃ written : List Bytes,
      appendEach width buffer fields = (fields.map (appendAnswer width), buffer ++ written.flatten) ∧
        List.Forall₂ (IsWritten width) (fields.filter (FitsHeader width ·)) written := by
  -- The rest is appended to a longer buffer, so the induction is for all buffers.
  induction fields generalizing buffer with
  | nil => exact ⟨[], by rw [appendEach, List.flatten_nil, List.append_nil, List.map_nil], .nil⟩
  | cons values more ih =>
    by_cases hfits : FitsHeader width values
    · obtain ⟨field, hfield, happend⟩ := appendField_of_fits hfits buffer
      obtain ⟨written, hmore, hall⟩ := ih (buffer ++ field)
      refine ⟨field :: written, ?_, ?_⟩
      · rw [appendEach, happend, List.flatten_cons, ← List.append_assoc]
        dsimp only
        rw [hmore, List.map_cons]
      · rw [List.filter_cons_of_pos (by simpa using hfits)]
        exact .cons hfield hall
    · obtain ⟨written, hmore, hall⟩ := ih buffer
      refine ⟨written, ?_, ?_⟩
      · rw [appendEach, appendField_of_not_fits hfits]
        dsimp only
        rw [hmore, List.map_cons]
      · rwa [List.filter_cons_of_neg (by simpa using hfits)]

end Fields

def frameSize (fields : List FieldValues) (options : FrameOptions) : Nat :=
  1 + (if options.messageId = none then 0 else 4) + 4 +
    (if options.timestamp = none ∨ options.timestamp = some 65535 then 0 else 2) +
    total (fieldSize options.headerWidth) fields

lemma fieldsSize_eq_total (width : HeaderWidth) (fields : List FieldValues) :
    fieldsSize width fields = total (fieldSize width) fields := by
  induction fields with
  | nil => rfl
  | cons values more ih => rw [fieldsSize, ih, total_cons, fieldSize]

lemma length_ofOption_messageId (options : FrameOptions) :
    (Bytes.ofOption 4 (options.messageId.map UInt32.toNat)).length =
      if options.messageId = none then 0 else 4 := by
  cases options.messageId with
  | none => rfl
  | some id => exact Bytes.length_ofNat _ _

lemma length_ofOption_timestamp (options : FrameOptions) :
    (Bytes.ofOption 2 (options.writtenTimestamp.map UInt16.toNat)).length =
      if options.timestamp = none ∨ options.timestamp = some 65535 then 0 else 2 := by
  unfold FrameOptions.writtenTimestamp wraparoundTimestamp
  by_cases hlast : options.timestamp = some 65535
  · rw [if_pos hlast, if_pos (.inr hlast)]
    rfl
  · rw [if_neg hlast]
    cases htimestamp : options.timestamp with
    | none => rfl
    | some timestamp =>
      rw [htimestamp] at hlast
      rw [if_neg fun h => h.elim (Option.some_ne_none _) hlast]
      exact Bytes.length_ofNat _ _

lemma length_eq_frameSize {fields : List FieldValues} {options : FrameOptions} {buffer : Bytes}
    (h : encode fields options = .ok buffer) : buffer.length = frameSize fields options := by
  obtain ⟨-, body, hbody, rfl⟩ := (encode_eq_ok_iff fields buffer).1 h
  rw [length_frameAround, length_ofOption_messageId, length_ofOption_timestamp,
    length_of_writeFields hbody, fieldsSize_eq_total, frameSize]
  omega

/-- How a message is written that an engine sends to a target. -/
def messageOptions (engine : Engine) (now : Nat) (target : Address) (fields : FieldMap)
    (delivery : Delivery) : FrameOptions :=
  let timestamp := (engine.drawTimestamp now target).2
  { messageId :=
      if delivery = .reliable ∨ timestamp = wraparoundTimestamp then some engine.messageIds.draw.1
      else none
    timestamp := some timestamp
    doubleCount := fields.needsDoubleCount }

section Messages

variable (engine : Engine) (occasion : Occasion) (target : Address) (fields : FieldMap)
variable (delivery : Delivery)

/-- The options of a message are right: the last timestamp goes with an id. -/
lemma areValid_messageOptions (now : Nat) :
    AreValid (messageOptions engine now target fields delivery) := by
  unfold messageOptions
  refine ⟨?_, ?_⟩
  · dsimp only
    split
    · exact fun hzero => draw_ne_zero _ (Option.some.inj hzero)
    · exact (Option.some_ne_none _).symm
  · intro hlast
    dsimp only at hlast ⊢
    rw [if_pos (.inr (Option.some.inj hlast))]
    exact Option.some_ne_none _

lemma config_drawMessageId (now : Nat) (isNeeded : Bool) :
    ((engine.drawTimestamp now target).1.drawMessageId isNeeded).1.config = engine.config := by
  have hconfig : (engine.drawTimestamp now target).1.store.config = engine.store.config :=
    config_withPeer _ _ _ _
  cases isNeeded <;> exact hconfig

/-- What comes of a message is decided by its frame, and in the end by the socket. -/
lemma result_send :
    (engine.send occasion target fields delivery).2.2 =
      match engine.writeFrame target fields
        (messageOptions engine occasion.now target fields delivery) with
      | .error error => .error error
      | .ok frame =>
        if occasion.accepts target frame then
          .ok (messageOptions engine occasion.now target fields delivery).messageId
        else .error .refused := by
  have hconfig := config_drawMessageId engine target occasion.now
    (delivery = .reliable ∨ (engine.drawTimestamp occasion.now target).2 = wraparoundTimestamp)
  have hid : ((engine.drawTimestamp occasion.now target).1.drawMessageId (delivery = .reliable ∨
      (engine.drawTimestamp occasion.now target).2 = wraparoundTimestamp)).2 =
        (messageOptions engine occasion.now target fields delivery).messageId := by
    unfold Engine.drawMessageId messageOptions
    simp only [decide_eq_true_eq]
    split <;> rfl
  have hoptions : { messageId := (messageOptions engine occasion.now target fields delivery).messageId
                    timestamp := some (engine.drawTimestamp occasion.now target).2
                    doubleCount := fields.needsDoubleCount } =
      messageOptions engine occasion.now target fields delivery := rfl
  unfold Engine.send Engine.writeFrame
  dsimp only
  rw [hconfig, hid, hoptions]
  cases encode fields.toList (messageOptions engine occasion.now target fields delivery) with
  | error error => rfl
  | ok frame =>
    by_cases hlarge : engine.config.maxDatagramSize < frame.length
    · simp only [if_pos hlarge]
    · simp only [if_neg hlarge]

/-- Only arrays that are too long for any header keep a message from being written. -/
lemma written_messageOptions_iff (now : Nat) :
    (∃ frame, encode fields.toList (messageOptions engine now target fields delivery) = .ok frame) ↔
      ∀ values ∈ fields.toList, values.count ≤ 8191 := by
  have hlong := not_congr (tooLong_needed_iff fields)
  simp only [not_exists, not_and, Nat.not_lt] at hlong
  exact (encode_succeeds_iff (areValid_messageOptions engine target fields delivery now) _).trans hlong

/-- The size of a message decides whether it is handed to the socket, unless it cannot be written. -/
structure IsDecidedBySize : Prop where
  tooLarge : ∀ receiver size max,
    (engine.send occasion target fields delivery).2.2 = .error (.tooLarge receiver size max) ↔
      (∀ values ∈ fields.toList, values.count ≤ 8191) ∧ receiver = target ∧
        size = frameSize fields.toList (messageOptions engine occasion.now target fields delivery) ∧
        max = engine.config.maxDatagramSize ∧ max < size
  handedOver :
    ((∃ id, (engine.send occasion target fields delivery).2.2 = .ok id) ∨
        (engine.send occasion target fields delivery).2.2 = .error .refused) ↔
      (∀ values ∈ fields.toList, values.count ≤ 8191) ∧
        frameSize fields.toList (messageOptions engine occasion.now target fields delivery) ≤
          engine.config.maxDatagramSize

lemma writeFrame_of_written {options : FrameOptions} {frame : Bytes}
    (h : encode fields.toList options = .ok frame) :
    engine.writeFrame target fields options =
      if engine.config.maxDatagramSize < frameSize fields.toList options then
        .error (.tooLarge target (frameSize fields.toList options) engine.config.maxDatagramSize)
      else .ok frame := by
  unfold Engine.writeFrame
  rw [h, ← length_eq_frameSize h]

lemma isDecidedBySize : IsDecidedBySize engine occasion target fields delivery := by
  have hresult := result_send engine occasion target fields delivery
  have hwritten := written_messageOptions_iff engine target fields delivery occasion.now
  cases hencode : encode fields.toList (messageOptions engine occasion.now target fields delivery) with
  | error error =>
    rw [Engine.writeFrame, hencode] at hresult
    have hunwritten : ¬∀ values ∈ fields.toList, values.count ≤ 8191 := by
      rw [← hwritten, hencode]
      rintro ⟨frame, hok⟩
      cases hok
    constructor <;>
      simp only [hresult, hunwritten, Except.error.injEq, reduceCtorEq, exists_false, or_self,
        false_and, implies_true]
  | ok frame =>
    have hcounts := hwritten.1 ⟨frame, hencode⟩
    rw [writeFrame_of_written engine target fields hencode] at hresult
    by_cases hlarge : engine.config.maxDatagramSize <
        frameSize fields.toList (messageOptions engine occasion.now target fields delivery)
    · rw [if_pos hlarge] at hresult
      refine ⟨fun receiver size max => ?_, ?_⟩
      · rw [hresult, Except.error.injEq, SendError.tooLarge.injEq]
        constructor
        · rintro ⟨rfl, rfl, rfl⟩
          exact ⟨hcounts, rfl, rfl, rfl, hlarge⟩
        · rintro ⟨-, rfl, rfl, rfl, -⟩
          exact ⟨rfl, rfl, rfl⟩
      · simp only [hresult, Except.error.injEq, reduceCtorEq, exists_false, or_self,
          Nat.not_le.2 hlarge, and_false]
    · rw [if_neg hlarge] at hresult
      refine ⟨fun receiver size max => ?_, ?_⟩
      · constructor
        · intro htoo
          rw [hresult] at htoo
          dsimp only at htoo
          split at htoo <;> cases htoo
        · rintro ⟨-, -, rfl, rfl, htoo⟩
          exact absurd htoo hlarge
      · refine iff_of_true ?_ ⟨hcounts, Nat.le_of_not_lt hlarge⟩
        rw [hresult]
        dsimp only
        split
        · exact .inl ⟨_, rfl⟩
        · exact .inr rfl

end Messages

/-- Of some fields that are appended one after the other, exactly those are there in the end, in order,
whole and in their own size, whose elements the header can count, and each of the others is answered by
an error. A frame has the size that its options and its fields give it, and a message is handed to the
socket or found too large by this size. -/
theorem fields_appended_whole_and_sizes_exact :
    (∀ (width : HeaderWidth) (buffer : Bytes) (fields : List FieldValues), ∃ written : List Bytes,
      appendEach width buffer fields =
          (fields.map (appendAnswer width), buffer ++ written.flatten) ∧
        List.Forall₂ (IsWritten width) (fields.filter (FitsHeader width ·)) written) ∧
    (∀ (fields : List FieldValues) (options : FrameOptions) (buffer : Bytes),
      encode fields options = .ok buffer → buffer.length = frameSize fields options) ∧
    ∀ (engine : Engine) (occasion : Occasion) (target : Address) (fields : FieldMap)
      (delivery : Delivery), IsDecidedBySize engine occasion target fields delivery :=
  ⟨fun _ => appendEach_eq, fun _ _ _ => length_eq_frameSize, isDecidedBySize⟩

/-- A field that is too long between two that are not, a frame without its timestamp, and a message that
is too large by a byte. -/
theorem fields_appended_whole_and_sizes_exact_mixed :
    let fields : List FieldValues := [.bytes [1, 2, 3], .shorts (List.replicate 32 5),
      .booleans (List.replicate 9 true)]
    let map : FieldMap := { chars := some "é", integers := some [-1, 7] }
    let options : FrameOptions := { messageId := some 7, timestamp := some 65535, doubleCount := true }
    let target : Address := .loopback 9002
    let engine := Engine.starting { selfAddress := .loopback 9001, maxDatagramSize := 22 } 1
    let occasion : Occasion := ⟨0, fun _ _ => true⟩
    appendEach .single [0xaa] fields =
        ([.ok (), .error (.countOverflow .short 32 31), .ok ()],
          [0xaa, 0x23, 1, 2, 3, 0x09, 0xff, 0x01]) ∧
      (∃ buffer, encode fields options = .ok buffer ∧
        buffer.length = 1 + 4 + 4 + 0 + ((2 + 3) + (2 + 64) + (2 + 2))) ∧
      (engine.send occasion target map .reliable).2.2 = .error (.tooLarge target 23 22) := by
  intro fields map options target engine occasion
  obtain ⟨happended, hframe, hmessage⟩ := fields_appended_whole_and_sizes_exact
  have hcounts : ∀ values ∈ map.toList, values.count ≤ 8191 := by decide +kernel
  refine ⟨?_, ⟨_, rfl, hframe fields options _ rfl⟩, ?_⟩
  · obtain ⟨written, hall, hwritten⟩ := happended .single [0xaa] fields
    obtain _ | ⟨hfirst, _ | ⟨hsecond, ⟨⟩⟩⟩ := hwritten
    rw [hall, ← Except.ok.inj hfirst.written, ← Except.ok.inj hsecond.written]
    decide +kernel
  · exact ((hmessage engine occasion target map .reliable).tooLarge _ _ _).2
      ⟨hcounts, rfl, by decide +kernel, rfl, by decide⟩

end ReliableDatagrams.Proofs
