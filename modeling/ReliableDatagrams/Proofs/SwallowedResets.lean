import ReliableDatagrams.Proofs.Staleness

/-!
# Resets that are swallowed

The message that draws the last number of a counter goes by a handshake and without timestamp, which
makes the peer start anew before small numbers come again. The number is drawn before the message is
written, so it is spent all the same on a message that cannot be written or is too large. Then no frame
goes out and the counter starts from 0, but the peer still tracks what came before:
`reset_handed_over_iff_fits` says when that is, `reset_swallowed` is such a run.
-/

namespace ReliableDatagrams.Proofs

def neededWidth (fields : FieldMap) : HeaderWidth :=
  .ofDoubleCount fields.needsDoubleCount

/-- A message can go out without timestamp by a handshake: a header of two bytes can count each array,
and the frame with flags, id and checksum is not too large. -/
structure FitsReset (max : Nat) (fields : FieldMap) : Prop where
  counts : ∀ values ∈ fields.toList, values.count ≤ HeaderWidth.double.maxCount
  size : 9 + fieldsSize (neededWidth fields) fields.toList ≤ max

instance (max : Nat) (fields : FieldMap) : Decidable (FitsReset max fields) :=
  decidable_of_iff ((∀ values ∈ fields.toList, values.count ≤ HeaderWidth.double.maxCount) ∧
    9 + fieldsSize (neededWidth fields) fields.toList ≤ max)
    ⟨fun h => ⟨h.1, h.2⟩, fun h => ⟨h.counts, h.size⟩⟩

/-- A message that does without headers of two bytes does so because its arrays are short. -/
lemma counts_iff (fields : FieldMap) :
    (∀ values ∈ fields.toList, values.count ≤ (neededWidth fields).maxCount) ↔
      ∀ values ∈ fields.toList, values.count ≤ HeaderWidth.double.maxCount := by
  unfold neededWidth
  cases hdouble : fields.needsDoubleCount with
  | true => exact Iff.rfl
  | false =>
    have hshort : ∀ values ∈ fields.toList, values.count ≤ HeaderWidth.single.maxCount := by
      intro values hmem
      have hnone := List.any_eq_false.1 hdouble values hmem
      exact Nat.not_lt.1 fun hlong => hnone (decide_eq_true hlong)
    have hless : HeaderWidth.single.maxCount ≤ HeaderWidth.double.maxCount := by decide
    exact ⟨fun h values hmem => Nat.le_trans (h values hmem) hless, fun _ => hshort⟩

/-- The layout of the frame for the message that draws the last number. -/
def resetOptions (id : UInt32) (fields : FieldMap) : FrameOptions :=
  { messageId := some id
    timestamp := some wraparoundTimestamp
    doubleCount := fields.needsDoubleCount }

lemma encode_reset {id : UInt32} (hid : id ≠ 0) (fields : FieldMap) :
    encode fields.toList (resetOptions id fields) =
      (writeFields (neededWidth fields) fields.toList).map (frameAround (resetOptions id fields)) :=
  encode_of_areValid _ ⟨fun h => hid (Option.some.inj h), fun _ => Option.some_ne_none id⟩

def resetFrame (id : UInt32) (fields : FieldMap) : Frame where
  header :=
    { flags := { syn := true, ignoreTimestamp := true, doubleCount := fields.needsDoubleCount }
      messageId := some id }
  kind := .syn
  timestamp := none
  fields := fields

lemma writeFrame_reset {engine : Engine} {id : UInt32} (hid : id ≠ 0) (target : Address)
    (fields : FieldMap) :
    (FitsReset engine.config.maxDatagramSize fields ∧
      ∃ frame, engine.writeFrame target fields (resetOptions id fields) = .ok frame ∧
        Frame.decode frame = .ok (resetFrame id fields)) ∨
    (¬FitsReset engine.config.maxDatagramSize fields ∧
      ∃ error, engine.writeFrame target fields (resetOptions id fields) = .error error) := by
  have hencode := encode_reset hid fields
  unfold Engine.writeFrame
  cases hbody : writeFields (neededWidth fields) fields.toList with
  | error error =>
    rw [hbody] at hencode
    refine .inr ⟨fun hfits => ?_, ⟨.unwritable error, by rw [hencode]; rfl⟩⟩
    obtain ⟨body, hwritten, -⟩ := writeFields_of_counts ((counts_iff fields).2 hfits.counts)
    rw [hbody] at hwritten
    cases hwritten
  | ok body =>
    rw [hbody] at hencode
    dsimp only [Except.map] at hencode
    have hsize : (frameAround (resetOptions id fields) body).length =
        9 + fieldsSize (neededWidth fields) fields.toList := by
      rw [length_frameAround, length_of_writeFields hbody]
      rfl
    rw [hencode]
    dsimp only
    by_cases hlarge : engine.config.maxDatagramSize <
        (frameAround (resetOptions id fields) body).length
    · rw [if_pos hlarge]
      refine .inr ⟨fun hfits => ?_, ⟨_, rfl⟩⟩
      have := hfits.size
      omega
    · rw [if_neg hlarge]
      have hcounts := (counts_iff fields).1 (counts_of_writeFields hbody)
      refine .inl ⟨⟨hcounts, by omega⟩, _, rfl, ?_⟩
      rw [decode_of_encode hencode, writtenFrame, ofList_toList]
      rfl

section Calls

variable {engine : Engine} (hw : WellFiled engine.store) {target : Address}

include hw

lemma stamped_of_send (occasion : Occasion) (fields : FieldMap) (delivery : Delivery) :
    ∀ effect ∈ (engine.send occasion target fields delivery).2.1, ∃ bytes accepted,
      effect = .sent target bytes accepted ∧
        stamp? bytes = some (stampOf (outgoingTimestamp engine target)) := by
  have hmove := send_move occasion hw target fields delivery
  have hnumber := (drawTimestamp_eq hw occasion.now target).2
  generalize (engine.send occasion target fields delivery).1 = after at hmove
  generalize (engine.send occasion target fields delivery).2.1 = effects at hmove ⊢
  generalize (engine.send occasion target fields delivery).2.2 = result at hmove
  intro effect hmem
  cases hmove with
  | failed => exact absurd hmem List.not_mem_nil
  | plain drawn unforced written ids same =>
    rw [← drawn, hnumber] at written
    exact ⟨_, _, List.mem_singleton.1 hmem, stamp?_of_encode written⟩
  | first drawn written record ids filed =>
    rw [← drawn, hnumber] at written
    exact ⟨_, _, List.mem_singleton.1 hmem, stamp?_of_encode written⟩

variable (hlast : outgoingTimestamp engine target = wraparoundTimestamp)

include hlast

/-- The message goes by a handshake in any case. If it can be written, its frame is handed over. -/
lemma send_at_last (occasion : Occasion) (fields : FieldMap) (delivery : Delivery) :
    (engine.send occasion target fields delivery).2 =
      match engine.writeFrame target fields (resetOptions engine.messageIds.draw.1 fields) with
      | .error error => ([], .error error)
      | .ok frame => ([.sent target frame (occasion.accepts target frame)],
          if occasion.accepts target frame then .ok (some engine.messageIds.draw.1)
          else .error .refused) := by
  have hnumber := (drawTimestamp_eq hw occasion.now target).2.trans hlast
  have hids : (engine.drawTimestamp occasion.now target).1.messageIds = engine.messageIds := rfl
  have hconfig : (engine.drawTimestamp occasion.now target).1.store.config = engine.store.config :=
    config_withPeer _ _ _ _
  have hsame := @connections_drawTimestamp engine occasion.now target
  unfold Engine.send
  cases hdrawn : engine.drawTimestamp occasion.now target with
  | mk drawn timestamp =>
    rw [hdrawn] at hnumber hids hconfig hsame
    dsimp only at hnumber hids hconfig hsame ⊢
    subst hnumber
    simp only [Engine.drawMessageId, or_true, decide_true, if_true, hids]
    have hwrite : ∀ options, ({ drawn with messageIds := engine.messageIds.draw.2 } :
        Engine).writeFrame target fields options = engine.writeFrame target fields options := by
      intro options
      unfold Engine.writeFrame Engine.config
      rw [hconfig]
    rw [hwrite]
    unfold resetOptions
    generalize engine.writeFrame target fields ⟨some engine.messageIds.draw.1,
      some wraparoundTimestamp, fields.needsDoubleCount⟩ = written
    cases written with
    | error error => rfl
    | ok frame =>
      have hrecord := isFiledOrNew_congr hsame hconfig (isFiledOrNew_connectionOrNew drawn.store
        occasion.now ⟨target, engine.messageIds.draw.1, .sender⟩)
      obtain ⟨-, heffects, -⟩ := @sendFrame_first
        { drawn with messageIds := engine.messageIds.draw.2 } occasion target
        engine.messageIds.draw.1 _ rfl (hrecord.key hw.connection).1 frame
      dsimp only
      rw [heffects]

end Calls

section Numbered

variable {engine : Engine} {record : PeerRecord} {occasion : Occasion}
  (htouched : record.touch occasion.now = record) (hroom : 7 ≤ engine.config.maxDatagramSize)
  (haccepts : ∀ target bytes, occasion.accepts target bytes = true)

include htouched hroom haccepts

/-- Messages without fields take the numbers one after the other. -/
lemma run_numbered {history : History} {number : Nat}
    (hengine : history.engine = numbered engine record (.ofNat number)) (count : Nat)
    (hearly : number + count ≤ 65535) :
    (history.run (List.replicate count (.send occasion record.address {} .unreliable))).engine =
      numbered engine record (.ofNat (number + count)) := by
  induction count generalizing history number with
  | zero => exact hengine
  | succ count ih =>
    have hnumber := @ofNat_ne_wraparoundTimestamp number (by omega)
    obtain ⟨frame, hsend⟩ := @send_numbered engine record _ occasion hnumber htouched hroom haccepts
    have hnext : (history.step (.send occasion record.address {} .unreliable)).engine =
        numbered engine record (.ofNat (number + 1)) := by
      rw [UInt16.ofNat_add, show UInt16.ofNat 1 = 1 from rfl]
      rw [← hengine] at hsend
      exact congrArg Prod.fst hsend
    have hrest := ih hnext (by omega)
    rw [Nat.add_assoc, Nat.add_comm 1] at hrest
    exact hrest

end Numbered

/-- An engine without records that sends messages without fields. Only the first of them is followed step
by step; each of the others just moves the number. -/
lemma run_from_first {config : Config} {target : Address} (hroom : 7 ≤ config.maxDatagramSize)
    (hfirst : ((History.starting config 1).step
      (.send ⟨0, fun _ _ => true⟩ target {} .unreliable)).engine =
        numbered { Engine.starting config 1 with store := { config, nextSerial := 1 } }
          (({ config } : Store).newPeer 0 target) (.ofNat 1))
    (number : Nat) (hsome : 0 < number) (hearly : number ≤ 65535) :
    ((History.starting config 1).run
      (List.replicate number (.send ⟨0, fun _ _ => true⟩ target {} .unreliable))).engine =
        numbered { Engine.starting config 1 with store := { config, nextSerial := 1 } }
          (({ config } : Store).newPeer 0 target) (.ofNat number) := by
  obtain ⟨count, rfl⟩ : ∃ count, number = 1 + count := ⟨number - 1, by omega⟩
  have hrun := @run_numbered { Engine.starting config 1 with store := { config, nextSerial := 1 } }
    (({ config } : Store).newPeer 0 target) ⟨0, fun _ _ => true⟩ rfl hroom (fun _ _ => rfl) _ 1
    hfirst count hearly
  rw [Nat.add_comm 1 count, List.replicate_succ, Nat.add_comm count 1]
  exact hrun

lemma run_from_start (number : Nat) (hsome : 0 < number) (hearly : number ≤ 65535) :
    let config : Config := { selfAddress := .loopback 9001 }
    let target : Address := .loopback 9002
    let record : PeerRecord := ({ config } : Store).newPeer 0 target
    ((History.starting config 1).run
      (List.replicate number (.send ⟨0, fun _ _ => true⟩ target {} .unreliable))).engine =
        numbered { Engine.starting config 1 with store := { config, nextSerial := 1 } } record
          (.ofNat number) :=
  run_from_first (by decide) (by decide +kernel) number hsome hearly

/-- A call draws the last number of the counter, while the socket accepts everything. The counter starts
from 0, and a first frame without timestamp is handed over if and only if the message fits. If it does
not, the call fails, nothing is handed over, and the next frame to the peer carries the number 0 without
any reset before it. -/
theorem reset_handed_over_iff_fits (config : Config) (firstId : UInt32) (steps : List EngineStep)
    {occasion : Occasion} {target : Address}
    (haccepts : ∀ frame, occasion.accepts target frame = true) (fields : FieldMap)
    (delivery : Delivery)
    (hlast : outgoingTimestamp ((History.starting config firstId).run steps).engine target =
      wraparoundTimestamp) :
    let engine := ((History.starting config firstId).run steps).engine
    let sent := engine.send occasion target fields delivery
    outgoingTimestamp sent.1 target = 0 ∧
    (FitsReset config.maxDatagramSize fields ↔ ∃ id frame,
      sent.2 = ([.sent target frame true], .ok (some id)) ∧
        Frame.decode frame = .ok (resetFrame id fields)) ∧
    (¬FitsReset config.maxDatagramSize fields →
      (∃ error, sent.2 = ([], .error error)) ∧
      ∀ next more again, ∀ effect ∈ (sent.1.send next target more again).2.1, ∃ bytes accepted,
        effect = .sent target bytes accepted ∧ stamp? bytes = some (some 0)) := by
  intro engine sent
  obtain ⟨hw, hconfig, -⟩ := History.wellFiled_run config firstId steps
  have hzero : outgoingTimestamp sent.1 target = 0 := by
    rw [(timestamps_send hw occasion target fields delivery target).2, if_pos rfl, hlast]
    rfl
  have hsent := send_at_last hw hlast occasion fields delivery
  have hwritten := @writeFrame_reset engine _ (draw_ne_zero engine.messageIds) target fields
  rw [show engine.config = config from hconfig] at hwritten
  rcases hwritten with ⟨hfits, frame, hframe, hdecode⟩ | ⟨hunfit, error, herror⟩
  · rw [hframe] at hsent
    simp only [haccepts, if_true] at hsent
    exact ⟨hzero, iff_of_true hfits ⟨_, frame, hsent, hdecode⟩, fun hunfit => absurd hfits hunfit⟩
  · rw [herror] at hsent
    refine ⟨hzero, iff_of_false hunfit ?_, fun _ => ⟨⟨error, hsent⟩, fun next more again => ?_⟩⟩
    · rintro ⟨id, frame, hframe, -⟩
      cases hsent.symm.trans hframe
    · have hstamped := @stamped_of_send sent.1 (hw.send occasion target fields delivery) target next
        more again
      rw [hzero] at hstamped
      exact hstamped

/-- The last number goes to a message that fits. -/
theorem reset_handed_over_of_empty :
    let config : Config := { selfAddress := .loopback 9001 }
    let target : Address := .loopback 9002
    let occasion : Occasion := ⟨0, fun _ _ => true⟩
    let engine := ((History.starting config 1).run
      (List.replicate 65535 (.send occasion target {} .unreliable))).engine
    (∀ frame, occasion.accepts target frame = true) ∧
      outgoingTimestamp engine target = wraparoundTimestamp ∧
      ∃ id frame,
        (engine.send occasion target {} .unreliable).2 =
            ([.sent target frame true], .ok (some id)) ∧
          Frame.decode frame = .ok (resetFrame id {}) := by
  intro config target occasion engine
  have hlast : outgoingTimestamp engine target = wraparoundTimestamp := by
    rw [show engine = _ from run_from_start 65535 (by decide) (by decide)]
    decide +kernel
  obtain ⟨-, hhanded, -⟩ := @reset_handed_over_iff_fits config 1 _ occasion target (fun _ => rfl) {}
    .unreliable hlast
  exact ⟨fun _ => rfl, hlast, hhanded.1 (by decide)⟩

/-- The last number goes to a message with too many bytes. Nothing is handed over, and the next message
goes out with the number 0. -/
theorem reset_swallowed :
    let config : Config := { selfAddress := .loopback 9001 }
    let target : Address := .loopback 9002
    let occasion : Occasion := ⟨0, fun _ _ => true⟩
    let engine := ((History.starting config 1).run
      (List.replicate 65535 (.send occasion target {} .unreliable))).engine
    let large : FieldMap := { bytes := some (List.replicate 8192 0) }
    let sent := engine.send occasion target large .unreliable
    outgoingTimestamp engine target = wraparoundTimestamp ∧ outgoingTimestamp sent.1 target = 0 ∧
      sent.2 = ([], .error (.unwritable (.countOverflow .byte 8192 8191))) ∧
      (sent.1.send occasion target {} .unreliable).2 =
        ([.sent target [0, 0, 0, 0, 0, 0, 0] true], .ok none) := by
  intro config target occasion engine large sent
  have hengine : engine = _ := run_from_start 65535 (by decide) (by decide)
  clear_value engine
  subst hengine
  decide +kernel

end ReliableDatagrams.Proofs
