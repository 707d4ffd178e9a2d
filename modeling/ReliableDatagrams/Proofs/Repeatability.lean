import ReliableDatagrams.Proofs.FirstFrames
import ReliableDatagrams.Proofs.SwallowedResets

/-!
# Messages that can be repeated

The size of a message is checked when it is sent, and again when its first frame is repeated with the
next number of the counter. Only one number makes a difference: with the last one the frame has no
timestamp and is two bytes shorter. A message that gets that number can be sent without having room for
a timestamp, and is given up as soon as it has to be repeated. `first_frame_repeated_iff_fits` says that
nothing else stands in the way, `given_up_unrepeated` is a run in which a message is given up like that.
-/

namespace ReliableDatagrams.Proofs

/-- The number of bytes of a message's first frame with the timestamp for a number. -/
def firstFrameSize (number : UInt16) (fields : FieldMap) : Nat :=
  9 + stampLength number + fieldsSize (neededWidth fields) fields.toList

section Frames

variable {id : UInt32} {fields : FieldMap} {bytes : Bytes} {number : UInt16}

lemma length_of_encode {timestamp : UInt16}
    (h : encode fields.toList
      { messageId := some id, timestamp := some timestamp,
        doubleCount := fields.needsDoubleCount } = .ok bytes) :
    bytes.length = firstFrameSize timestamp fields := by
  obtain ⟨-, body, hbody, rfl⟩ := (encode_eq_ok_iff _ _).1 h
  rw [length_frameAround, @length_writtenTimestamp _ timestamp rfl, length_of_writeFields hbody]
  rfl

lemma stampOf_injective {first second : UInt16} (h : stampOf first = stampOf second) :
    first = second := by
  unfold stampOf at h
  split at h <;> split at h
  · rename_i hfirst hsecond
    rw [hfirst, hsecond]
  · cases h
  · cases h
  · exact Option.some.inj h

lemma IsFirstFrame.length_eq (h : IsFirstFrame id fields bytes)
    (hstamp : stamp? bytes = some (stampOf number)) :
    bytes.length = firstFrameSize number fields := by
  obtain ⟨timestamp, hwritten⟩ := h
  have hsame := (stamp?_of_encode hwritten).symm.trans hstamp
  rw [← stampOf_injective (Option.some.inj hsame)]
  exact length_of_encode hwritten

lemma firstFrameSize_le (first second : UInt16) (fields : FieldMap)
    (h : first ≠ wraparoundTimestamp ∨ second = wraparoundTimestamp) :
    firstFrameSize second fields ≤ firstFrameSize first fields := by
  unfold firstFrameSize stampLength
  rcases h with hstamped | hlast
  · rw [if_neg hstamped]
    split <;> omega
  · rw [if_pos hlast]
    omega

end Frames

section Repeating

variable {engine : Engine} {occasion : Occasion} {record : ConnectionRecord} {syn : Bytes}
variable {fields : FieldMap}

/-- The first frame is written again exactly if it is not too large with the next number. -/
lemma restamp_of_isFirstFrame (hw : WellFiled engine.store) {id : UInt32}
    (hfirst : IsFirstFrame id fields syn) (now : Nat) (target : Address) :
    ∃ frame, IsFirstFrame id fields frame ∧
      stamp? frame = some (stampOf (outgoingTimestamp engine target)) ∧
      engine.restamp now target syn = ((engine.drawTimestamp now target).1,
        if firstFrameSize (outgoingTimestamp engine target) fields ≤
            engine.config.maxDatagramSize then some frame
        else none) := by
  obtain ⟨timestamp, hwritten⟩ := hfirst
  obtain ⟨frame, hframe, -⟩ := encode_restamped hwritten (outgoingTimestamp engine target)
  have hread : (writtenFrame fields.toList
      { messageId := some id, timestamp := some timestamp,
        doubleCount := fields.needsDoubleCount }).fields = fields :=
    ofList_toList fields
  have hconfig : (engine.drawTimestamp now target).1.config = engine.config :=
    config_withPeer _ _ _ _
  refine ⟨frame, ⟨_, hframe⟩, stamp?_of_encode hframe, ?_⟩
  unfold Engine.restamp
  simp only [decode_of_encode hwritten, (drawTimestamp_eq hw now target).2, hread]
  simp only [Engine.writeFrame, writtenFrame, FrameOptions.flags, hframe, hconfig,
    length_of_encode hframe]
  by_cases hfits : firstFrameSize (outgoingTimestamp engine target) fields ≤
      engine.config.maxDatagramSize
  · rw [if_neg (Nat.not_lt.2 hfits), if_pos hfits]
    rfl
  · rw [if_pos (Nat.lt_of_not_le hfits), if_neg hfits]
    rfl

/-- The first frame of a message goes out again with a number, not too large, and the record is kept
if the socket accepts it. -/
structure GoesOutAgain (max : Nat) (number : UInt16) (occasion : Occasion)
    (record : ConnectionRecord) (fields : FieldMap) (frame : Bytes) (after : Engine)
    (effects : List Effect) : Prop where
  handed : effects = [.sent record.key.peer frame (occasion.accepts record.key.peer frame)]
  message : ReadsMessage record.key.messageId fields frame
  stamp : stamp? frame = some (stampOf number)
  small : frame.length ≤ max
  kept : occasion.accepts record.key.peer frame = true →
    after.store.connections[record.key]? = some { record with lastSent := some frame }

/-- Nothing goes out, and the record leaves the store. -/
structure IsGivenUp (key : ConnectionKey) (after : Engine) (effects : List Effect) : Prop where
  silent : effects = []
  gone : after.store.connections[key]? = none

variable (hw : WellFiled engine.store)
variable (hfiled : engine.store.connections[record.key]? = some record)
variable (hfirst : IsFirstFrame record.key.messageId fields syn)

include hw hfirst

lemma resendSyn_of_fits (hstatus : record.status = .synSent)
    (hfits : firstFrameSize (outgoingTimestamp engine record.key.peer) fields ≤
      engine.config.maxDatagramSize) :
    ∃ frame, GoesOutAgain engine.config.maxDatagramSize
      (outgoingTimestamp engine record.key.peer) occasion record fields frame
      (engine.resendSyn occasion record syn).1 (engine.resendSyn occasion record syn).2 := by
  obtain ⟨frame, hagain, hstamp, hrestamp⟩ :=
    restamp_of_isFirstFrame hw hfirst occasion.now record.key.peer
  rw [if_pos hfits] at hrestamp
  unfold Engine.resendSyn
  rw [hrestamp]
  simp only [if_pos hstatus]
  refine ⟨frame, effects_transmit _ _ _ _, hagain.readsMessage, hstamp, ?_, ?_⟩
  · rw [hagain.length_eq hstamp]
    exact hfits
  · intro haccepts
    rw [connections_transmit, getElem?_afterTransmit, if_pos rfl, if_pos haccepts]

include hfiled

lemma resendSyn_of_not_fits
    (hlarge : ¬ firstFrameSize (outgoingTimestamp engine record.key.peer) fields ≤
      engine.config.maxDatagramSize) :
    IsGivenUp record.key (engine.resendSyn occasion record syn).1
      (engine.resendSyn occasion record syn).2 := by
  obtain ⟨frame, -, -, hrestamp⟩ :=
    restamp_of_isFirstFrame hw hfirst occasion.now record.key.peer
  rw [if_neg hlarge] at hrestamp
  have hsame : (engine.drawTimestamp occasion.now record.key.peer).1.store.connections[
      record.key]? = some record := by
    rw [connections_drawTimestamp]
    exact hfiled
  unfold Engine.resendSyn
  rw [hrestamp]
  refine ⟨rfl, ?_⟩
  dsimp only
  rw [connections_retire_of_filed _ _ _ hsame rfl]
  exact Std.ExtTreeMap.getElem?_erase_self

end Repeating

namespace History

/-- What a call hands over for a message was not too large with the number that the call drew. -/
lemma firstFrameSize_le_of_send {config : Config} {firstId : UInt32} {before : List EngineStep}
    {occasion : Occasion} {target : Address} {fields : FieldMap} {delivery : Delivery}
    {first : Bytes} {accepted : Bool} {id : UInt32}
    (hmem : Effect.sent target first accepted ∈
      (((starting config firstId).run before).engine.send occasion target fields delivery).2.1)
    (hid : synId? first = some id) :
    firstFrameSize (outgoingTimestamp ((starting config firstId).run before).engine target) fields ≤
      config.maxDatagramSize := by
  obtain ⟨hw, hconfig, -⟩ := wellFiled_run config firstId before
  have hsmall := length_le_of_send occasion target fields delivery hmem
  obtain ⟨bytes, taken, hsent, hstamp⟩ :=
    @stamped_of_send _ hw target occasion fields delivery _ hmem
  cases hsent
  obtain ⟨-, -, -, hfirst⟩ :=
    (send_move occasion hw target fields delivery).first_of_synId? hmem hid
  rwa [hfirst.length_eq hstamp, hconfig] at hsmall

end History

/-- A sender's record waits for its first answer, after any run. It belongs to a call of `send` that
has handed a first frame to the socket, and keeps a first frame of that message. Whatever is known
about peers by then, to repeat the first frame is to hand it to the socket with the next number, and
to keep the record if the socket accepts it, if and only if the frame is not too large with that
number. If it is, the call has drawn the last number of the counter, and the next one is another. -/
theorem first_frame_repeated_iff_fits (config : Config) (firstId : UInt32)
    (steps : List EngineStep) {target : Address} {id : UInt32} {record : ConnectionRecord}
    (hrecord : ((History.starting config firstId).run steps).engine.store.connection?
      ⟨target, id, .sender⟩ = some record)
    (hstatus : record.status = .synSent) :
    ∃ before call fields delivery later syn,
      steps = before ++ .send call target fields delivery :: later ∧
      (∃ first accepted, .sent target first accepted ∈ (((History.starting config firstId).run
          before).engine.send call target fields delivery).2.1 ∧ synId? first = some id) ∧
      record.lastSent = some syn ∧ ReadsMessage id fields syn ∧
      ∀ (peers : Std.ExtTreeMap Address PeerRecord) (occasion : Occasion), PeersFiled peers →
        let store := ((History.starting config firstId).run steps).engine.store
        let engine := { ((History.starting config firstId).run steps).engine with
          store := { store with peers } }
        let number := outgoingTimestamp engine target
        let again := engine.resendSyn occasion record syn
        (firstFrameSize number fields ≤ config.maxDatagramSize ↔
          ∃ frame, GoesOutAgain config.maxDatagramSize number occasion record fields frame
            again.1 again.2) ∧
        (¬ firstFrameSize number fields ≤ config.maxDatagramSize →
          IsGivenUp ⟨target, id, .sender⟩ again.1 again.2 ∧
          outgoingTimestamp ((History.starting config firstId).run before).engine target =
            wraparoundTimestamp ∧ number ≠ wraparoundTimestamp) := by
  have hfaith := History.keepsFaith_run config firstId steps
  have hconfig := (History.wellFiled_run config firstId steps).2.1
  rw [connection?_eq hfaith.filed] at hrecord
  have hkey := (hfaith.filed.connection _ _ hrecord).1
  obtain ⟨fields, hsent, hkeeps⟩ := hfaith.senders _ _ hrecord (by rw [hkey])
  obtain ⟨syn, hsyn, hfirst⟩ := hkeeps.waiting hstatus
  obtain ⟨before, call, delivery, later, hsteps, first, accepted, hmem, hid⟩ := hsent
  rw [hkey] at hsteps hmem hid
  have hsmall := History.firstFrameSize_le_of_send hmem hid
  have hreads := hfirst.readsMessage
  rw [hkey] at hreads
  refine ⟨before, call, fields, delivery, later, syn, hsteps, ⟨first, accepted, hmem, hid⟩, hsyn,
    hreads, ?_⟩
  intro peers occasion hpeers store engine number again
  have hw : WellFiled engine.store := ⟨hpeers, hfaith.filed.connection⟩
  have hfiled : engine.store.connections[record.key]? = some record := by
    rw [hkey]
    exact hrecord
  have hmax : engine.config.maxDatagramSize = config.maxDatagramSize :=
    congrArg Config.maxDatagramSize hconfig
  have hnumber : outgoingTimestamp engine record.key.peer = number := by rw [hkey]
  by_cases hfits : firstFrameSize number fields ≤ config.maxDatagramSize
  · have hagain := @resendSyn_of_fits engine occasion record syn fields hw hfirst hstatus
      (by rwa [hnumber, hmax])
    rw [hnumber, hmax] at hagain
    exact ⟨iff_of_true hfits hagain, fun hlarge => absurd hfits hlarge⟩
  · have hgiven := @resendSyn_of_not_fits engine occasion record syn fields hw hfiled hfirst
      (by rwa [hnumber, hmax])
    rw [hkey] at hgiven
    refine ⟨iff_of_false hfits ?_, fun _ => ⟨hgiven, ?_⟩⟩
    · rintro ⟨frame, hagain⟩
      have hsilent := hagain.handed.symm.trans hgiven.silent
      cases hsilent
    · -- only without a timestamp the frame was smaller
      by_contra hother
      refine hfits (Nat.le_trans (firstFrameSize_le _ _ fields ?_) hsmall)
      by_cases hlast : outgoingTimestamp ((History.starting config firstId).run
          before).engine target = wraparoundTimestamp
      · exact Or.inr (Classical.not_not.1 fun hnumber => hother ⟨hlast, hnumber⟩)
      · exact Or.inl hlast

/-- A message that has room for a timestamp is sent, and goes out again with the next number. -/
theorem first_frame_repeated_of_room :
    let config : Config := { selfAddress := .loopback 9001, maxDatagramSize := 20 }
    let target : Address := .loopback 9002
    let occasion : Occasion := ⟨0, fun _ _ => true⟩
    let message : FieldMap := { bytes := some [1, 2, 3] }
    let engine :=
      ((History.starting config 1).run [.send occasion target message .reliable]).engine
    let syn : Bytes := [1, 1, 0, 0, 0, 41, 0, 0, 0, 0, 0, 35, 1, 2, 3]
    let record : ConnectionRecord :=
      { serial := 1, key := ⟨target, 1, .sender⟩, timeout := 1000, failureBound := 5
        status := .synSent, lastSent := some syn, lastInteraction := 0 }
    engine.store.connection? ⟨target, 1, .sender⟩ = some record ∧ record.status = .synSent ∧
      ReadsMessage 1 message syn ∧ firstFrameSize 1 message = 15 ∧
      ∃ frame, GoesOutAgain 20 1 occasion record message frame
        (engine.resendSyn occasion record syn).1 (engine.resendSyn occasion record syn).2 := by
  intro config target occasion message engine syn record
  have hrecord : engine.store.connection? ⟨target, 1, .sender⟩ = some record := by decide +kernel
  have hpeers := (History.wellFiled_run config 1 [.send occasion target message .reliable]).1.peer
  obtain ⟨before, call, fields, delivery, later, buffered, hsteps, -, hsyn, hreads, hagain⟩ :=
    first_frame_repeated_iff_fits config 1 [.send occasion target message .reliable] hrecord rfl
  obtain rfl : syn = buffered := Option.some.inj hsyn
  -- there is only one call that the record can belong to
  cases before with
  | cons step more => simp at hsteps
  | nil =>
    cases hsteps
    have hnumber : outgoingTimestamp engine target = 1 := by decide +kernel
    have hsize : firstFrameSize 1 message = 15 := by decide +kernel
    have hfits : firstFrameSize (outgoingTimestamp engine target) message ≤ 20 := by
      rw [hnumber, hsize]
      decide
    have hout := (hagain engine.store.peers occasion hpeers).1.1 hfits
    refine ⟨hrecord, rfl, hreads, hsize, ?_⟩
    rw [← hnumber]
    exact hout

/-- After 65535 frames a message with ten bytes is sent. It fits without timestamp, in a datagram of 20
bytes. When it has to be repeated, though fewer failures have been counted than are put up with, it is
given up instead. -/
theorem given_up_unrepeated :
    let config : Config := { selfAddress := .loopback 9001, maxDatagramSize := 20 }
    let target : Address := .loopback 9002
    let occasion : Occasion := ⟨0, fun _ _ => true⟩
    let later : Occasion := ⟨1000, fun _ _ => true⟩
    let engine := ((History.starting config 1).run
      (List.replicate 65535 (.send occasion target {} .unreliable))).engine
    let message : FieldMap := { bytes := some (List.replicate 10 0) }
    let syn : Bytes := [0x21, 1, 0, 0, 0, 42, 0, 0, 0, 42, 0, 0, 0, 0, 0, 0, 0, 0, 0, 0]
    let record : ConnectionRecord :=
      { serial := 1, key := ⟨target, 1, .sender⟩, timeout := 1000, failureBound := 5
        status := .synSent, lastSent := some syn, lastInteraction := 0 }
    let sent := engine.send occasion target message .reliable
    sent.2 = ([.sent target syn true], .ok (some 1)) ∧
      sent.1.store.connection? ⟨target, 1, .sender⟩ = some record ∧
      outgoingTimestamp sent.1 target = 0 ∧
      IsGivenUp ⟨target, 1, .sender⟩ (sent.1.resendSyn later record syn).1
        (sent.1.resendSyn later record syn).2 ∧
      IsGivenUp ⟨target, 1, .sender⟩ (sent.1.timeoutSweep later).1 (sent.1.timeoutSweep later).2 := by
  intro config target occasion later engine message syn record sent
  have hengine : engine = _ :=
    run_from_first (by decide) (by decide +kernel) 65535 (by decide) (by decide)
  clear_value engine
  subst hengine
  refine ⟨by decide +kernel, by decide +kernel, by decide +kernel, ?_, ?_⟩
  · constructor <;> decide +kernel
  · constructor <;> decide +kernel

end ReliableDatagrams.Proofs
