import ReliableDatagrams.Proofs.HandshakeAutomaton
import ReliableDatagrams.Proofs.Staleness

/-!
# One delivery for each record

A message is delivered in the step in which a receiver's record accepts it, and in no other. As a
record never goes back to waiting, it accepts once in its life, whatever comes in and whatever the
socket refuses. A second delivery of the same id takes another record, opened after the first one
was removed. Until then copies of the first frame are only confirmed, and damaged ones ignored.

The serial number tells which record it is, and it outlives the removal of the record from the
store. So a record that is opened, accepts and is removed in one step, because the socket refused
the answer, is seen to have accepted.
-/

namespace ReliableDatagrams.Proofs

def EngineStep.effects (engine : Engine) : EngineStep → List Effect
  | .send occasion target fields delivery => (engine.send occasion target fields delivery).2.1
  | .work occasion task => (engine.run occasion task).2

/-- A step is part of the life of a record: it finds the record filed, or opens it. -/
def LivesIn (key : ConnectionKey) (serial : Nat) (before after : Store) : Prop :=
  filedSerial? before (.connection key) = some serial ∨
    recordStatus? before key serial = none ∧ recordStatus? after key serial ≠ none

/-- A record that has waited, or that is new, has accepted its message. -/
def AcceptsIn (key : ConnectionKey) (serial : Nat) (before after : Store) : Prop :=
  (recordStatus? before key serial = none ∨ recordStatus? before key serial = some .initial) ∧
    recordStatus? after key serial = some .synAckSent

instance (key : ConnectionKey) (serial : Nat) (before after : Store) :
    Decidable (LivesIn key serial before after) :=
  inferInstanceAs (Decidable (_ ∨ _ ∧ _))

instance (key : ConnectionKey) (serial : Nat) (before after : Store) :
    Decidable (AcceptsIn key serial before after) :=
  inferInstanceAs (Decidable ((_ ∨ _) ∧ _))

/-- How often the message of a handshake is delivered in the life of a record. -/
def History.deliveriesOf (history : History) (key : ConnectionKey) (serial : Nat) :
    List EngineStep → Nat
  | [] => 0
  | step :: rest =>
    (if LivesIn key serial history.engine.store (history.step step).engine.store then
      (step.effects history.engine).countP (delivers key.peer key.messageId)
    else 0) + (history.step step).deliveriesOf key serial rest

/-- How the deliveries of a message in a step go with the records of its handshake. -/
structure DeliversByRecord (key : ConnectionKey) (engine : Engine) (step : EngineStep)
    (after : Store) : Prop where
  counted : ∀ serial, LivesIn key serial engine.store after →
    (step.effects engine).countP (delivers key.peer key.messageId) =
      if AcceptsIn key serial engine.store after then 1 else 0
  attributed : 0 < (step.effects engine).countP (delivers key.peer key.messageId) →
    ∃ serial, LivesIn key serial engine.store after ∧ AcceptsIn key serial engine.store after

/-- How an engine deals with further copies of a first frame. -/
structure ConfirmsCopies (engine : Engine) (source : Address) (id : UInt32) : Prop where
  valid : ∀ occasion datagram frame, Reads datagram .syn id frame →
    (engine.receive occasion source datagram).2 =
      [.sent source (encodeControl .synSuccess id)
        (occasion.accepts source (encodeControl .synSuccess id))]
  damaged : ∀ occasion datagram header expected actual,
    Frame.decode datagram = .error (.checksumMismatch header expected actual) →
    header.flags.kind? = some .syn → header.messageId = some id →
      engine.receive occasion source datagram = (engine, [])

section Accepting

variable {engine : Engine} (occasion : Occasion) {source : Address} {datagram : Bytes} {id : UInt32}
variable {connection : ConnectionRecord}

lemma pending_acceptTimestamp (now : Nat) (timestamp : Option UInt16) :
    (engine.acceptTimestamp now source timestamp).1.store.pending = engine.store.pending := by
  cases timestamp with
  | none => rfl
  | some timestamp => exact pending_withPeer _ _ _ _

lemma removal_transmit (frame : Bytes) :
    Removal occasion.now (engine.putConnection { connection with lastSent := some frame }).store
      (engine.transmit occasion connection frame).1.store := by
  unfold Engine.transmit
  dsimp only
  split
  · exact .nothing
  · unfold Engine.retire
    dsimp only
    exact markForDeletion_removal _ _ _

/-- A frame for a handshake leaves the record in the status with which it is handed over, and the
other records of the key alone, even if the socket refuses it. -/
lemma recordStatus?_transmit (hp : IsProper engine.store) {key : ConnectionKey}
    (hkey : connection.key = key) (hrevision : IsRevision .any engine.store connection)
    (frame : Bytes) (serial : Nat) :
    recordStatus? (engine.transmit occasion connection frame).1.store key serial =
      if connection.serial = serial then some connection.status
      else recordStatus? engine.store key serial := by
  obtain ⟨old, hthere, hserial, hkept, hallowed⟩ := hrevision
  have hput : IsProper (engine.putConnection { connection with lastSent := some frame }).store :=
    (@Edit.changed .any engine.store old { connection with lastSent := some frame } hthere hserial
      hkept hallowed).isProper hp
  rw [(removal_transmit occasion frame).recordStatus? hput]
  rw [@recordStatus?_putConnection engine.store _ key serial
    { connection with lastSent := some frame } hput.filed rfl rfl fun found hfound => by
      cases hthere.symm.trans hfound
      exact hserial.symm]
  simp only [hkey, true_and]

/-- A fresh first frame is accepted by the record that is found or opened for it, and the answer is
handed over last. -/
lemma receiveSyn_eq_transmit (hp : IsProper engine.store)
    (hfound : connectionOrNew engine.store occasion.now ⟨source, id, .receiver⟩ = connection)
    (hwaiting : ¬ .synAckSent ≤ connection.status) {timestamp : Option UInt16}
    (hfresh : isFreshFrom engine source timestamp = true) (fields : FieldMap) :
    ∃ between : Engine, IsProper between.store ∧
      between.store.pending = engine.store.pending ∧
      between.store.connections[(⟨source, id, .receiver⟩ : ConnectionKey)]? = some connection ∧
      (engine.receiveSyn occasion source id timestamp fields).1 =
        (between.transmit occasion
          { connection with status := .synAckSent, lastInteraction := occasion.now }
          (encodeControl .synSuccess id)).1 := by
  have hkey : connection.key = ⟨source, id, .receiver⟩ := by
    rw [← hfound]
    exact connectionOrNew_key hp.filed _ _
  have hrecord := snd_connectionOrInsert engine.store occasion.now ⟨source, id, .receiver⟩
  have hthere := getElem?_connectionOrInsert engine.store occasion.now ⟨source, id, .receiver⟩
  rw [hfound] at hrecord hthere
  have hopened : Edits .any engine.store
      (engine.store.connectionOrInsert occasion.now ⟨source, id, .receiver⟩).1 :=
    Edits.connectionOrInsert .refl _ trivial
  have htracked := @Edits.acceptTimestamp .any _ { engine with store :=
    (engine.store.connectionOrInsert occasion.now ⟨source, id, .receiver⟩).1 } hp hopened
    occasion.now source timestamp
  obtain ⟨hsame, haccepts⟩ := @acceptTimestamp_opened engine occasion source id timestamp
  have hpending := @pending_acceptTimestamp { engine with store :=
    (engine.store.connectionOrInsert occasion.now ⟨source, id, .receiver⟩).1 } source occasion.now
    timestamp
  rw [hfresh] at haccepts
  rw [pending_connectionOrInsert] at hpending
  unfold Engine.receiveSyn
  simp only [hrecord, if_neg hwaiting]
  split
  · rename_i tracked ha
    rw [ha] at haccepts
    cases haccepts
  · rename_i tracked ha
    rw [ha] at hsame hpending htracked
    refine ⟨tracked.resetTimestamps occasion.now source timestamp,
      (htracked.resetTimestamps hp _ _ _).isProper hp, ?_, ?_, ?_⟩
    · exact (pending_withPeer _ _ _ _).trans hpending
    · rw [← hthere, ← hsame]
      exact congrArg (·[_]?) (connections_withPeer _ _ _ _)
    · simp only [Engine.acknowledge, ConnectionRecord.touch, hkey]

/-- The record that is found or opened for a handshake is the one that is filed, or it takes the next
serial number. -/
lemma serial_connectionOrNew (store : Store) (now : Nat) (key : ConnectionKey) :
    filedSerial? store (.connection key) = some (connectionOrNew store now key).serial ∨
      filedSerial? store (.connection key) = none ∧
        (connectionOrNew store now key).serial = store.nextSerial := by
  unfold filedSerial? connectionOrNew
  dsimp only
  cases store.connections[key]? with
  | some connection => exact Or.inl rfl
  | none => exact Or.inr ⟨rfl, rfl⟩

/-- A message that is accepted is accepted by one record, which was filed under its key or is new. -/
lemma statuses_of_acceptsAnew (hp : IsProper engine.store)
    (h : AcceptsAnew engine source datagram id) :
    ∃ serial, recordStatus? (engine.receive occasion source datagram).1.store
        ⟨source, id, .receiver⟩ serial = some .synAckSent ∧
      (filedSerial? engine.store (.connection ⟨source, id, .receiver⟩) = some serial ∨
        filedSerial? engine.store (.connection ⟨source, id, .receiver⟩) = none ∧
          engine.store.nextSerial ≤ serial) ∧
      ∀ other, other ≠ serial →
        recordStatus? (engine.receive occasion source datagram).1.store
          ⟨source, id, .receiver⟩ other =
            recordStatus? engine.store ⟨source, id, .receiver⟩ other := by
  obtain ⟨⟨frame, hreads, hfresh⟩, hnew⟩ := h
  have htouched : Edits .any engine.store (engine.touchPeer occasion.now source).store :=
    Edits.touchPeer hp .refl _ _
  have hproper := htouched.isProper hp
  have hsame := @connections_touchPeer engine occasion.now source
  generalize hfound : connectionOrNew (engine.touchPeer occasion.now source).store occasion.now
    ⟨source, id, .receiver⟩ = found
  have hkey : found.key = ⟨source, id, .receiver⟩ := by
    rw [← hfound]
    exact connectionOrNew_key hproper.filed _ _
  have hwaiting : ¬ .synAckSent ≤ found.status := by
    rw [← hfound]
    intro hopen
    have hthere := connectionOrNew_of_status _ _ hopen
    rw [hsame] at hthere
    exact waiting_of_not_holdsAccepted hp.filed hnew _ hthere hopen
  rw [← isFreshFrom_touchPeer hp.filed occasion.now] at hfresh
  obtain ⟨between, hbetween, hpending, hthere, hreceived⟩ :=
    receiveSyn_eq_transmit occasion hproper hfound hwaiting hfresh frame.fields
  have hrevision : IsRevision .any between.store
      { found with status := .synAckSent, lastInteraction := occasion.now } :=
    ⟨found, by rw [← hthere, hkey], rfl, rfl, Or.inr trivial⟩
  have hstatus := @recordStatus?_transmit between occasion
    { found with status := .synAckSent, lastInteraction := occasion.now } hbetween _ hkey hrevision
    (encodeControl .synSuccess id)
  rw [receive_of_decode occasion hreads.decoded, receiveFrame_of_reads occasion hreads]
  dsimp only
  rw [hreceived]
  -- the record was filed before, or it got its serial number just now
  have hfiled : filedSerial? (engine.touchPeer occasion.now source).store
      (.connection ⟨source, id, .receiver⟩) =
        filedSerial? engine.store (.connection ⟨source, id, .receiver⟩) := by
    rw [filedSerial?, hsame, filedSerial?]
  have hserial := serial_connectionOrNew (engine.touchPeer occasion.now source).store occasion.now
    ⟨source, id, .receiver⟩
  rw [hfound, hfiled] at hserial
  refine ⟨found.serial, (hstatus _).trans (if_pos rfl), ?_, fun other hother => ?_⟩
  · refine hserial.imp_right (And.imp_right fun hnext => ?_)
    rw [hnext]
    exact htouched.nextSerial_le
  · refine ((hstatus other).trans (if_neg (Ne.symm hother))).trans ?_
    refine recordStatus?_of_others ?_ ?_ ?_
    · rcases hserial with hsome | ⟨hnone, -⟩
      · rw [hsome]
        exact fun hsame => hother (Option.some.inj hsame).symm
      · rw [hnone]
        exact (Option.some_ne_none _).symm
    · rw [filedSerial?_of_filed hthere]
      exact fun hsame => hother (Option.some.inj hsame).symm
    · rw [hpending, Engine.touchPeer, pending_withPeer]

end Accepting

section Steps

variable {history : History} (hp : IsProper history.engine.store) (step : EngineStep)
variable {peer : Address} {id : UInt32} {serial : Nat}

/-- The message of a handshake is delivered in a step only if a datagram is accepted anew. -/
lemma countP_delivers_step {engine : Engine} (hw : WellFiled engine.store)
    (h : ∀ occasion datagram, step = .work occasion (.receive peer datagram) →
      ¬ AcceptsAnew engine peer datagram id) :
    (step.effects engine).countP (delivers peer id) = 0 := by
  cases step with
  | send occasion target fields delivery =>
    exact countP_delivers_send occasion hw target fields delivery
  | work occasion task =>
    cases task with
    | receive source datagram =>
      refine countP_delivers_receive occasion hw ?_
      rintro ⟨rfl, hanew⟩
      exact h occasion datagram rfl hanew
    | timeoutSweep => exact countP_delivers_timeoutSweep occasion hw
    | deleteSweep => rfl

include hp

/-- A datagram that is accepted anew is delivered once, and accepted by the only record of the
handshake that lives then. -/
lemma delivers_of_acceptsAnew (ha : ReceiversAwait history.engine.store.connections)
    (occasion : Occasion) {datagram : Bytes} (h : AcceptsAnew history.engine peer datagram id) :
    ∃ serial, LivesIn ⟨peer, id, .receiver⟩ serial history.engine.store
        (history.step (.work occasion (.receive peer datagram))).engine.store ∧
      AcceptsIn ⟨peer, id, .receiver⟩ serial history.engine.store
        (history.step (.work occasion (.receive peer datagram))).engine.store ∧
      ∀ other, LivesIn ⟨peer, id, .receiver⟩ other history.engine.store
        (history.step (.work occasion (.receive peer datagram))).engine.store → other = serial := by
  obtain ⟨serial, hafter, hbefore, hothers⟩ := statuses_of_acceptsAnew occasion hp h
  refine ⟨serial, ?_, ⟨?_, hafter⟩, ?_⟩
  · rcases hbefore with hfiled | ⟨-, hunused⟩
    · exact Or.inl hfiled
    · exact Or.inr ⟨recordStatus?_of_unused hp hunused, ne_of_eq_of_ne hafter (by decide)⟩
  · rcases hbefore with hfiled | ⟨-, hunused⟩
    · obtain ⟨connection, hthere, rfl⟩ := exists_filed_of_filedSerial? hfiled
      rw [recordStatus?_of_filed hp.filed hthere]
      have hawaits := ha _ _ hthere (by rw [(hp.filed.connection _ _ hthere).1])
      rcases hawaits with hinitial | haccepted
      · exact Or.inr (congrArg some hinitial)
      · refine absurd ⟨connection, ?_, by rw [haccepted]; decide⟩ h.2
        rw [connection?_eq hp.filed, hthere]
    · exact Or.inl (recordStatus?_of_unused hp hunused)
  · rintro other (hfiled | ⟨hnone, hopened⟩)
    · rcases hbefore with hsame | ⟨hnone, -⟩
      · exact Option.some.inj (hfiled.symm.trans hsame)
      · rw [hnone] at hfiled
        cases hfiled
    · by_contra hother
      exact hopened ((hothers other hother).trans hnone)

lemma deliversByRecord_step (ha : ReceiversAwait history.engine.store.connections) :
    DeliversByRecord ⟨peer, id, .receiver⟩ history.engine step
      (history.step step).engine.store := by
  by_cases hanew : ∃ occasion datagram, step = .work occasion (.receive peer datagram) ∧
      AcceptsAnew history.engine peer datagram id
  · obtain ⟨occasion, datagram, rfl, hanew⟩ := hanew
    obtain ⟨serial, hlives, haccepts, honly⟩ := delivers_of_acceptsAnew hp ha occasion hanew
    refine ⟨fun other hother => ?_, fun _ => ⟨serial, hlives, haccepts⟩⟩
    rw [honly other hother, if_pos haccepts]
    exact (receive_of_acceptsAnew occasion hp.filed hanew).2
  · have hnone := @countP_delivers_step step peer id _ hp.filed
      fun occasion datagram hstep h => hanew ⟨occasion, datagram, hstep, h⟩
    refine ⟨fun serial _ => ?_, fun hsome => absurd hsome (by rw [hnone]; exact Nat.lt_irrefl 0)⟩
    rw [hnone, if_neg]
    rintro ⟨hbefore, hafter⟩
    exact hanew (accepted_step hp step hbefore hafter)

lemma receiversAwait_step (ha : ReceiversAwait history.engine.store.connections) :
    ReceiversAwait (history.step step).engine.store.connections :=
  (@History.step_induction history (fun later => ReceiversAwait later.engine.store.connections)
    (fun hw h hmove => hmove.receiversAwait h hw) hp.filed ha step).2

end Steps

/-- A record that is gone or has accepted its message. -/
structure IsSpent (key : ConnectionKey) (serial : Nat) (store : Store) : Prop where
  used : serial < store.nextSerial
  accepted : ∀ status, recordStatus? store key serial = some status → .synAckSent ≤ status

lemma isSpent_of_acceptsIn {before after : Store} {key : ConnectionKey} {serial : Nat}
    (hproper : IsProper after) (h : AcceptsIn key serial before after) :
    IsSpent key serial after := by
  refine ⟨?_, ?_⟩
  · by_contra hunused
    rw [AcceptsIn, recordStatus?_of_unused hproper (Nat.not_lt.1 hunused)] at h
    cases h.2
  · rw [h.2]
    rintro status ⟨⟩
    decide

section Spent

variable {history : History} (hp : IsProper history.engine.store)
variable {peer : Address} {id : UInt32} {serial : Nat}

include hp

lemma IsSpent.later (step : EngineStep)
    (h : IsSpent ⟨peer, id, .receiver⟩ serial history.engine.store) :
    IsSpent ⟨peer, id, .receiver⟩ serial (history.step step).engine.store := by
  refine ⟨Nat.lt_of_lt_of_le h.used (edits_step hp step).nextSerial_le, ?_⟩
  refine (edits_step hp step).status hp (Q := fun found => ∀ status, found = some status →
    .synAckSent ≤ status) ?_ ?_ ?_ h.accepted
  · intro _ hnew
    exact absurd h.used (Nat.not_lt.2 hnew)
  · rintro before after hchange hreached status ⟨⟩
    rcases EngineStep.rule_changes hchange with ⟨_, _, _, _, -, hother, -⟩ | ⟨_, _, _, -, hchange⟩
    · cases hother
    · exact Nat.le_trans (hreached before rfl) hchange.le
  · exact nofun

/-- What is spent does not accept again. -/
lemma IsSpent.not_acceptsIn (step : EngineStep)
    (h : IsSpent ⟨peer, id, .receiver⟩ serial history.engine.store) :
    ¬ AcceptsIn ⟨peer, id, .receiver⟩ serial history.engine.store
      (history.step step).engine.store := by
  rintro ⟨hnone | hwaits, hafter⟩
  · exact Nat.not_lt.2 ((edits_step hp step).opens_of_new hp hnone hafter).2 h.used
  · exact absurd (h.accepted _ hwaits) (by decide)

lemma deliveriesOf_of_isSpent (ha : ReceiversAwait history.engine.store.connections)
    (h : IsSpent ⟨peer, id, .receiver⟩ serial history.engine.store) (steps : List EngineStep) :
    history.deliveriesOf ⟨peer, id, .receiver⟩ serial steps = 0 := by
  induction steps generalizing history with
  | nil => rfl
  | cons step rest ih =>
    have hdelivers := @deliversByRecord_step _ hp step peer id ha
    rw [History.deliveriesOf, ih ((edits_step hp step).isProper hp)
      (receiversAwait_step hp step ha) (h.later hp step), Nat.add_zero]
    split
    · rename_i hlives
      rw [hdelivers.counted serial hlives, if_neg (h.not_acceptsIn hp step)]
    · rfl

/-- The induction is on the run: once the record has accepted it is spent, and until then nothing was
delivered. -/
lemma deliveriesOf_le_one (ha : ReceiversAwait history.engine.store.connections)
    (steps : List EngineStep) :
    history.deliveriesOf ⟨peer, id, .receiver⟩ serial steps ≤ 1 := by
  induction steps generalizing history with
  | nil => exact Nat.zero_le 1
  | cons step rest ih =>
    have hproper := (edits_step hp step).isProper hp
    have hawait := receiversAwait_step hp step ha
    have hdelivers := @deliversByRecord_step _ hp step peer id ha
    rw [History.deliveriesOf]
    split
    · rename_i hlives
      rw [hdelivers.counted serial hlives]
      split
      · rename_i haccepts
        have hspent := isSpent_of_acceptsIn hproper haccepts
        exact Nat.le_of_eq (congrArg (1 + ·) (deliveriesOf_of_isSpent hproper hawait hspent rest))
      · rw [Nat.zero_add]
        exact ih hproper hawait
    · rw [Nat.zero_add]
      exact ih hproper hawait

end Spent

lemma receive_damaged {engine : Engine} (hw : WellFiled engine.store) (occasion : Occasion)
    {source : Address} {id : UInt32} (hheld : HoldsAccepted engine source id) {datagram : Bytes}
    {header : FrameHeader} {expected actual : UInt32}
    (hd : Frame.decode datagram = .error (.checksumMismatch header expected actual))
    (hkind : header.flags.kind? = some .syn) (hid : header.messageId = some id) :
    engine.receive occasion source datagram = (engine, []) := by
  obtain ⟨connection, hconnection, hopen⟩ := hheld
  rw [connection?_eq hw] at hconnection
  have hsame := connections_connectionOrInsert_of_filed _ occasion.now _ hconnection
  have hrecord := snd_connectionOrInsert engine.store occasion.now ⟨source, id, .receiver⟩
  rw [connectionOrNew, hconnection, Option.getD_some] at hrecord
  unfold Engine.receive
  simp only [hd, hkind, hid]
  unfold Engine.rejectSyn
  simp only [hrecord, hsame, if_pos hopen]

lemma confirmsCopies_of_held {engine : Engine} (hw : WellFiled engine.store) {source : Address}
    {id : UInt32} (hheld : HoldsAccepted engine source id) : ConfirmsCopies engine source id where
  valid occasion _ _ hreads := (receive_of_held occasion hw hreads hheld).1
  damaged occasion _ _ _ _ := receive_damaged hw occasion hheld

/-- Whatever comes in from wherever, and whatever the engine sends, sweeps and is refused: in the
life of a receiver's record its message is delivered once at most, namely in the step in which the
record accepts it. Nothing is delivered without such a record, and as long as it stays, all valid
copies of the first frame are confirmed without a delivery, and damaged ones change nothing. -/
theorem delivered_once_per_record (config : Config) (firstId : UInt32) (steps : List EngineStep)
    (peer : Address) (id : UInt32) :
    (∀ serial, (History.starting config firstId).deliveriesOf ⟨peer, id, .receiver⟩ serial
        steps ≤ 1) ∧
      (∀ before step after, steps = before ++ step :: after →
        DeliversByRecord ⟨peer, id, .receiver⟩ ((History.starting config firstId).run before).engine
          step ((History.starting config firstId).run (before ++ [step])).engine.store) ∧
      ∀ record, ((History.starting config firstId).run steps).engine.store.connection?
          ⟨peer, id, .receiver⟩ = some record →
        record.status = .synAckSent →
          ConfirmsCopies ((History.starting config firstId).run steps).engine peer id := by
  refine ⟨fun serial => ?_, ?_, fun record hrecord hstatus => ?_⟩
  · exact deliveriesOf_le_one (isProper_starting config firstId)
      (receiversAwait_run config firstId []) steps
  · rintro before step after -
    rw [History.run_append]
    exact deliversByRecord_step (isProper_run config firstId before) step
      (receiversAwait_run config firstId before)
  · refine confirmsCopies_of_held (isProper_run config firstId steps).filed ⟨record, hrecord, ?_⟩
    rw [hstatus]
    decide

/-- A copy with a later timestamp comes in twice: the record of the message confirms it, and once that
record is closed another one accepts it. Each of the two stands for one delivery. -/
theorem delivered_once_per_record_reopened :
    let near : Address := .loopback 9001
    let config : Config := { selfAddress := .loopback 9002 }
    let receive (datagram : Bytes) : EngineStep :=
      .work ⟨0, fun _ _ => true⟩ (.receive near datagram)
    let first : EngineStep := receive [1, 1, 0, 0, 0, 0, 0, 0, 0, 0, 0]
    let copy : EngineStep := receive [1, 1, 0, 0, 0, 1, 0, 0, 0, 1, 0]
    let closing : EngineStep := receive (encodeControl .synAckSuccess 1)
    let steps : List EngineStep := [first, copy, closing, copy]
    ((History.starting config 1).deliveriesOf ⟨near, 1, .receiver⟩ 1 steps = 1 ∧
        (History.starting config 1).deliveriesOf ⟨near, 1, .receiver⟩ 2 steps = 1) ∧
      (∀ serial, (History.starting config 1).deliveriesOf ⟨near, 1, .receiver⟩ serial
        steps ≤ 1) ∧
      DeliversByRecord ⟨near, 1, .receiver⟩ ((History.starting config 1).run [first]).engine copy
        ((History.starting config 1).run [first, copy]).engine.store ∧
      (((History.starting config 1).run steps).engine.store.connection?
        ⟨near, 1, .receiver⟩).map ConnectionRecord.status = some .synAckSent ∧
      ConfirmsCopies ((History.starting config 1).run steps).engine near 1 := by
  intro near config receive first copy closing steps
  obtain ⟨honce, hrecords, hcopies⟩ := delivered_once_per_record config 1 steps near 1
  have hopen : (((History.starting config 1).run steps).engine.store.connection?
      ⟨near, 1, .receiver⟩).map ConnectionRecord.status = some .synAckSent := by decide +kernel
  obtain ⟨record, hrecord, hstatus⟩ := Option.map_eq_some_iff.1 hopen
  exact ⟨⟨by decide +kernel, by decide +kernel⟩, honce, hrecords [first] copy [closing, copy] rfl,
    hopen, hcopies record hrecord hstatus⟩

end ReliableDatagrams.Proofs
