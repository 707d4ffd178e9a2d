import ReliableDatagrams.Proofs.HandlerEdits
import ReliableDatagrams.Proofs.Retransmission

/-!
# The automaton of a handshake

Between steps a sender waits for the first answer or has seen it, and a receiver waits for the first
frame or has accepted it; what is closed is gone. A status never goes back. A sender goes on with a
success from its peer, a receiver with a valid and fresh first frame. As sender and receiver of one
id have records of their own, frames for the one leave the other alone, so that handshakes with the
same id in opposite directions do not meet.
-/

namespace ReliableDatagrams.Proofs

/-- A status in which a handshake can be found between steps. -/
def IsAwaiting : Role → HandshakeStatus → Prop
  | .sender, status => status = .synSent ∨ status = .ackSent
  | .receiver, status => status = .initial ∨ status = .synAckSent

/-- All receivers wait for a first frame, or have accepted one. -/
def ReceiversAwait : Std.ExtTreeMap ConnectionKey ConnectionRecord → Prop :=
  AllRecords fun record => record.key.role = .receiver → IsAwaiting .receiver record.status

section Receivers

variable {engine after : Engine} {effects : List Effect} {occasion : Occasion}

lemma receiversAwait_sender {record : ConnectionRecord} (hrole : record.key.role = .sender) :
    record.key.role = .receiver → IsAwaiting .receiver record.status := by
  intro hreceiver
  rw [hrole] at hreceiver
  cases hreceiver

lemma RetryMove.receiversAwait {connection : ConnectionRecord}
    (h : ReceiversAwait engine.store.connections)
    (hmove : RetryMove engine occasion connection after effects) :
    ReceiversAwait after.store.connections := by
  cases hmove with
  | givenUp filed =>
    rw [filed]
    exact h.erase _
  | repeated role status buffered written within filed =>
    rw [filed]
    exact h.afterTransmit fun _ => receiversAwait_sender role

lemma IsFiledOrNew.awaits (h : ReceiversAwait engine.store.connections)
    (hf : ConnectionsFiled engine.store.connections) {key : ConnectionKey}
    (hrole : key.role = .receiver) {record : ConnectionRecord}
    (hrecord : IsFiledOrNew engine.store key record) : IsAwaiting .receiver record.status := by
  rcases hrecord with hfiled | ⟨-, serial, now, rfl⟩
  · exact h _ _ hfiled (by rw [(hf _ _ hfiled).1, hrole])
  · exact Or.inl rfl

lemma ReceiveMove.receiversAwait {source : Address} {datagram : Bytes}
    (h : ReceiversAwait engine.store.connections)
    (hf : ConnectionsFiled engine.store.connections)
    (hmove : ReceiveMove engine occasion source datagram after effects) :
    ReceiversAwait after.store.connections := by
  cases hmove with
  | ignored same => rwa [same]
  | plain decoded kind fresh same => rwa [same]
  | rejected invalid record waiting filed =>
    rw [filed]
    split
    · exact h.afterTransmit fun _ _ => record.awaits h hf rfl
    · exact h.erase _
  | confirmed reads record opened filed =>
    have hawaits := h _ _ record (by rw [(hf _ _ record).1])
    rw [filed]
    exact h.afterTransmit fun _ _ => hawaits
  | accepted reads record waiting fresh filed =>
    rw [filed]
    exact h.afterTransmit fun _ _ => Or.inr rfl
  | acknowledged reads record status filed =>
    have hkey := (hf _ _ record).1
    rw [filed]
    exact h.afterTransmit fun _ => receiversAwait_sender (by simp only [hkey])
  | retried reads record retry => exact retry.receiversAwait h
  | closed reads filed =>
    rw [filed]
    exact h.erase _
  | finished reads record status filed =>
    rw [filed]
    exact h.erase _

lemma SweepMove.receiversAwait (h : ReceiversAwait engine.store.connections)
    (hmove : SweepMove engine occasion after effects) :
    ReceiversAwait after.store.connections := by
  cases hmove with
  | kept same => rwa [same]
  | retried record retry => exact retry.receiversAwait h
  | expired filed =>
    rw [filed]
    exact h.erase _

lemma SendMove.receiversAwait {target : Address} {fields : FieldMap}
    {result : Except SendError (Option UInt32)} (h : ReceiversAwait engine.store.connections)
    (hf : ConnectionsFiled engine.store.connections)
    (hmove : SendMove engine occasion target fields after effects result) :
    ReceiversAwait after.store.connections := by
  cases hmove with
  | failed ids same => rwa [same]
  | plain drawn unforced written ids same => rwa [same]
  | first drawn written record ids filed =>
    have hkey := (record.key hf).1
    rw [filed]
    exact h.afterTransmit fun _ => receiversAwait_sender (by simp only [hkey])

lemma EngineMove.receiversAwait (h : ReceiversAwait engine.store.connections)
    (hw : WellFiled engine.store) (hmove : EngineMove engine after effects) :
    ReceiversAwait after.store.connections := by
  cases hmove with
  | sent occasion target fields delivery =>
    exact (send_move occasion hw target fields delivery).receiversAwait h hw.connection
  | received occasion source datagram =>
    exact (receive_move occasion hw source datagram).receiversAwait h hw.connection
  | visitedPeer occasion address => exact (sweepPeer_move occasion address).receiversAwait h
  | visitedConnection occasion key => exact (sweepConnection_move occasion hw key).receiversAwait h
  | freed now => exact h

end Receivers

lemma receiversAwait_run (config : Config) (firstId : UInt32) (steps : List EngineStep) :
    ReceiversAwait ((History.starting config firstId).run steps).engine.store.connections :=
  (@History.run_induction _ (fun history => ReceiversAwait history.engine.store.connections)
    (fun hw h hmove => hmove.receiversAwait h hw) (wellFiled_starting config firstId)
    (by intro key record hrecord; simp [History.starting, Engine.starting] at hrecord) steps).2

/-- No handshake is found closed, or in a status of the other side. -/
lemma isAwaiting_run (config : Config) (firstId : UInt32) (steps : List EngineStep)
    {key : ConnectionKey} {record : ConnectionRecord}
    (h : ((History.starting config firstId).run steps).engine.store.connection? key =
      some record) : IsAwaiting key.role record.status := by
  obtain ⟨hw, hsenders⟩ := History.boundsSenders_run config firstId steps
  rw [connection?_eq hw] at h
  have hkey := (hw.connection _ _ h).1
  cases hrole : key.role with
  | sender => exact (hsenders.senders _ _ h (by rw [hkey, hrole])).status
  | receiver => exact receiversAwait_run config firstId steps _ _ h (by rw [hkey, hrole])

section Frames

variable {engine after : Engine} {effects : List Effect} {occasion : Occasion}
variable {source : Address} {datagram : Bytes}

lemma getElem?_erase_of_role {connections : Std.ExtTreeMap ConnectionKey ConnectionRecord}
    {erased key : ConnectionKey} (h : erased.role ≠ key.role) :
    (connections.erase erased)[key]? = connections[key]? := by
  rw [getElem?_erase_eq, if_neg]
  rintro rfl
  exact h rfl

lemma getElem?_afterTransmit_of_role
    {connections : Std.ExtTreeMap ConnectionKey ConnectionRecord} {connection : ConnectionRecord}
    {key : ConnectionKey} (h : connection.key.role ≠ key.role) (frame : Bytes) (accepted : Bool) :
    (afterTransmit connections connection frame accepted)[key]? = connections[key]? := by
  rw [getElem?_afterTransmit, if_neg]
  rintro rfl
  exact h rfl

/-- What is no acknowledgement for a sender leaves all senders alone, even if it is no frame. -/
lemma ReceiveMove.keepsSenders (hf : ConnectionsFiled engine.store.connections)
    (hmove : ReceiveMove engine occasion source datagram after effects)
    (hkind : ∀ frame, Frame.decode datagram = .ok frame →
      frame.kind = .plain ∨ frame.kind = .syn ∨ frame.kind = .synAckSuccess)
    {key : ConnectionKey} (hrole : key.role = .sender) :
    after.store.connections[key]? = engine.store.connections[key]? := by
  have hother : ∀ {kind : FrameKind} {id : UInt32} {frame : Frame}, Reads datagram kind id frame →
      kind = .plain ∨ kind = .syn ∨ kind = .synAckSuccess := by
    intro kind id frame reads
    rw [← reads.kind]
    exact hkind frame reads.decoded
  have hreceiver : Role.receiver ≠ key.role := by
    rw [hrole]
    decide
  cases hmove with
  | ignored same => rw [same]
  | plain decoded kind fresh same => rw [same]
  | rejected invalid record waiting filed =>
    have hkey := (record.key hf).1
    rw [filed]
    split
    · exact getElem?_afterTransmit_of_role (by rw [hkey]; exact hreceiver) _ _
    · exact getElem?_erase_of_role hreceiver
  | confirmed reads record opened filed =>
    have hkey := (hf _ _ record).1
    rw [filed]
    exact getElem?_afterTransmit_of_role (by rw [hkey]; exact hreceiver) _ _
  | accepted reads record waiting fresh filed =>
    have hkey := (record.key hf).1
    rw [filed]
    exact getElem?_afterTransmit_of_role (by rw [hkey]; exact hreceiver) _ _
  | closed reads filed =>
    rw [filed]
    exact getElem?_erase_of_role hreceiver
  | acknowledged reads record status filed => exact absurd (hother reads) (by decide)
  | retried reads record retry => exact absurd (hother reads) (by decide)
  | finished reads record status filed => exact absurd (hother reads) (by decide)

lemma ReceiveMove.keepsReceivers (hf : ConnectionsFiled engine.store.connections)
    (hmove : ReceiveMove engine occasion source datagram after effects) {frame : Frame}
    (hd : Frame.decode datagram = .ok frame)
    (hkind : frame.kind = .synSuccess ∨ frame.kind = .synFailure ∨ frame.kind = .ack)
    {key : ConnectionKey} (hrole : key.role = .receiver) :
    after.store.connections[key]? = engine.store.connections[key]? := by
  have hother : ∀ {kind : FrameKind} {id : UInt32} {other : Frame},
      Reads datagram kind id other → kind = .synSuccess ∨ kind = .synFailure ∨ kind = .ack := by
    intro kind id other reads
    cases hd.symm.trans reads.decoded
    rwa [reads.kind] at hkind
  have hsender : Role.sender ≠ key.role := by
    rw [hrole]
    decide
  cases hmove with
  | ignored same => rw [same]
  | plain decoded kind fresh same => rw [same]
  | rejected invalid record waiting filed =>
    rcases invalid with ⟨header, expected, actual, herror, -⟩ | ⟨syn, reads, -⟩
    · cases hd.symm.trans herror
    · exact absurd (hother reads) (by decide)
  | confirmed reads record opened filed => exact absurd (hother reads) (by decide)
  | accepted reads record waiting fresh filed => exact absurd (hother reads) (by decide)
  | closed reads filed => exact absurd (hother reads) (by decide)
  | acknowledged reads record status filed =>
    have hkey := (hf _ _ record).1
    rw [filed]
    exact getElem?_afterTransmit_of_role (by rw [hkey]; exact hsender) _ _
  | retried reads record retry =>
    have hkey := (hf _ _ record).1
    cases retry with
    | repeated role status buffered written bound filed =>
      rw [filed]
      exact getElem?_afterTransmit_of_role (by rw [hkey]; exact hsender) _ _
    | givenUp filed =>
      rw [filed]
      exact getElem?_erase_of_role (by rw [hkey]; exact hsender)
  | finished reads record status filed =>
    rw [filed]
    exact getElem?_erase_of_role hsender

end Frames

/-- What a step of an engine may do to its handshakes. -/
structure FollowsAutomaton (engine : Engine) (step : EngineStep) (after : Store) : Prop where
  monotone : ∀ key record status, engine.store.connection? key = some record →
    recordStatus? after key record.serial = some status → record.status ≤ status
  acknowledged : ∀ peer id serial,
    recordStatus? engine.store ⟨peer, id, .sender⟩ serial = some .synSent →
    recordStatus? after ⟨peer, id, .sender⟩ serial = some .ackSent →
      ∃ occasion datagram frame, step = .work occasion (.receive peer datagram) ∧
        Reads datagram .synSuccess id frame
  accepted : ∀ peer id serial,
    recordStatus? engine.store ⟨peer, id, .receiver⟩ serial = none ∨
      recordStatus? engine.store ⟨peer, id, .receiver⟩ serial = some .initial →
    recordStatus? after ⟨peer, id, .receiver⟩ serial = some .synAckSent →
      ∃ occasion datagram frame, step = .work occasion (.receive peer datagram) ∧
        Reads datagram .syn id frame ∧ isFreshFrom engine peer frame.timestamp = true
  created : ∀ peer id serial status,
    recordStatus? engine.store ⟨peer, id, .sender⟩ serial = none →
    recordStatus? after ⟨peer, id, .sender⟩ serial = some status →
      ∃ occasion fields delivery, step = .send occasion peer fields delivery
  senders : ∀ occasion source datagram, step = .work occasion (.receive source datagram) →
    (∀ frame, Frame.decode datagram = .ok frame →
      frame.kind = .plain ∨ frame.kind = .syn ∨ frame.kind = .synAckSuccess) →
    ∀ peer id, after.connection? ⟨peer, id, .sender⟩ =
      engine.store.connection? ⟨peer, id, .sender⟩
  receivers : ∀ occasion source datagram frame,
    step = .work occasion (.receive source datagram) → Frame.decode datagram = .ok frame →
    frame.kind = .synSuccess ∨ frame.kind = .synFailure ∨ frame.kind = .ack →
    ∀ peer id, after.connection? ⟨peer, id, .receiver⟩ =
      engine.store.connection? ⟨peer, id, .receiver⟩

section Steps

variable {history : History} (hp : IsProper history.engine.store) (step : EngineStep)
variable {peer : Address} {id : UInt32} {serial : Nat} {status : HandshakeStatus}

lemma ReceiveChange.le {engine : Engine} {source : Address} {datagram : Bytes}
    {key : ConnectionKey} {before after : HandshakeStatus}
    (h : ReceiveChange engine source datagram key before after) : before ≤ after := by
  cases h with
  | accepted anew waiting => exact Nat.le_of_lt (Nat.not_le.1 waiting)
  | acknowledged reads waited => rcases waited with rfl | rfl <;> decide
  | closed key status => cases before <;> decide

include hp

/-- A status never goes back, unless a call draws the id of a message that is still on its way. -/
lemma status_le_step {key : ConnectionKey} {record : ConnectionRecord}
    (hunsent : ∀ occasion target fields delivery, step = .send occasion target fields delivery →
      history.engine.store.connections[
        (⟨target, history.engine.messageIds.draw.1, .sender⟩ : ConnectionKey)]? = none)
    (hthere : history.engine.store.connections[key]? = some record)
    (hafter : recordStatus? (history.step step).engine.store key record.serial = some status) :
    record.status ≤ status := by
  refine (edits_step hp step).status hp (Q := fun found => ∀ later, found = some later →
    record.status ≤ later) ?_ ?_ ?_ ?_ status hafter
  · intro _ hnew
    exact absurd (hp.serials.used _ _ (filedSerial?_of_filed hthere)) (Nat.not_lt.2 hnew)
  · rintro before after hchange hearlier later ⟨⟩
    have hreached := hearlier before rfl
    rcases EngineStep.rule_changes hchange with ⟨_, _, _, _, hsend, rfl, -⟩ | ⟨_, _, _, -, hchange⟩
    · rw [hunsent _ _ _ _ hsend] at hthere
      cases hthere
    · exact Nat.le_trans hreached hchange.le
  · exact nofun
  · rw [recordStatus?_of_filed hp.filed hthere]
    rintro later ⟨⟩
    exact Nat.le_refl _

lemma acknowledged_step
    (hbefore : recordStatus? history.engine.store ⟨peer, id, .sender⟩ serial = some .synSent)
    (hafter : recordStatus? (history.step step).engine.store ⟨peer, id, .sender⟩ serial =
      some .ackSent) :
    ∃ occasion datagram frame, step = .work occasion (.receive peer datagram) ∧
      Reads datagram .synSuccess id frame := by
  obtain ⟨earlier, hchange⟩ := (edits_step hp step).exists_change hp (by rw [hbefore]; decide)
    hafter (by decide)
  rcases EngineStep.rule_changes hchange with ⟨_, _, _, _, -, -, hother⟩ |
    ⟨occasion, source, datagram, rfl, hchange⟩
  · cases hother
  · cases hchange with
    | acknowledged reads waited => exact ⟨_, _, _, rfl, reads⟩

lemma accepted_step
    (hbefore : recordStatus? history.engine.store ⟨peer, id, .receiver⟩ serial = none ∨
      recordStatus? history.engine.store ⟨peer, id, .receiver⟩ serial = some .initial)
    (hafter : recordStatus? (history.step step).engine.store ⟨peer, id, .receiver⟩ serial =
      some .synAckSent) :
    ∃ occasion datagram, step = .work occasion (.receive peer datagram) ∧
      AcceptsAnew history.engine peer datagram id := by
  have hearlier : recordStatus? history.engine.store ⟨peer, id, .receiver⟩ serial ≠
      some .synAckSent := by
    rcases hbefore with hnone | hwaits
    · rw [hnone]
      decide
    · rw [hwaits]
      decide
  obtain ⟨earlier, hchange⟩ := (edits_step hp step).exists_change hp hearlier hafter (by decide)
  rcases EngineStep.rule_changes hchange with ⟨_, _, _, _, -, hother, -⟩ |
    ⟨occasion, source, datagram, rfl, hchange⟩
  · cases hother
  · cases hchange with
    | accepted anew waiting => exact ⟨_, _, rfl, anew⟩

lemma created_step
    (hbefore : recordStatus? history.engine.store ⟨peer, id, .sender⟩ serial = none)
    (hafter : recordStatus? (history.step step).engine.store ⟨peer, id, .sender⟩ serial =
      some status) :
    ∃ occasion fields delivery, step = .send occasion peer fields delivery := by
  obtain ⟨hopens, -⟩ := (edits_step hp step).opens_of_new hp hbefore hafter
  rcases EngineStep.rule_opens hopens with ⟨occasion, target, fields, delivery, rfl, hkey⟩ |
    ⟨_, _, _, -, -, hother⟩
  · cases hkey
    exact ⟨_, _, _, rfl⟩
  · cases hother

lemma followsAutomaton_step
    (hunsent : ∀ occasion target fields delivery, step = .send occasion target fields delivery →
      history.engine.store.connections[
        (⟨target, history.engine.messageIds.draw.1, .sender⟩ : ConnectionKey)]? = none) :
    FollowsAutomaton history.engine step (history.step step).engine.store where
  monotone key record status hthere hafter := by
    rw [connection?_eq hp.filed] at hthere
    exact status_le_step hp step hunsent hthere hafter
  acknowledged peer id serial hbefore hafter := acknowledged_step hp step hbefore hafter
  accepted peer id serial hbefore hafter := by
    obtain ⟨occasion, datagram, hstep, ⟨frame, reads, fresh⟩, -⟩ :=
      accepted_step hp step hbefore hafter
    exact ⟨occasion, datagram, frame, hstep, reads, fresh⟩
  created peer id serial status hbefore hafter := created_step hp step hbefore hafter
  senders occasion source datagram hstep hkind peer id := by
    have hlater := ((edits_step hp step).isProper hp).filed
    rw [connection?_eq hlater, connection?_eq hp.filed]
    subst hstep
    exact (receive_move occasion hp.filed source datagram).keepsSenders hp.filed.connection hkind rfl
  receivers occasion source datagram frame hstep hd hkind peer id := by
    have hlater := ((edits_step hp step).isProper hp).filed
    rw [connection?_eq hlater, connection?_eq hp.filed]
    subst hstep
    exact (receive_move occasion hp.filed source datagram).keepsReceivers hp.filed.connection hd
      hkind rfl

end Steps

/-- The id that a call draws next belongs to no message on its way, as long as few ids were drawn. -/
lemma unsent_draw (config : Config) (firstId : UInt32) (steps : List EngineStep)
    (hfew : ((History.starting config firstId).run steps).idsDrawn < idCycle) (target : Address) :
    ((History.starting config firstId).run steps).engine.store.connections[
      (⟨target, ((History.starting config firstId).run steps).engine.messageIds.draw.1,
        .sender⟩ : ConnectionKey)]? = none := by
  obtain ⟨-, -, hcounts⟩ := History.wellFiled_run config firstId steps
  have hunsent := (History.boundsMessage_run config firstId target _ steps hfew).unsent
    (hcounts.draw_notMem hfew)
  exact hunsent.1

/-- Whatever an engine sends and receives, whenever it sweeps and whatever its socket refuses: as long
as no id is drawn twice, all its handshakes are found in a status of their role, and all its steps
follow the automaton. -/
theorem handshakes_follow_automaton (config : Config) (firstId : UInt32)
    (steps : List EngineStep)
    (hfew : ((History.starting config firstId).run steps).idsDrawn < 4294967295) :
    (∀ key record, ((History.starting config firstId).run steps).engine.store.connection? key =
        some record → IsAwaiting key.role record.status) ∧
      ∀ before step after, steps = before ++ step :: after →
        FollowsAutomaton ((History.starting config firstId).run before).engine step
          ((History.starting config firstId).run (before ++ [step])).engine.store := by
  refine ⟨fun key record => isAwaiting_run config firstId steps, ?_⟩
  rintro before step after rfl
  have hp := isProper_run config firstId before
  have hearlier : ((History.starting config firstId).run before).idsDrawn < idCycle := by
    rw [History.run_append] at hfew
    exact Nat.lt_of_le_of_lt (History.idsDrawn_run_le hp.filed _) hfew
  rw [History.run_append]
  exact followsAutomaton_step hp step
    fun _ target _ _ _ => unsent_draw config firstId before hearlier target

/-- Two hosts send each other their first messages, both with the id 1. The success only concerns the
own message. -/
theorem handshakes_follow_automaton_crossing :
    let near : Address := .loopback 9001
    let config : Config := { selfAddress := .loopback 9002 }
    let occasion : Occasion := ⟨0, fun _ _ => true⟩
    let before : List EngineStep := [.send occasion near {} .reliable,
      .work occasion (.receive near [1, 1, 0, 0, 0, 0, 0, 0, 0, 0, 0])]
    let success : EngineStep := .work occasion (.receive near (encodeControl .synSuccess 1))
    let start := History.starting config 1
    let statusOf (role : Role) (steps : List EngineStep) : Option HandshakeStatus :=
      ((start.run steps).engine.store.connection? ⟨near, 1, role⟩).map ConnectionRecord.status
    (start.run (before ++ [success])).idsDrawn < 4294967295 ∧
      (statusOf .sender before = some .synSent ∧ statusOf .receiver before = some .synAckSent) ∧
      (statusOf .sender (before ++ [success]) = some .ackSent ∧
        statusOf .receiver (before ++ [success]) = some .synAckSent) ∧
      (∀ key record, (start.run (before ++ [success])).engine.store.connection? key =
        some record → IsAwaiting key.role record.status) ∧
      FollowsAutomaton (start.run before).engine success
        (start.run (before ++ [success])).engine.store := by
  intro near config occasion before success start statusOf
  have hfew : (start.run (before ++ [success])).idsDrawn < 4294967295 := by decide +kernel
  obtain ⟨hawaiting, hsteps⟩ :=
    handshakes_follow_automaton config 1 (before ++ [success]) hfew
  exact ⟨hfew, by decide +kernel, by decide +kernel, hawaiting, hsteps before success [] rfl⟩

end ReliableDatagrams.Proofs
