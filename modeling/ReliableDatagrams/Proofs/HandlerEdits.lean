import ReliableDatagrams.Proofs.EngineRuns
import ReliableDatagrams.Proofs.Redelivery
import ReliableDatagrams.Proofs.StoreEdits

/-!
# The edits of the handlers

What each handler does to its store, as a sequence of edits by a rule: which records it may open, and
which statuses it may change. A datagram opens a receiver's record and lets one accept a message, it
lets a sender see a success, and it closes records. A call of `send` opens the record of its own
message. Sweeps open nothing and change no status.
-/

namespace ReliableDatagrams.Proofs

def RecordRule.still : RecordRule where
  opens _ := False
  changes _ _ _ := False

def RecordRule.any : RecordRule where
  opens _ := True
  changes _ _ _ := True

/-- How a datagram changes the status of a record. -/
inductive ReceiveChange (engine : Engine) (source : Address) (datagram : Bytes) :
    ConnectionKey → HandshakeStatus → HandshakeStatus → Prop where
  | accepted {id : UInt32} {status : HandshakeStatus}
      (anew : AcceptsAnew engine source datagram id) (waiting : ¬ .synAckSent ≤ status) :
      ReceiveChange engine source datagram ⟨source, id, .receiver⟩ status .synAckSent
  | acknowledged {id : UInt32} {frame : Frame} {status : HandshakeStatus}
      (reads : Reads datagram .synSuccess id frame)
      (waited : status = .synSent ∨ status = .ackSent) :
      ReceiveChange engine source datagram ⟨source, id, .sender⟩ status .ackSent
  | closed (key : ConnectionKey) (status : HandshakeStatus) :
      ReceiveChange engine source datagram key status .closed

def receiveRule (engine : Engine) (source : Address) (datagram : Bytes) : RecordRule where
  opens key := key.peer = source ∧ key.role = .receiver
  changes := ReceiveChange engine source datagram

/-- What a call of `send` may do to the records of handshakes. -/
def sendRule (engine : Engine) (target : Address) : RecordRule where
  opens key := key = ⟨target, engine.messageIds.draw.1, .sender⟩
  changes key _ after := key = ⟨target, engine.messageIds.draw.1, .sender⟩ ∧ after = .synSent

/-- What a step of an engine may do to the records of handshakes. -/
def EngineStep.rule (engine : Engine) : EngineStep → RecordRule
  | .send _ target _ _ => sendRule engine target
  | .work _ task => match task with
    | .receive source datagram => receiveRule engine source datagram
    | .timeoutSweep | .deleteSweep => .still

section Rules

variable {engine : Engine} {step : EngineStep} {key : ConnectionKey}

lemma EngineStep.rule_opens (h : (step.rule engine).opens key) :
    (∃ occasion target fields delivery, step = .send occasion target fields delivery ∧
        key = ⟨target, engine.messageIds.draw.1, .sender⟩) ∨
      ∃ occasion source datagram, step = .work occasion (.receive source datagram) ∧
        key.peer = source ∧ key.role = .receiver := by
  cases step with
  | send occasion target fields delivery => exact Or.inl ⟨_, _, _, _, rfl, h⟩
  | work occasion task =>
    cases task with
    | receive source datagram => exact Or.inr ⟨_, _, _, rfl, h⟩
    | timeoutSweep => exact h.elim
    | deleteSweep => exact h.elim

lemma EngineStep.rule_changes {before after : HandshakeStatus}
    (h : (step.rule engine).changes key before after) :
    (∃ occasion target fields delivery, step = .send occasion target fields delivery ∧
        key = ⟨target, engine.messageIds.draw.1, .sender⟩ ∧ after = .synSent) ∨
      ∃ occasion source datagram, step = .work occasion (.receive source datagram) ∧
        ReceiveChange engine source datagram key before after := by
  cases step with
  | send occasion target fields delivery => exact Or.inl ⟨_, _, _, _, rfl, h⟩
  | work occasion task =>
    cases task with
    | receive source datagram => exact Or.inr ⟨_, _, _, rfl, h⟩
    | timeoutSweep => exact h.elim
    | deleteSweep => exact h.elim

end Rules

/-- A record that may be filed in the place of the one under its key. -/
def IsRevision (rule : RecordRule) (store : Store) (connection : ConnectionRecord) : Prop :=
  ∃ old, store.connections[connection.key]? = some old ∧ connection.serial = old.serial ∧
    connection.isBeingDeleted = old.isBeingDeleted ∧
      (connection.status = old.status ∨
        rule.changes connection.key old.status connection.status)

/-- A change of a peer's record that leaves its identity alone. -/
structure KeepsIdentity {α : Type} (change : PeerRecord → PeerRecord × α) : Prop where
  address : ∀ peer, (change peer).1.address = peer.address
  serial : ∀ peer, (change peer).1.serial = peer.serial
  kept : ∀ peer, (change peer).1.isBeingDeleted = peer.isBeingDeleted

section Operations

variable {rule : RecordRule} {store : Store} {engine : Engine} {connection : ConnectionRecord}

lemma IsRevision.congr {later : Store} (h : IsRevision rule store connection)
    (hsame : later.connections = store.connections) : IsRevision rule later connection := by
  unfold IsRevision
  rwa [hsame]

lemma IsRevision.again {engine : Engine} (connection : ConnectionRecord) :
    IsRevision rule (engine.putConnection connection).store connection :=
  ⟨connection, Std.ExtTreeMap.getElem?_insert_self, rfl, rfl, Or.inl rfl⟩

lemma Edits.withPeer (hp : IsProper store) (h : Edits rule store engine.store) (now : Nat)
    (address : Address) {α : Type} {change : PeerRecord → PeerRecord × α}
    (hchange : KeepsIdentity change) :
    Edits rule store (engine.withPeer now address change).1.store := by
  have hfiled := (h.isProper hp).filed.peer
  unfold Engine.withPeer Store.peer
  dsimp only
  cases hpeer : engine.store.peers[address]? with
  | some peer =>
    refine h.tail (.peerChanged ?_ (hchange.serial peer) (hchange.kept peer))
    rw [hchange.address, (hfiled address peer hpeer).1]
    exact hpeer
  | none =>
    refine (h.tail (.peerOpened now address hpeer)).tail
      (.peerChanged ?_ (hchange.serial _) (hchange.kept _))
    rw [hchange.address]
    exact Std.ExtTreeMap.getElem?_insert_self

lemma Edits.touchPeer (hp : IsProper store) (h : Edits rule store engine.store) (now : Nat)
    (address : Address) : Edits rule store (engine.touchPeer now address).store :=
  h.withPeer hp now address ⟨fun _ => rfl, fun _ => rfl, fun _ => rfl⟩

lemma Edits.drawTimestamp (hp : IsProper store) (h : Edits rule store engine.store) (now : Nat)
    (address : Address) : Edits rule store (engine.drawTimestamp now address).1.store :=
  h.withPeer hp now address ⟨fun _ => rfl, fun _ => rfl, fun _ => rfl⟩

lemma Edits.acceptTimestamp (hp : IsProper store) (h : Edits rule store engine.store) (now : Nat)
    (source : Address) (timestamp : Option UInt16) :
    Edits rule store (engine.acceptTimestamp now source timestamp).1.store := by
  cases timestamp with
  | none => exact h
  | some timestamp =>
    refine h.withPeer hp now source ⟨fun peer => ?_, fun peer => ?_, fun peer => ?_⟩ <;>
      (unfold PeerRecord.accept; split <;> rfl)

lemma Edits.resetTimestamps (hp : IsProper store) (h : Edits rule store engine.store) (now : Nat)
    (source : Address) (timestamp : Option UInt16) :
    Edits rule store (engine.resetTimestamps now source timestamp).store :=
  h.withPeer hp now source ⟨fun _ => rfl, fun _ => rfl, fun _ => rfl⟩

lemma Edits.connectionOrInsert (h : Edits rule store engine.store) (now : Nat)
    {key : ConnectionKey} (hopens : rule.opens key) :
    Edits rule store (engine.store.connectionOrInsert now key).1 := by
  unfold Store.connectionOrInsert
  split
  · exact h
  · rename_i hnone
    exact h.tail (.opened now hnone hopens)

lemma Edits.putConnection (h : Edits rule store engine.store)
    (hrevision : IsRevision rule engine.store connection) :
    Edits rule store (engine.putConnection connection).store := by
  obtain ⟨old, hthere, hserial, hkept, hallowed⟩ := hrevision
  exact h.tail (.changed hthere hserial hkept hallowed)

lemma Edits.retire (h : Edits rule store engine.store) (now : Nat)
    (connection : ConnectionRecord) : Edits rule store (engine.retire now connection).store :=
  h.tail (.removed now (Record.connection connection).handle)

lemma Edits.transmit (h : Edits rule store engine.store) (occasion : Occasion)
    (hrevision : IsRevision rule engine.store connection) (frame : Bytes) :
    Edits rule store (engine.transmit occasion connection frame).1.store := by
  have hput := @Edits.putConnection rule store engine
    { connection with lastSent := some frame } h hrevision
  unfold Engine.transmit
  dsimp only
  split
  · exact hput
  · exact hput.retire _ _

lemma Edits.resendSyn (hp : IsProper store) (h : Edits rule store engine.store)
    (occasion : Occasion) (hrevision : IsRevision rule engine.store connection) (syn : Bytes) :
    Edits rule store (engine.resendSyn occasion connection syn).1.store := by
  have hstamped : Edits rule store
      (engine.restamp occasion.now connection.key.peer syn).1.store := by
    unfold Engine.restamp
    split
    · exact h
    · exact h.drawTimestamp hp _ _
  obtain ⟨hsame, -⟩ := @restamp_eq_none_or engine occasion.now connection.key.peer syn
  unfold Engine.resendSyn
  split
  · rename_i stamped hr
    rw [hr] at hstamped
    exact hstamped.retire _ _
  · rename_i stamped frame hr
    rw [hr] at hstamped hsame
    split
    · exact hstamped.transmit occasion (hrevision.congr hsame) frame
    · exact hstamped

/-- The record that is found or opened for a handshake may be filed again, with another status if the
rule says so. -/
lemma isRevision_connectionOrInsert {now : Nat} {key : ConnectionKey} (hkey : connection.key = key)
    (hserial : connection.serial = (connectionOrNew engine.store now key).serial)
    (hkept : connection.isBeingDeleted = (connectionOrNew engine.store now key).isBeingDeleted)
    (hallowed : connection.status = (connectionOrNew engine.store now key).status ∨
      rule.changes key (connectionOrNew engine.store now key).status connection.status) :
    IsRevision rule (engine.store.connectionOrInsert now key).1 connection := by
  subst hkey
  exact ⟨_, getElem?_connectionOrInsert _ _ _, hserial, hkept, hallowed⟩

lemma Edits.rejectSyn (hp : IsProper store) (h : Edits rule store engine.store)
    (occasion : Occasion) {source : Address} {id : UInt32}
    (hopens : rule.opens ⟨source, id, .receiver⟩) :
    Edits rule store (engine.rejectSyn occasion source id).1.store := by
  have hw := (h.isProper hp).filed
  have hopened := h.connectionOrInsert occasion.now hopens
  have hkey := connectionOrNew_key hw occasion.now ⟨source, id, .receiver⟩
  unfold Engine.rejectSyn
  dsimp only
  rw [snd_connectionOrInsert]
  split
  · exact hopened
  · have hanswered := @Edits.transmit rule store { engine with store :=
        (engine.store.connectionOrInsert occasion.now ⟨source, id, .receiver⟩).1 }
      ((connectionOrNew engine.store occasion.now
        ⟨source, id, .receiver⟩).registerFailure.1.touch occasion.now) hopened occasion
      (isRevision_connectionOrInsert hkey rfl rfl (Or.inl rfl))
    split
    · exact hanswered _
    · exact (hanswered _).retire _ _

lemma Edits.receiveSyn (hp : IsProper store) (h : Edits rule store engine.store)
    (occasion : Occasion) {source : Address} {id : UInt32} {timestamp : Option UInt16}
    (hopens : rule.opens ⟨source, id, .receiver⟩)
    (haccepts : isFreshFrom engine source timestamp = true → ∀ status,
      status = (connectionOrNew engine.store occasion.now ⟨source, id, .receiver⟩).status →
      ¬ .synAckSent ≤ status → rule.changes ⟨source, id, .receiver⟩ status .synAckSent)
    (fields : FieldMap) :
    Edits rule store (engine.receiveSyn occasion source id timestamp fields).1.store := by
  have hw := (h.isProper hp).filed
  have hopened := h.connectionOrInsert occasion.now hopens
  have hkey := connectionOrNew_key hw occasion.now ⟨source, id, .receiver⟩
  have htracked := @Edits.acceptTimestamp rule store { engine with store :=
    (engine.store.connectionOrInsert occasion.now ⟨source, id, .receiver⟩).1 } hp hopened
    occasion.now source timestamp
  obtain ⟨hsame, hfresh⟩ := @acceptTimestamp_opened engine occasion source id timestamp
  unfold Engine.receiveSyn
  dsimp only
  rw [snd_connectionOrInsert]
  split
  · refine Edits.transmit ?_ occasion ?_ _
    · exact hopened
    · exact isRevision_connectionOrInsert hkey rfl rfl (Or.inl rfl)
  · rename_i hwaiting
    split
    · rename_i tracked hr
      rw [hr] at htracked
      exact htracked.rejectSyn hp occasion hopens
    · rename_i tracked hr
      rw [hr] at htracked hsame hfresh
      refine Edits.transmit (htracked.resetTimestamps hp _ _ _) occasion ?_ _
      refine IsRevision.congr (isRevision_connectionOrInsert hkey rfl rfl
        (Or.inr (haccepts hfresh.symm _ rfl hwaiting))) ?_
      exact (connections_withPeer _ _ _ _).trans hsame

lemma resetOrExpire_identity (connection : ConnectionRecord) (now : Nat) :
    (connection.resetOrExpire now).1.key = connection.key ∧
      (connection.resetOrExpire now).1.serial = connection.serial ∧
      (connection.resetOrExpire now).1.isBeingDeleted = connection.isBeingDeleted ∧
      (connection.resetOrExpire now).1.status = connection.status := by
  unfold ConnectionRecord.resetOrExpire
  split
  · dsimp only
    split <;> exact ⟨rfl, rfl, rfl, rfl⟩
  · exact ⟨rfl, rfl, rfl, rfl⟩

lemma isRevision_of_connection? (hw : WellFiled engine.store) {key : ConnectionKey}
    {old : ConnectionRecord} (hold : engine.store.connection? key = some old)
    (hkey : connection.key = old.key) (hserial : connection.serial = old.serial)
    (hkept : connection.isBeingDeleted = old.isBeingDeleted)
    (hallowed : connection.status = old.status ∨
      rule.changes key old.status connection.status) :
    IsRevision rule engine.store connection := by
  rw [connection?_eq hw] at hold
  have hown := (hw.connection key old hold).1
  rw [← hown, ← hkey] at hold hallowed
  exact ⟨old, hold, hserial, hkept, hallowed⟩

end Operations

section Handlers

variable {rule : RecordRule} {store : Store} {engine : Engine} (occasion : Occasion)
variable {source : Address} {id : UInt32}

lemma Edits.receiveSynSuccess (hp : IsProper store) (h : Edits rule store engine.store)
    (hsuccess : ∀ status, status = .synSent ∨ status = .ackSent →
      rule.changes ⟨source, id, .sender⟩ status .ackSent) :
    Edits rule store (engine.receiveSynSuccess occasion source id).1.store := by
  unfold Engine.receiveSynSuccess
  split
  · exact h
  · rename_i connection hconnection
    split
    · rename_i hwaited
      refine Edits.transmit h occasion ?_ _
      exact isRevision_of_connection? (h.isProper hp).filed hconnection rfl rfl rfl
        (Or.inr (hsuccess _ hwaited))
    · exact h

lemma Edits.receiveSynFailure (hp : IsProper store) (h : Edits rule store engine.store) :
    Edits rule store (engine.receiveSynFailure occasion source id).1.store := by
  unfold Engine.receiveSynFailure
  split
  · exact h
  · rename_i connection hconnection
    have hw := (h.isProper hp).filed
    split
    · dsimp only
      split
      · refine Edits.resendSyn hp (h.putConnection ?_) occasion (.again _) _
        exact isRevision_of_connection? hw hconnection rfl rfl rfl (Or.inl rfl)
      · refine Edits.retire (h.putConnection ?_) _ _
        exact isRevision_of_connection? hw hconnection rfl rfl rfl (Or.inl rfl)
    · exact h

lemma Edits.receiveSynAckSuccess (hp : IsProper store) (h : Edits rule store engine.store)
    (hclosed : ∀ key status, rule.changes key status .closed) :
    Edits rule store (engine.receiveSynAckSuccess occasion source id).1.store := by
  unfold Engine.receiveSynAckSuccess
  split
  · exact h
  · rename_i connection hconnection
    split
    · refine Edits.retire (h.putConnection ?_) _ _
      exact isRevision_of_connection? (h.isProper hp).filed hconnection rfl rfl rfl
        (Or.inr (hclosed _ _))
    · exact h

lemma Edits.receiveAck (hp : IsProper store) (h : Edits rule store engine.store)
    (hclosed : ∀ key status, rule.changes key status .closed) :
    Edits rule store (engine.receiveAck occasion source id).store := by
  unfold Engine.receiveAck
  split
  · exact h
  · rename_i connection hconnection
    split
    · refine Edits.retire (h.putConnection ?_) _ _
      exact isRevision_of_connection? (h.isProper hp).filed hconnection rfl rfl rfl
        (Or.inr (hclosed _ _))
    · exact h

lemma Edits.sendFrame (hp : IsProper store) (h : Edits rule store engine.store)
    {target : Address} {drawn : Option UInt32} (hopens : ∀ id, drawn = some id →
      rule.opens ⟨target, id, .sender⟩ ∧
        ∀ status, rule.changes ⟨target, id, .sender⟩ status .synSent) (frame : Bytes) :
    Edits rule store (engine.sendFrame occasion target drawn frame).1.store := by
  cases drawn with
  | none => exact h
  | some id =>
    obtain ⟨hallowed, hsent⟩ := hopens id rfl
    have hkey := connectionOrNew_key (h.isProper hp).filed occasion.now ⟨target, id, .sender⟩
    unfold Engine.sendFrame
    dsimp only
    rw [snd_connectionOrInsert]
    refine Edits.transmit ?_ occasion ?_ _
    · exact h.connectionOrInsert _ hallowed
    · exact isRevision_connectionOrInsert hkey rfl rfl (Or.inr (hsent _))

lemma Edits.visitAll {κ : Type} {visit : Engine → κ → Engine × List Effect}
    (hvisit : ∀ engine key, Edits rule store engine.store →
      Edits rule store (visit engine key).1.store)
    (keys : List κ) (engine : Engine) (h : Edits rule store engine.store) :
    Edits rule store (engine.visitAll visit keys).1.store := by
  induction keys generalizing engine with
  | nil => exact h
  | cons key rest ih => exact ih _ (hvisit engine key h)

lemma Edits.sweepPeer (hp : IsProper store) (h : Edits rule store engine.store)
    (address : Address) : Edits rule store (engine.sweepPeer occasion address).1.store := by
  unfold Engine.sweepPeer
  split
  · exact h
  · rename_i peer hpeer
    split
    · exact h
    · have hthere := (Option.filter_eq_some_iff.1 hpeer).1
      have hown := ((h.isProper hp).filed.peer address peer hthere).1
      have hreset : Edits rule store
          (engine.store.putPeer (peer.resetOrExpire occasion.now).1) := by
        rw [← hown] at hthere
        exact h.tail (@Edit.peerChanged rule engine.store peer _ hthere rfl rfl)
      dsimp only
      split
      · exact hreset.tail (.removed _ _)
      · exact hreset

lemma Edits.sweepConnection (hp : IsProper store) (h : Edits rule store engine.store)
    (key : ConnectionKey) : Edits rule store (engine.sweepConnection occasion key).1.store := by
  unfold Engine.sweepConnection
  split
  · exact h
  · rename_i connection hconnection
    have hw := (h.isProper hp).filed
    have hreset := resetOrExpire_identity connection occasion.now
    split
    · exact h
    · dsimp only
      have hput := h.putConnection (isRevision_of_connection? hw hconnection hreset.1 hreset.2.1
        hreset.2.2.1 (Or.inl hreset.2.2.2))
      split
      · exact hput.resendSyn hp occasion (.again _) _
      · exact hput.retire _ _

end Handlers

section Engines

variable {engine : Engine} (occasion : Occasion)

lemma edits_receiveSyn (hp : IsProper engine.store) {source : Address} {datagram : Bytes}
    {id : UInt32} {frame : Frame} (hr : Reads datagram .syn id frame) :
    Edits (receiveRule engine source datagram) engine.store
      ((engine.touchPeer occasion.now source).receiveSyn occasion source id frame.timestamp
        frame.fields).1.store := by
  have hbegun : Edits (receiveRule engine source datagram) engine.store engine.store := .refl
  refine Edits.receiveSyn hp (hbegun.touchPeer hp _ _) occasion ⟨rfl, rfl⟩ ?_ _
  rintro hfresh status rfl hwaiting
  rw [isFreshFrom_touchPeer hp.filed] at hfresh
  refine .accepted ⟨⟨frame, hr, hfresh⟩, ?_⟩ hwaiting
  rintro ⟨connection, hconnection, hopen⟩
  rw [connection?_eq hp.filed] at hconnection
  rw [connectionOrNew, connections_touchPeer, hconnection] at hwaiting
  exact hwaiting hopen

theorem edits_receive (hp : IsProper engine.store) (source : Address) (datagram : Bytes) :
    Edits (receiveRule engine source datagram) engine.store
      (engine.receive occasion source datagram).1.store := by
  have hbegun : Edits (receiveRule engine source datagram) engine.store engine.store := .refl
  unfold Engine.receive
  split
  · rename_i frame hd
    have htouched := hbegun.touchPeer hp occasion.now source
    unfold Engine.receiveFrame
    split
    · exact htouched.acceptTimestamp hp _ _ _
    · rename_i id hkind hid
      exact edits_receiveSyn occasion hp ⟨hd, hkind, hid⟩
    · rename_i id hkind hid
      exact htouched.receiveSynSuccess occasion hp fun _ hwaited =>
        .acknowledged ⟨hd, hkind, hid⟩ hwaited
    · exact htouched.receiveSynFailure occasion hp
    · exact htouched.receiveSynAckSuccess occasion hp .closed
    · exact htouched.receiveAck occasion hp .closed
    · exact htouched
  · split
    · exact hbegun.rejectSyn hp occasion ⟨rfl, rfl⟩
    · exact hbegun
  · exact hbegun

theorem edits_send (hp : IsProper engine.store) (target : Address) (fields : FieldMap)
    (delivery : Delivery) :
    Edits (sendRule engine target) engine.store
      (engine.send occasion target fields delivery).1.store := by
  have hbegun : Edits (sendRule engine target) engine.store engine.store := .refl
  have hdrawn : ∀ isNeeded, Edits (sendRule engine target) engine.store
      ((engine.drawTimestamp occasion.now target).1.drawMessageId isNeeded).1.store := by
    intro isNeeded
    rw [store_drawMessageId]
    exact hbegun.drawTimestamp hp _ _
  unfold Engine.send
  dsimp only
  split
  · exact hdrawn _
  · refine (hdrawn _).sendFrame occasion hp ?_ _
    intro id hid
    have hnext : id = engine.messageIds.draw.1 := by
      unfold Engine.drawMessageId at hid
      split at hid
      · exact (Option.some.inj hid).symm
      · cases hid
    rw [hnext]
    exact ⟨rfl, fun _ => ⟨rfl, rfl⟩⟩

theorem edits_timeoutSweep (hp : IsProper engine.store) :
    Edits .still engine.store (engine.timeoutSweep occasion).1.store := by
  unfold Engine.timeoutSweep
  dsimp only
  refine Edits.visitAll (fun between key h => h.sweepConnection occasion hp key) _ _ ?_
  exact Edits.visitAll (fun between address h => h.sweepPeer occasion hp address) _ _ .refl

theorem edits_step {history : History} (hp : IsProper history.engine.store) (step : EngineStep) :
    Edits (step.rule history.engine) history.engine.store (history.step step).engine.store := by
  cases step with
  | send occasion target fields delivery => exact edits_send occasion hp target fields delivery
  | work occasion task =>
    cases task with
    | receive source datagram => exact edits_receive occasion hp source datagram
    | timeoutSweep => exact edits_timeoutSweep occasion hp
    | deleteSweep =>
      have hbegun : Edits .still history.engine.store history.engine.store := .refl
      exact hbegun.tail (.freed _ _ _)

theorem isProper_run (config : Config) (firstId : UInt32) (steps : List EngineStep) :
    IsProper ((History.starting config firstId).run steps).engine.store := by
  induction steps using List.reverseRecOn with
  | nil => exact isProper_starting config firstId
  | append_singleton steps step ih =>
    rw [History.run_append]
    exact (edits_step ih step).isProper ih

end Engines

end ReliableDatagrams.Proofs
