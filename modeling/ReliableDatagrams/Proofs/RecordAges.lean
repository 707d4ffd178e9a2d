import ReliableDatagrams.Proofs.HandlerEdits
import ReliableDatagrams.Proofs.Retransmission

/-!
# How old records are

Between two steps of an engine its records have the timeouts of its configuration, none of them was
touched after the last step, and whatever waits to be freed was put there by then, and once only. So
after a time without steps one knows of every record how long it has been idle at least.
-/

namespace ReliableDatagrams.Proofs

def EngineStep.time : EngineStep → Nat
  | .send occasion _ _ _ => occasion.now
  | .work occasion _ => occasion.now

/-- The record of a handshake has a timeout, and was touched at some time or earlier. -/
structure IsAged (timeout time : Nat) (record : ConnectionRecord) : Prop where
  timeout : record.timeout = timeout
  touched : record.lastInteraction ≤ time

section Handshakes

variable {engine after : Engine} {effects : List Effect} {occasion : Occasion} {timeout time : Nat}

lemma IsAged.later {record : ConnectionRecord} (h : IsAged timeout time record) {now : Nat}
    (hnow : time ≤ now) : IsAged timeout now record :=
  ⟨h.timeout, Nat.le_trans h.touched hnow⟩

lemma IsFiledOrNew.hasTimeout {store : Store} {key : ConnectionKey} {record : ConnectionRecord}
    (h : IsFiledOrNew store key record) (hall : AllRecords (IsAged timeout time) store.connections)
    (hconfig : store.config.connectionTimeout = timeout) : record.timeout = timeout := by
  rcases h with hfiled | ⟨-, serial, now, rfl⟩
  · exact (hall _ _ hfiled).timeout
  · exact hconfig

lemma RetryMove.aged {connection : ConnectionRecord} (hnow : time ≤ occasion.now)
    (hall : AllRecords (IsAged timeout time) engine.store.connections)
    (hconnection : IsAged timeout time connection)
    (h : RetryMove engine occasion connection after effects) :
    AllRecords (IsAged timeout occasion.now) after.store.connections := by
  have hlater := hall.mono fun _ hrecord => hrecord.later hnow
  cases h with
  | repeated role status buffered written within filed =>
    rw [filed]
    exact hlater.afterTransmit fun _ => ⟨hconnection.timeout, Nat.le_refl _⟩
  | givenUp filed =>
    rw [filed]
    exact hlater.erase _

lemma ReceiveMove.aged {source : Address} {datagram : Bytes} (hnow : time ≤ occasion.now)
    (hconfig : engine.store.config.connectionTimeout = timeout)
    (hall : AllRecords (IsAged timeout time) engine.store.connections)
    (h : ReceiveMove engine occasion source datagram after effects) :
    AllRecords (IsAged timeout occasion.now) after.store.connections := by
  have hlater := hall.mono fun _ hrecord => hrecord.later hnow
  cases h with
  | ignored same => rwa [same]
  | plain decoded kind fresh same => rwa [same]
  | rejected invalid record waiting filed =>
    rw [filed]
    split
    · exact hlater.afterTransmit fun _ => ⟨record.hasTimeout hall hconfig, Nat.le_refl _⟩
    · exact hlater.erase _
  | confirmed reads record opened filed =>
    rw [filed]
    exact hlater.afterTransmit fun _ => ⟨(hall _ _ record).timeout, Nat.le_refl _⟩
  | accepted reads record waiting fresh filed =>
    rw [filed]
    exact hlater.afterTransmit fun _ => ⟨record.hasTimeout hall hconfig, Nat.le_refl _⟩
  | acknowledged reads record status filed =>
    rw [filed]
    exact hlater.afterTransmit fun _ => ⟨(hall _ _ record).timeout, Nat.le_refl _⟩
  | retried reads record retry => exact retry.aged hnow hall (hall _ _ record)
  | closed reads filed =>
    rw [filed]
    exact hlater.erase _
  | finished reads record status filed =>
    rw [filed]
    exact hlater.erase _

lemma SweepMove.aged (hnow : time ≤ occasion.now)
    (hall : AllRecords (IsAged timeout time) engine.store.connections)
    (h : SweepMove engine occasion after effects) :
    AllRecords (IsAged timeout occasion.now) after.store.connections := by
  have hlater := hall.mono fun _ hrecord => hrecord.later hnow
  cases h with
  | kept same => rwa [same]
  | retried record retry => exact retry.aged hnow hall (hall _ _ record)
  | expired filed =>
    rw [filed]
    exact hlater.erase _

lemma SendMove.aged {target : Address} {fields : FieldMap}
    {result : Except SendError (Option UInt32)} (hnow : time ≤ occasion.now)
    (hconfig : engine.store.config.connectionTimeout = timeout)
    (hall : AllRecords (IsAged timeout time) engine.store.connections)
    (h : SendMove engine occasion target fields after effects result) :
    AllRecords (IsAged timeout occasion.now) after.store.connections := by
  have hlater := hall.mono fun _ hrecord => hrecord.later hnow
  cases h with
  | failed ids same => rwa [same]
  | plain drawn unforced written ids same => rwa [same]
  | first drawn written record ids filed =>
    rw [filed]
    exact hlater.afterTransmit fun _ => ⟨record.hasTimeout hall hconfig, Nat.le_refl _⟩

end Handshakes

section Pending

variable {store later : Store} {now time : Nat}

lemma Removal.since_le (h : Removal now store later) (hnow : time ≤ now)
    (hall : ∀ (serial : Nat) (entry : PendingEntry),
      store.pending.entries[serial]? = some entry → entry.since ≤ time) :
    ∀ (serial : Nat) (entry : PendingEntry),
      later.pending.entries[serial]? = some entry → entry.since ≤ now := by
  have hadd : ∀ (record : Record) (serial : Nat) (entry : PendingEntry),
      (store.pending.add now record).entries[serial]? = some entry → entry.since ≤ now := by
    intro record serial entry hentry
    unfold PendingPool.add at hentry
    dsimp only at hentry
    rw [getElem?_insert_eq] at hentry
    split at hentry
    · cases hold : store.pending.entries[record.serial]? with
      | none =>
        rw [hold] at hentry
        cases hentry
        exact Nat.le_refl _
      | some waiting =>
        rw [hold] at hentry
        cases hentry
        exact Nat.le_trans (hall _ waiting hold) hnow
    · exact Nat.le_trans (hall serial entry hentry) hnow
  cases h with
  | nothing => exact fun serial entry hentry => Nat.le_trans (hall serial entry hentry) hnow
  | peer there => exact hadd _
  | connection there => exact hadd _

lemma Reworks.since_le (h : Reworks now store later) (hnow : time ≤ now)
    (hall : ∀ (serial : Nat) (entry : PendingEntry),
      store.pending.entries[serial]? = some entry → entry.since ≤ time) :
    ∀ (serial : Nat) (entry : PendingEntry),
      later.pending.entries[serial]? = some entry → entry.since ≤ now := by
  induction h with
  | begun => exact fun serial entry hentry => Nat.le_trans (hall serial entry hentry) hnow
  | peer _ _ _ ih => exact ih
  | filed _ _ _ ih => exact ih
  | counted _ _ ih => exact ih
  | removed _ handle ih => exact (markForDeletion_removal _ now handle).since_le (Nat.le_refl _) ih
  | evicted _ peer ih => exact (markForDeletion_removal _ now _).since_le (Nat.le_refl _) ih

/-- Every record in the pool was put there once. -/
def PooledOnce (store : Store) : Prop :=
  ∀ (serial : Nat) (entry : PendingEntry),
    store.pending.entries[serial]? = some entry → entry.count = 1

lemma Removal.pooledOnce (hp : IsProper store) (h : Removal now store later)
    (hall : PooledOnce store) : PooledOnce later := by
  have hadd : ∀ (key : RecordKey) (record : Record),
      filedSerial? store key = some record.serial → ∀ (serial : Nat) (entry : PendingEntry),
        (store.pending.add now record).entries[serial]? = some entry → entry.count = 1 := by
    intro key record hthere serial entry hentry
    rw [entries_add (hp.serials.apart key _ hthere)] at hentry
    split at hentry
    · cases hentry
      rfl
    · exact hall serial entry hentry
  cases h with
  | nothing => exact hall
  | @peer address peer there =>
    refine hadd (.peer address) _ ?_
    simp [filedSerial?, there, Record.serial]
  | @connection key connection there =>
    refine hadd (.connection key) _ ?_
    simp [filedSerial?, there, Record.serial]

lemma Edits.pooledOnce {rule : RecordRule} (hp : IsProper store) (h : Edits rule store later)
    (hall : PooledOnce store) : PooledOnce later := by
  induction h with
  | refl => exact hall
  | @tail between later hbefore hlast ih =>
    cases hlast with
    | removed now handle =>
      exact (markForDeletion_removal between now handle).pooledOnce
        (Edits.isProper hp hbefore) ih
    | freed now gracePeriod isHeld =>
      intro serial entry hentry
      rw [entries_sweepDeleted] at hentry
      exact ih serial entry (Option.filter_eq_some_iff.1 hentry).1
    | _ => exact ih

end Pending

/-- An engine whose last step was at some time. -/
structure AgedEngine (config : Config) (time : Nat) (engine : Engine) : Prop where
  filed : WellFiled engine.store
  configured : engine.config = config
  handshakes : AllRecords (IsAged config.connectionTimeout time) engine.store.connections
  peers : ∀ (address : Address) (record : PeerRecord),
    engine.store.peers[address]? = some record → record.timeout = config.peerTimeout ∧
      record.maxTimeouts = config.peerMaxTimeouts ∧ record.lastInteraction ≤ time ∧
        (record.timeouts = 0 ∨ record.timeouts < record.maxTimeouts)
  pending : ∀ (serial : Nat) (entry : PendingEntry),
    engine.store.pending.entries[serial]? = some entry → entry.since ≤ time

section Engines

variable {engine after : Engine} {effects : List Effect} {config : Config} {time : Nat}

lemma agedEngine_starting (config : Config) (firstId : UInt32) (time : Nat) :
    AgedEngine config time (Engine.starting config firstId) where
  filed := wellFiled_starting config firstId
  configured := rfl
  handshakes key record hrecord := by simp [Engine.starting] at hrecord
  peers address record hrecord := by simp [Engine.starting] at hrecord
  pending serial entry hentry := by simp [Engine.starting] at hentry

lemma AgedEngine.later (h : AgedEngine config time engine) {now : Nat} (hnow : time ≤ now) :
    AgedEngine config now engine where
  filed := h.filed
  configured := h.configured
  handshakes := h.handshakes.mono fun _ hrecord => hrecord.later hnow
  peers address record hrecord :=
    have hpeer := h.peers address record hrecord
    ⟨hpeer.1, hpeer.2.1, Nat.le_trans hpeer.2.2.1 hnow, hpeer.2.2.2⟩
  pending serial entry hentry := Nat.le_trans (h.pending serial entry hentry) hnow

lemma AgedEngine.reworked (h : AgedEngine config time engine) {now : Nat} (hnow : time ≤ now)
    (hmove : EngineMove engine after effects) (hreworks : Reworks now engine.store after.store)
    (hhandshakes : AllRecords (IsAged config.connectionTimeout now) after.store.connections) :
    AgedEngine config now after where
  filed := hmove.wellFiled h.filed
  configured := (hmove.config h.filed).trans h.configured
  handshakes := hhandshakes
  peers := by
    have hconfig : engine.store.config = config := h.configured
    refine hreworks.forall_peers ?_ ?_ (h.later hnow).peers
    · intro address serial
      rw [← hconfig]
      exact ⟨rfl, rfl, Nat.le_refl _, Or.inl rfl⟩
    · rintro old peer ⟨htimeout, hmost, htouched, hcounted⟩ hupdates
      refine ⟨hupdates.timeout.trans htimeout, hupdates.maxTimeouts.trans hmost, ?_, ?_⟩
      · rcases hupdates.lastInteraction with hsame | htouch
        · rwa [hsame]
        · exact Nat.le_of_eq htouch
      · rcases hupdates.timeouts with hsame | hfew
        · rwa [hsame, hupdates.maxTimeouts]
        · exact hfew
  pending := hreworks.since_le hnow h.pending

variable (occasion : Occasion) (hnow : time ≤ occasion.now)

include hnow

lemma AgedEngine.sweepPeer (h : AgedEngine config time engine) (address : Address) :
    AgedEngine config occasion.now (engine.sweepPeer occasion address).1 :=
  h.reworked hnow (.visitedPeer occasion address) (reworks_sweepPeer occasion address)
    ((sweepPeer_move occasion address).aged hnow h.handshakes)

lemma AgedEngine.sweepConnection (h : AgedEngine config time engine) (key : ConnectionKey) :
    AgedEngine config occasion.now (engine.sweepConnection occasion key).1 :=
  h.reworked hnow (.visitedConnection occasion key)
    (reworks_sweepConnection occasion h.filed key)
    ((sweepConnection_move occasion h.filed key).aged hnow h.handshakes)

lemma AgedEngine.timeoutSweep (h : AgedEngine config time engine) :
    AgedEngine config occasion.now (engine.timeoutSweep occasion).1 := by
  have hpeers := @Proofs.visitAll_induction _ (Engine.sweepPeer occasion)
    (AgedEngine config occasion.now) (fun _ => True)
    (fun _ address hengine =>
      ⟨hengine.sweepPeer occasion (Nat.le_refl _) address, fun _ _ => trivial⟩)
    engine.store.peers.keys engine (h.later hnow)
  exact (@Proofs.visitAll_induction _ (Engine.sweepConnection occasion)
    (AgedEngine config occasion.now) (fun _ => True)
    (fun _ key hengine =>
      ⟨hengine.sweepConnection occasion (Nat.le_refl _) key, fun _ _ => trivial⟩)
    _ _ hpeers.1).1

omit hnow in
lemma AgedEngine.deleteSweep (h : AgedEngine config time engine) (now : Nat) :
    AgedEngine config time (engine.deleteSweep now) where
  filed := ⟨h.filed.peer, h.filed.connection⟩
  configured := h.configured
  handshakes := h.handshakes
  peers := h.peers
  pending serial entry hentry := by
    have hkept : (engine.store.sweepDeleted now engine.config.deleteGracePeriod
        fun _ => false).1.pending.entries[serial]? = some entry := hentry
    rw [entries_sweepDeleted] at hkept
    exact h.pending serial entry (Option.filter_eq_some_iff.1 hkept).1

end Engines

theorem AgedEngine.step {config : Config} {time : Nat} {history : History}
    (h : AgedEngine config time history.engine) {step : EngineStep} (hnow : time ≤ step.time) :
    AgedEngine config step.time (history.step step).engine := by
  have hconfig : history.engine.store.config.connectionTimeout = config.connectionTimeout :=
    congrArg Config.connectionTimeout h.configured
  cases step with
  | send occasion target fields delivery =>
    exact h.reworked hnow (.sent occasion target fields delivery)
      (reworks_send occasion h.filed target fields delivery)
      ((send_move occasion h.filed target fields delivery).aged hnow hconfig h.handshakes)
  | work occasion task =>
    cases task with
    | receive source datagram =>
      exact h.reworked hnow (.received occasion source datagram)
        (reworks_receive occasion h.filed source datagram)
        ((receive_move occasion h.filed source datagram).aged hnow hconfig h.handshakes)
    | timeoutSweep => exact h.timeoutSweep occasion hnow
    | deleteSweep => exact (h.deleteSweep occasion.now).later hnow

/-- An engine between two steps, the last of which was at some time. -/
structure Standing (config : Config) (time : Nat) (engine : Engine) : Prop where
  aged : AgedEngine config time engine
  proper : IsProper engine.store
  pooled : PooledOnce engine.store
  senders : SendersWithin config.senderFailureBound engine.store.connections

lemma standing_starting (config : Config) (firstId : UInt32) (time : Nat) :
    Standing config time (Engine.starting config firstId) where
  aged := agedEngine_starting config firstId time
  proper := isProper_starting config firstId
  pooled serial entry hentry := by simp [Engine.starting] at hentry
  senders key record hrecord := by simp [Engine.starting] at hrecord

theorem Standing.step {config : Config} {time : Nat} {history : History}
    (h : Standing config time history.engine) {step : EngineStep} (hnow : time ≤ step.time) :
    Standing config step.time (history.step step).engine where
  aged := h.aged.step hnow
  proper := (edits_step h.proper step).isProper h.proper
  pooled := (edits_step h.proper step).pooledOnce h.proper h.pooled
  senders := (@History.step_induction history (fun later => later.engine.config = config ∧
      SendersWithin config.senderFailureBound later.engine.store.connections)
    (fun hw hinv hmove => ⟨(hmove.config hw).trans hinv.1,
      hmove.sendersWithin hw hinv.2 (congrArg Config.senderFailureBound hinv.1)⟩)
    h.aged.filed ⟨h.aged.configured, h.senders⟩ step).2.2

end ReliableDatagrams.Proofs
