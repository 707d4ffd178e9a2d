import ReliableDatagrams.Proofs.FiledRecords

/-!
# What a handler does to the store

A handler works on the store in a few ways only: it changes the records of peers, it files the record
of a handshake anew with another status, frame, time or one more failure, and it moves records into
the pool of pending deletions. `Reworks` says so for a whole handler, seen from the store in which it
began, so that facts about the configuration and about all records, pending ones included, are shown
once for these ways.
-/

namespace ReliableDatagrams.Proofs

/-- The same record further on, with at most one more failure. -/
structure Updates (old later : ConnectionRecord) : Prop where
  key : later.key = old.key
  serial : later.serial = old.serial
  timeout : later.timeout = old.timeout
  failureBound : later.failureBound = old.failureBound
  failures : later.failures.toNat ≤ old.failures.toNat + 1

/-- The same record of a peer, with other timestamps, and perhaps touched. -/
structure PeerUpdates (now : Nat) (old later : PeerRecord) : Prop where
  address : later.address = old.address
  serial : later.serial = old.serial
  timeout : later.timeout = old.timeout
  maxTimeouts : later.maxTimeouts = old.maxTimeouts
  lastInteraction : later.lastInteraction = old.lastInteraction ∨ later.lastInteraction = now
  timeouts : later.timeouts = old.timeouts ∨ later.timeouts = 0 ∨ later.timeouts < later.maxTimeouts

/-- A record that is filed for a peer, or one for first contact. -/
def IsPeerFiledOrNew (now : Nat) (store : Store) (record : PeerRecord) : Prop :=
  (∃ address : Address, store.peers[address]? = some record) ∨
    ∃ address serial, record = { store with nextSerial := serial }.newPeer now address

/-- The stores that a handler can come to from the one in which it begins. -/
inductive Reworks (now : Nat) (store : Store) : Store → Prop where
  | begun : Reworks now store store
  | peer {later : Store} {old peer : PeerRecord} (h : Reworks now store later)
      (record : IsPeerFiledOrNew now later old) (updates : PeerUpdates now old peer) :
      Reworks now store (later.putPeer peer)
  | filed {later : Store} {old connection : ConnectionRecord} (h : Reworks now store later)
      (record : IsFiledOrNew store old.key old) (updates : Updates old connection) :
      Reworks now store (later.putConnection connection)
  | counted {later : Store} (h : Reworks now store later) (nextSerial : Nat) :
      Reworks now store { later with nextSerial }
  | removed {later : Store} (h : Reworks now store later) (handle : Handle) :
      Reworks now store (later.markForDeletion now handle)
  | evicted {later : Store} (h : Reworks now store later) (peer : PeerRecord) :
      Reworks now store ((later.putPeer peer).markForDeletion now (Record.peer peer).handle)

lemma updates_refl (connection : ConnectionRecord) : Updates connection connection :=
  ⟨rfl, rfl, rfl, rfl, Nat.le_succ _⟩

lemma updates_of_touch (connection : ConnectionRecord) (status : HandshakeStatus) (now : Nat) :
    Updates connection ({ connection with status }.touch now) :=
  ⟨rfl, rfl, rfl, rfl, Nat.le_succ _⟩

lemma updates_resetOrExpire (connection : ConnectionRecord) (now : Nat) :
    Updates connection (connection.resetOrExpire now).1 := by
  unfold ConnectionRecord.resetOrExpire
  split
  · dsimp only
    split
    · exact ⟨rfl, rfl, rfl, rfl, toNat_succ_le _⟩
    · exact ⟨rfl, rfl, rfl, rfl, toNat_succ_le _⟩
  · exact updates_refl connection

lemma IsFiledOrNew.own {store : Store} (hw : WellFiled store) {key : ConnectionKey}
    {record : ConnectionRecord} (h : IsFiledOrNew store key record) :
    IsFiledOrNew store record.key record := by
  rwa [(h.key hw.connection).1]

lemma config_markForDeletion (store : Store) (now : Nat) (handle : Handle) :
    (store.markForDeletion now handle).config = store.config := by
  unfold Store.markForDeletion
  split
  · split
    · split <;> rfl
    · rfl
  · split
    · split <;> rfl
    · rfl

lemma config_reworks {now : Nat} {store later : Store} (h : Reworks now store later) :
    later.config = store.config := by
  induction h with
  | begun => rfl
  | peer _ _ _ ih => exact ih
  | filed _ _ _ ih => exact ih
  | counted _ _ ih => exact ih
  | removed _ handle ih => rw [config_markForDeletion, ih]
  | evicted _ peer ih => rw [config_markForDeletion, Store.putPeer, ih]

/-- What holds of a record on first contact, and goes on to hold, holds of all peers in the end. -/
lemma Reworks.forall_peers {now : Nat} {store later : Store} (h : Reworks now store later)
    {P : PeerRecord → Prop}
    (hnew : ∀ address serial, P ({ store with nextSerial := serial }.newPeer now address))
    (hupdates : ∀ old peer, P old → PeerUpdates now old peer → P peer)
    (hall : ∀ (address : Address) (peer : PeerRecord), store.peers[address]? = some peer → P peer) :
    ∀ (address : Address) (peer : PeerRecord), later.peers[address]? = some peer → P peer := by
  induction h with
  | begun => exact hall
  | filed _ _ _ ih => exact ih
  | counted _ _ ih => exact ih
  | @peer later old new hlater record updates ih =>
    intro address peer hpeer
    have hinsert : (later.peers.insert new.address new)[address]? = some peer := hpeer
    rw [getElem?_insert_eq] at hinsert
    split at hinsert
    · cases hinsert
      refine hupdates old new ?_ updates
      rcases record with ⟨other, hold⟩ | ⟨other, serial, rfl⟩
      · exact ih other old hold
      · simp only [Store.newPeer, config_reworks hlater]
        exact hnew other serial
    · exact ih address peer hinsert
  | @removed later _ handle ih =>
    intro address peer hpeer
    unfold Store.markForDeletion at hpeer
    split at hpeer
    · split at hpeer
      · split at hpeer
        · dsimp only at hpeer
          rw [getElem?_erase_eq] at hpeer
          split at hpeer
          · cases hpeer
          · exact ih address peer hpeer
        · exact ih address peer hpeer
      · exact ih address peer hpeer
    · split at hpeer
      · split at hpeer
        · exact ih address peer hpeer
        · exact ih address peer hpeer
      · exact ih address peer hpeer
  | evicted _ gone ih =>
    intro address peer hpeer
    rw [peers_retire_putPeer, getElem?_erase_eq] at hpeer
    split at hpeer
    · cases hpeer
    · exact ih address peer hpeer

/-- A property of all records of handshakes, also of those that wait to be freed. -/
structure EveryRecord (P : ConnectionRecord → Prop) (store : Store) : Prop where
  filed : AllRecords P store.connections
  pending : ∀ (serial : Nat) (entry : PendingEntry) (record : ConnectionRecord),
    store.pending.entries[serial]? = some entry → entry.record = .connection record → P record

section EveryRecord

variable {P : ConnectionRecord → Prop} {store : Store}

lemma EveryRecord.add (h : EveryRecord P store) (now : Nat) {added : Record}
    (hadded : ∀ record, added = .connection record → P record)
    {serial : Nat} {entry : PendingEntry} {record : ConnectionRecord}
    (hentry : (store.pending.add now added).entries[serial]? = some entry)
    (hrecord : entry.record = .connection record) : P record := by
  unfold PendingPool.add at hentry
  dsimp only at hentry
  rw [getElem?_insert_eq] at hentry
  split at hentry
  · cases hold : store.pending.entries[added.serial]? with
    | none =>
      rw [hold] at hentry
      cases hentry
      exact hadded record hrecord
    | some waiting =>
      rw [hold] at hentry
      cases hentry
      exact h.pending _ waiting record hold hrecord
  · exact h.pending _ entry record hentry hrecord

lemma EveryRecord.markForDeletion (h : EveryRecord P store)
    (hdeleted : ∀ record, P record → P { record with isBeingDeleted := true }) (now : Nat)
    (handle : Handle) : EveryRecord P (store.markForDeletion now handle) := by
  unfold Store.markForDeletion
  split
  · split
    · split
      · refine ⟨h.filed, fun serial entry record hentry hrecord => ?_⟩
        exact h.add now (fun _ hpeer => by cases hpeer) hentry hrecord
      · exact h
    · exact h
  · split
    · rename_i filed hfiled
      split
      · refine ⟨h.filed.erase _, fun serial entry record hentry hrecord => ?_⟩
        refine h.add now ?_ hentry hrecord
        intro removed hremoved
        cases hremoved
        exact hdeleted _ (h.filed _ _ hfiled)
      · exact h
    · exact h

/-- What holds of all records, and of every record that a handler files, holds after the handler. -/
lemma EveryRecord.reworks {now : Nat} {later : Store} (h : EveryRecord P store)
    (hr : Reworks now store later)
    (hdeleted : ∀ record, P record → P { record with isBeingDeleted := true })
    (hupdates : ∀ old later : ConnectionRecord, IsFiledOrNew store old.key old →
      Updates old later → P later) : EveryRecord P later := by
  induction hr with
  | begun => exact h
  | peer _ _ _ ih => exact ⟨ih.filed, ih.pending⟩
  | counted _ _ ih => exact ⟨ih.filed, ih.pending⟩
  | removed _ handle ih => exact ih.markForDeletion hdeleted now handle
  | @evicted between _ peer ih =>
    have hput : EveryRecord P (between.putPeer peer) := ⟨ih.filed, ih.pending⟩
    exact hput.markForDeletion hdeleted now _
  | @filed between old connection _ hold hlater ih =>
    refine ⟨?_, ih.pending⟩
    intro key record hrecord
    have hinsert : (between.connections.insert connection.key connection)[key]? = some record :=
      hrecord
    rw [getElem?_insert_eq] at hinsert
    split at hinsert
    · cases hinsert
      exact hupdates old connection hold hlater
    · exact ih.filed key record hinsert

lemma EveryRecord.sweepDeleted (h : EveryRecord P store) (now gracePeriod : Nat)
    (isHeld : Nat → Bool) : EveryRecord P (store.sweepDeleted now gracePeriod isHeld).1 := by
  refine ⟨h.filed, fun serial entry record hentry hrecord => ?_⟩
  refine h.pending serial entry record ?_ hrecord
  unfold Store.sweepDeleted PendingPool.sweep at hentry
  dsimp only at hentry
  rw [Std.ExtTreeMap.getElem?_filter'] at hentry
  exact (Option.filter_eq_some_iff.1 hentry).1

end EveryRecord

section Operations

variable {now : Nat} {store : Store} {engine : Engine}

lemma Reworks.withPeer {α : Type} (h : Reworks now store engine.store) (address : Address)
    {change : PeerRecord → PeerRecord × α}
    (hchange : ∀ peer, PeerUpdates now peer (change peer).1) :
    Reworks now store (engine.withPeer now address change).1.store := by
  have hpeer : Reworks now store (engine.store.peer now address).1 ∧
      IsPeerFiledOrNew now (engine.store.peer now address).1
        (engine.store.peer now address).2 := by
    unfold Store.peer
    split
    · rename_i peer hpeer
      exact ⟨h, Or.inl ⟨address, hpeer⟩⟩
    · have hnew : IsPeerFiledOrNew now engine.store (engine.store.newPeer now address) :=
        Or.inr ⟨address, engine.store.nextSerial, rfl⟩
      refine ⟨(h.peer hnew ⟨rfl, rfl, rfl, rfl, Or.inl rfl, Or.inl rfl⟩).counted _, Or.inl ⟨address, ?_⟩⟩
      exact Std.ExtTreeMap.getElem?_insert_self
  exact hpeer.1.peer hpeer.2 (hchange _)

lemma Reworks.touchPeer (h : Reworks now store engine.store) (source : Address) :
    Reworks now store (engine.touchPeer now source).store :=
  h.withPeer source fun _ => ⟨rfl, rfl, rfl, rfl, Or.inr rfl, Or.inr (Or.inl rfl)⟩

lemma Reworks.drawTimestamp (h : Reworks now store engine.store) (target : Address) :
    Reworks now store (engine.drawTimestamp now target).1.store :=
  h.withPeer target fun _ => ⟨rfl, rfl, rfl, rfl, Or.inr rfl, Or.inr (Or.inl rfl)⟩

lemma Reworks.acceptTimestamp (h : Reworks now store engine.store) (source : Address)
    (timestamp : Option UInt16) :
    Reworks now store (engine.acceptTimestamp now source timestamp).1.store := by
  cases timestamp with
  | none => exact h
  | some timestamp =>
    apply h.withPeer source
    intro peer
    unfold PeerRecord.accept
    split <;> exact ⟨rfl, rfl, rfl, rfl, Or.inl rfl, Or.inl rfl⟩

lemma Reworks.resetTimestamps (h : Reworks now store engine.store) (source : Address)
    (timestamp : Option UInt16) :
    Reworks now store (engine.resetTimestamps now source timestamp).store :=
  h.withPeer source fun _ => ⟨rfl, rfl, rfl, rfl, Or.inl rfl, Or.inl rfl⟩

lemma Reworks.retire (h : Reworks now store engine.store) (connection : ConnectionRecord) :
    Reworks now store (engine.retire now connection).store := by
  have hremoved := h.removed (Record.connection connection).handle
  exact hremoved

lemma Reworks.connectionOrInsert (h : Reworks now store engine.store) (key : ConnectionKey)
    (hrecord : IsFiledOrNew store key (connectionOrNew engine.store now key)) :
    Reworks now store (engine.store.connectionOrInsert now key).1 := by
  unfold Store.connectionOrInsert
  split
  · exact h
  · rename_i hnone
    rw [connectionOrNew, hnone, Option.getD_none] at hrecord
    have hput : Reworks now store
        (engine.store.putConnection (engine.store.newConnection now key)) :=
      @Reworks.filed now store engine.store (engine.store.newConnection now key) _ h hrecord
        (updates_refl _)
    exact hput.counted _

/-- While a handler has not touched the handshakes, it finds what is filed, or makes a new record. -/
lemma Reworks.isFiledOrNew (h : Reworks now store engine.store)
    (hsame : engine.store.connections = store.connections) (key : ConnectionKey) :
    IsFiledOrNew store key (connectionOrNew engine.store now key) :=
  isFiledOrNew_congr hsame (config_reworks h) (isFiledOrNew_connectionOrNew _ _ _)

end Operations

section Handlers

variable {store : Store} {engine : Engine} (occasion : Occasion)
variable {old connection : ConnectionRecord}

lemma Reworks.transmit (h : Reworks occasion.now store engine.store)
    (hrecord : IsFiledOrNew store old.key old) (hupdates : Updates old connection)
    (frame : Bytes) :
    Reworks occasion.now store (engine.transmit occasion connection frame).1.store := by
  have hsent : Updates old { connection with lastSent := some frame } :=
    ⟨hupdates.key, hupdates.serial, hupdates.timeout, hupdates.failureBound, hupdates.failures⟩
  have hput : Reworks occasion.now store
      (engine.putConnection { connection with lastSent := some frame }).store :=
    h.filed hrecord hsent
  unfold Engine.transmit
  dsimp only
  split
  · exact hput
  · exact hput.retire _

/-- An answer for a record that was found, with at most one more failure. -/
lemma Reworks.acknowledge (h : Reworks occasion.now store engine.store)
    (hrecord : IsFiledOrNew store old.key old) (hupdates : Updates old connection)
    (kind : FrameKind) :
    Reworks occasion.now store (engine.acknowledge occasion connection kind).1.store :=
  h.transmit occasion hrecord hupdates _

lemma Reworks.resendSyn (h : Reworks occasion.now store engine.store)
    (hrecord : IsFiledOrNew store old.key old) (hupdates : Updates old connection)
    (syn : Bytes) :
    Reworks occasion.now store (engine.resendSyn occasion connection syn).1.store := by
  have hstamped : Reworks occasion.now store
      (engine.restamp occasion.now connection.key.peer syn).1.store := by
    unfold Engine.restamp
    split
    · exact h
    · exact h.drawTimestamp _
  unfold Engine.resendSyn
  split
  · rename_i stamped hr
    rw [hr] at hstamped
    exact hstamped.retire _
  · rename_i stamped frame hr
    rw [hr] at hstamped
    split
    · exact hstamped.transmit occasion hrecord hupdates _
    · exact hstamped

lemma Reworks.rejectSyn (h : Reworks occasion.now store engine.store) (hw : WellFiled store)
    (source : Address) (id : UInt32) (hrecord : IsFiledOrNew store ⟨source, id, .receiver⟩
      (connectionOrNew engine.store occasion.now ⟨source, id, .receiver⟩)) :
    Reworks occasion.now store (engine.rejectSyn occasion source id).1.store := by
  have hopened := h.connectionOrInsert _ hrecord
  have hown := hrecord.own hw
  unfold Engine.rejectSyn
  dsimp only
  rw [snd_connectionOrInsert]
  split
  · exact hopened
  · have hfailed : Updates (connectionOrNew engine.store occasion.now ⟨source, id, .receiver⟩)
        ((connectionOrNew engine.store occasion.now
          ⟨source, id, .receiver⟩).registerFailure.1.touch occasion.now) :=
      ⟨rfl, rfl, rfl, rfl, toNat_succ_le _⟩
    split
    · refine Reworks.acknowledge occasion ?_ hown hfailed _
      exact hopened
    · refine Reworks.retire (Reworks.acknowledge occasion ?_ hown hfailed _) _
      exact hopened

lemma Reworks.receiveSyn (h : Reworks occasion.now store engine.store) (hw : WellFiled store)
    (hsame : engine.store.connections = store.connections) (source : Address) (id : UInt32)
    (timestamp : Option UInt16) (fields : FieldMap) :
    Reworks occasion.now store
      (engine.receiveSyn occasion source id timestamp fields).1.store := by
  have hrecord := h.isFiledOrNew hsame ⟨source, id, .receiver⟩
  have hopened := h.connectionOrInsert _ hrecord
  have hown := hrecord.own hw
  have htracked := @Reworks.acceptTimestamp _ _ { engine with store :=
      (engine.store.connectionOrInsert occasion.now ⟨source, id, .receiver⟩).1 } hopened
    source timestamp
  obtain ⟨hstill, -⟩ := @acceptTimestamp_opened engine occasion source id timestamp
  unfold Engine.receiveSyn
  dsimp only
  rw [snd_connectionOrInsert]
  split
  · refine Reworks.acknowledge occasion ?_ hown (updates_of_touch _ _ _) _
    exact hopened
  · split
    · rename_i tracked hr
      rw [hr] at htracked hstill
      refine htracked.rejectSyn occasion hw source id ?_
      rw [connectionOrNew_of_opened hstill]
      exact hrecord
    · rename_i tracked hr
      rw [hr] at htracked
      refine Reworks.acknowledge occasion ?_ hown (updates_of_touch _ _ _) _
      exact htracked.resetTimestamps _ _

/-- What a handler finds filed, when it has not touched the handshakes yet. -/
lemma isFiledOrNew_of_connection? {key : ConnectionKey} (hw : WellFiled store)
    (hsame : engine.store.connections = store.connections)
    (hfiled : engine.store.connection? key = some connection) :
    IsFiledOrNew store connection.key connection := by
  have hthere : store.connections[key]? = some connection := by
    rw [← hsame]
    exact (Option.filter_eq_some_iff.1 hfiled).1
  exact IsFiledOrNew.own hw (Or.inl hthere)

lemma Reworks.receiveFrame (h : Reworks occasion.now store engine.store) (hw : WellFiled store)
    (hsame : engine.store.connections = store.connections) (source : Address) (frame : Frame) :
    Reworks occasion.now store (engine.receiveFrame occasion source frame).1.store := by
  unfold Engine.receiveFrame
  split
  · exact h.acceptTimestamp _ _
  · exact h.receiveSyn occasion hw hsame _ _ _ _
  · unfold Engine.receiveSynSuccess
    split
    · exact h
    · rename_i connection hfiled
      have hown := isFiledOrNew_of_connection? hw hsame hfiled
      split
      · exact h.acknowledge occasion hown (updates_of_touch _ _ _) _
      · exact h
  · unfold Engine.receiveSynFailure
    split
    · exact h
    · rename_i connection hfiled
      have hown := isFiledOrNew_of_connection? hw hsame hfiled
      split
      · have hfailed : Updates connection (connection.registerFailure.1) :=
          ⟨rfl, rfl, rfl, rfl, toNat_succ_le _⟩
        have htouched : Updates connection (connection.registerFailure.1.touch occasion.now) :=
          ⟨rfl, rfl, rfl, rfl, toNat_succ_le _⟩
        dsimp only
        split
        · refine Reworks.resendSyn occasion ?_ hown htouched _
          exact h.filed hown htouched
        · refine Reworks.retire ?_ _
          exact h.filed hown hfailed
      · exact h
  · unfold Engine.receiveSynAckSuccess
    split
    · exact h
    · rename_i connection hfiled
      have hown := isFiledOrNew_of_connection? hw hsame hfiled
      split
      · refine Reworks.retire ?_ _
        exact h.filed hown ⟨rfl, rfl, rfl, rfl, Nat.le_succ _⟩
      · exact h
  · unfold Engine.receiveAck
    split
    · exact h
    · rename_i connection hfiled
      have hown := isFiledOrNew_of_connection? hw hsame hfiled
      split
      · refine Reworks.retire ?_ _
        exact h.filed hown ⟨rfl, rfl, rfl, rfl, Nat.le_succ _⟩
      · exact h
  · exact h

lemma Reworks.sendFrame (h : Reworks occasion.now store engine.store) (hw : WellFiled store)
    (hsame : engine.store.connections = store.connections) (target : Address)
    (id : Option UInt32) (frame : Bytes) :
    Reworks occasion.now store (engine.sendFrame occasion target id frame).1.store := by
  cases id with
  | none => exact h
  | some id =>
    have hrecord := h.isFiledOrNew hsame ⟨target, id, .sender⟩
    have hopened := h.connectionOrInsert _ hrecord
    unfold Engine.sendFrame
    dsimp only
    rw [snd_connectionOrInsert]
    refine Reworks.transmit occasion ?_ (hrecord.own hw) (updates_of_touch _ _ _) _
    exact hopened

theorem reworks_receive (hw : WellFiled engine.store) (source : Address) (datagram : Bytes) :
    Reworks occasion.now engine.store (engine.receive occasion source datagram).1.store := by
  unfold Engine.receive
  split
  · exact (Reworks.begun.touchPeer _).receiveFrame occasion hw (connections_touchPeer _ _) _ _
  · split
    · exact Reworks.begun.rejectSyn occasion hw _ _ (Reworks.begun.isFiledOrNew rfl _)
    · exact .begun
  · exact .begun

theorem reworks_send (hw : WellFiled engine.store) (target : Address) (fields : FieldMap)
    (delivery : Delivery) :
    Reworks occasion.now engine.store (engine.send occasion target fields delivery).1.store := by
  have hdrawn : Reworks occasion.now engine.store
      ((engine.drawTimestamp occasion.now target).1.drawMessageId (delivery = .reliable ∨
        (engine.drawTimestamp occasion.now target).2 = wraparoundTimestamp)).1.store := by
    rw [store_drawMessageId]
    exact Reworks.begun.drawTimestamp _
  unfold Engine.send
  dsimp only
  split
  · exact hdrawn
  · apply hdrawn.sendFrame occasion hw
    rw [store_drawMessageId]
    exact connections_drawTimestamp _ _

theorem reworks_sweepPeer (address : Address) :
    Reworks occasion.now engine.store (engine.sweepPeer occasion address).1.store := by
  unfold Engine.sweepPeer
  split
  · exact .begun
  · rename_i peer hpeer
    split
    · exact .begun
    · have hfiled : IsPeerFiledOrNew occasion.now engine.store peer :=
        Or.inl ⟨address, (Option.filter_eq_some_iff.1 hpeer).1⟩
      dsimp only
      split
      · exact Reworks.begun.evicted _
      · rename_i hkept
        have htimeouts : ¬ peer.maxTimeouts ≤ peer.timeouts + 1 := fun hmost => hkept (if_pos hmost)
        refine Reworks.begun.peer hfiled ⟨rfl, rfl, rfl, rfl, Or.inr rfl, ?_⟩
        exact Or.inr (Or.inr (UInt32.not_le.1 htimeouts))

theorem reworks_sweepConnection (hw : WellFiled engine.store) (key : ConnectionKey) :
    Reworks occasion.now engine.store (engine.sweepConnection occasion key).1.store := by
  unfold Engine.sweepConnection
  split
  · exact .begun
  · rename_i connection hfiled
    have hown := isFiledOrNew_of_connection? hw rfl hfiled
    split
    · exact .begun
    · have hreset := updates_resetOrExpire connection occasion.now
      dsimp only
      split
      · refine Reworks.resendSyn occasion ?_ hown hreset _
        exact Reworks.begun.filed hown hreset
      · refine Reworks.retire ?_ _
        exact Reworks.begun.filed hown hreset

end Handlers

end ReliableDatagrams.Proofs
