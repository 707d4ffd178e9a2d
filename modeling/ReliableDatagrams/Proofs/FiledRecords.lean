import ReliableDatagrams.Proofs.HandshakeMoves

/-!
# Records stay under their own keys

No operation of an engine files a record under a foreign key or keeps one filed that is being
deleted. For handshakes this is read off the moves, for peers off the handlers.
-/

namespace ReliableDatagrams.Proofs

variable {engine : Engine} (occasion : Occasion)

lemma RetryMove.connectionsFiled {connection : ConnectionRecord} {after : Engine}
    {effects : List Effect} (hf : ConnectionsFiled engine.store.connections)
    (hc : connection.isBeingDeleted = false)
    (h : RetryMove engine occasion connection after effects) :
    ConnectionsFiled after.store.connections := by
  cases h with
  | repeated role status buffered written bound filed =>
    rw [filed]
    refine hf.afterTransmit _ ?_ _ _
    exact hc
  | givenUp filed =>
    rw [filed]
    exact hf.erase _

lemma ReceiveMove.connectionsFiled {source : Address} {datagram : Bytes} {after : Engine}
    {effects : List Effect} (hf : ConnectionsFiled engine.store.connections)
    (h : ReceiveMove engine occasion source datagram after effects) :
    ConnectionsFiled after.store.connections := by
  cases h with
  | ignored same => rwa [same]
  | plain decoded kind fresh same => rwa [same]
  | rejected invalid record waiting filed =>
    rw [filed]
    split
    · refine hf.afterTransmit _ ?_ _ _
      exact (record.key hf).2
    · exact hf.erase _
  | confirmed reads record opened filed =>
    rw [filed]
    refine hf.afterTransmit _ ?_ _ _
    exact (hf _ _ record).2
  | accepted reads record waiting fresh filed =>
    rw [filed]
    refine hf.afterTransmit _ ?_ _ _
    exact (record.key hf).2
  | acknowledged reads record status filed =>
    rw [filed]
    refine hf.afterTransmit _ ?_ _ _
    exact (hf _ _ record).2
  | retried reads record retry => exact retry.connectionsFiled _ hf (hf _ _ record).2
  | closed reads filed =>
    rw [filed]
    exact hf.erase _
  | finished reads record status filed =>
    rw [filed]
    exact hf.erase _

lemma SweepMove.connectionsFiled {after : Engine} {effects : List Effect}
    (hf : ConnectionsFiled engine.store.connections)
    (h : SweepMove engine occasion after effects) : ConnectionsFiled after.store.connections := by
  cases h with
  | kept same => rwa [same]
  | retried record retry => exact retry.connectionsFiled _ hf (hf _ _ record).2
  | expired filed =>
    rw [filed]
    exact hf.erase _

lemma SendMove.connectionsFiled {target : Address} {fields : FieldMap} {after : Engine}
    {effects : List Effect} {result : Except SendError (Option UInt32)}
    (hf : ConnectionsFiled engine.store.connections)
    (h : SendMove engine occasion target fields after effects result) :
    ConnectionsFiled after.store.connections := by
  cases h with
  | failed ids same => rwa [same]
  | plain drawn unforced written ids same => rwa [same]
  | first drawn written record ids filed =>
    rw [filed]
    refine hf.afterTransmit _ ?_ _ _
    exact (record.key hf).2

lemma PeersFiled.drawTimestamp (hw : PeersFiled engine.store.peers) (now : Nat)
    (target : Address) : PeersFiled (engine.drawTimestamp now target).1.store.peers :=
  hw.withPeer now target _ (fun _ => rfl) fun _ => rfl

lemma PeersFiled.acceptTimestamp (hw : PeersFiled engine.store.peers) (now : Nat)
    (source : Address) (timestamp : Option UInt16) :
    PeersFiled (engine.acceptTimestamp now source timestamp).1.store.peers := by
  cases timestamp with
  | none => exact hw
  | some timestamp =>
    apply hw.withPeer now source
    · intro record
      unfold PeerRecord.accept
      split <;> rfl
    · intro record
      unfold PeerRecord.accept
      split <;> rfl

lemma PeersFiled.restamp (hw : PeersFiled engine.store.peers) (now : Nat) (target : Address)
    (syn : Bytes) : PeersFiled (engine.restamp now target syn).1.store.peers := by
  unfold Engine.restamp
  split
  · exact hw
  · exact hw.drawTimestamp now target

lemma PeersFiled.resendSyn (hw : PeersFiled engine.store.peers) (connection : ConnectionRecord)
    (syn : Bytes) : PeersFiled (engine.resendSyn occasion connection syn).1.store.peers := by
  have hstamped := hw.restamp occasion.now connection.key.peer syn
  unfold Engine.resendSyn
  split
  · rename_i stamped hr
    rw [hr] at hstamped
    rwa [peers_retire]
  · rename_i stamped frame hr
    rw [hr] at hstamped
    split
    · rwa [peers_transmit]
    · exact hstamped

lemma peers_rejectSyn (source : Address) (id : UInt32) :
    (engine.rejectSyn occasion source id).1.store.peers = engine.store.peers := by
  unfold Engine.rejectSyn
  dsimp only
  split
  · exact peers_connectionOrInsert _ _ _
  · split
    · rw [Engine.acknowledge, peers_transmit, peers_connectionOrInsert]
    · rw [peers_retire, Engine.acknowledge, peers_transmit, peers_connectionOrInsert]

lemma PeersFiled.receiveSyn (hw : PeersFiled engine.store.peers) (source : Address) (id : UInt32)
    (timestamp : Option UInt16) (fields : FieldMap) :
    PeersFiled (engine.receiveSyn occasion source id timestamp fields).1.store.peers := by
  have hopened : PeersFiled (Engine.store { engine with store :=
      (engine.store.connectionOrInsert occasion.now ⟨source, id, .receiver⟩).1 }).peers := by
    rwa [peers_connectionOrInsert]
  have htracked := hopened.acceptTimestamp occasion.now source timestamp
  unfold Engine.receiveSyn
  dsimp only
  split
  · rw [Engine.acknowledge, peers_transmit, peers_connectionOrInsert]
    exact hw
  · split
    · rename_i tracked hr
      rw [hr] at htracked
      rwa [peers_rejectSyn]
    · rename_i tracked hr
      rw [hr] at htracked
      rw [Engine.acknowledge, peers_transmit]
      exact htracked.withPeer _ _ _ (fun _ => rfl) fun _ => rfl

lemma PeersFiled.receiveFrame (hw : PeersFiled engine.store.peers) (source : Address)
    (frame : Frame) : PeersFiled (engine.receiveFrame occasion source frame).1.store.peers := by
  unfold Engine.receiveFrame
  split
  · exact hw.acceptTimestamp _ _ _
  · exact hw.receiveSyn occasion _ _ _ _
  · unfold Engine.receiveSynSuccess
    split
    · exact hw
    · split
      · rwa [Engine.acknowledge, peers_transmit]
      · exact hw
  · unfold Engine.receiveSynFailure
    split
    · exact hw
    · split
      · dsimp only
        split
        · refine PeersFiled.resendSyn occasion ?_ _ _
          exact hw
        · rwa [peers_retire]
      · exact hw
  · unfold Engine.receiveSynAckSuccess
    split
    · exact hw
    · split
      · rwa [peers_retire]
      · exact hw
  · unfold Engine.receiveAck
    split
    · exact hw
    · split
      · rwa [peers_retire]
      · exact hw
  · exact hw

lemma PeersFiled.sendFrame (hw : PeersFiled engine.store.peers) (target : Address)
    (id : Option UInt32) (frame : Bytes) :
    PeersFiled (engine.sendFrame occasion target id frame).1.store.peers := by
  cases id with
  | none => exact hw
  | some id =>
    unfold Engine.sendFrame
    rwa [peers_transmit, peers_connectionOrInsert]

lemma store_drawMessageId (isNeeded : Bool) :
    (engine.drawMessageId isNeeded).1.store = engine.store := by
  cases isNeeded <;> rfl

lemma PeersFiled.send (hw : PeersFiled engine.store.peers) (target : Address) (fields : FieldMap)
    (delivery : Delivery) :
    PeersFiled (engine.send occasion target fields delivery).1.store.peers := by
  have hdrawn : PeersFiled ((engine.drawTimestamp occasion.now target).1.drawMessageId
      (delivery = .reliable ∨
        (engine.drawTimestamp occasion.now target).2 = wraparoundTimestamp)).1.store.peers := by
    rw [store_drawMessageId]
    exact hw.drawTimestamp occasion.now target
  unfold Engine.send
  dsimp only
  split
  · exact hdrawn
  · exact hdrawn.sendFrame occasion _ _ _

lemma PeersFiled.sweepPeer (hw : PeersFiled engine.store.peers) (address : Address) :
    PeersFiled (engine.sweepPeer occasion address).1.store.peers := by
  unfold Engine.sweepPeer
  split
  · exact hw
  · rename_i peer hpeer
    have hkept : peer.isBeingDeleted = false := by
      simpa using (Option.filter_eq_some_iff.1 hpeer).2
    split
    · exact hw
    · dsimp only
      have hput : PeersFiled (engine.store.putPeer (peer.resetOrExpire occasion.now).1).peers :=
        hw.insert hkept
      split
      · unfold Store.markForDeletion
        split
        · split
          · split
            · exact hput.erase _
            · exact hput
          · exact hput
        · rename_i key hkey
          simp [Record.handle, Record.key] at hkey
      · exact hput

lemma PeersFiled.sweepConnection (hw : PeersFiled engine.store.peers) (key : ConnectionKey) :
    PeersFiled (engine.sweepConnection occasion key).1.store.peers := by
  unfold Engine.sweepConnection
  split
  · exact hw
  · split
    · exact hw
    · dsimp only
      split
      · refine PeersFiled.resendSyn occasion ?_ _ _
        exact hw
      · rwa [peers_retire, peers_putConnection]

lemma messageIds_resendSyn (connection : ConnectionRecord) (syn : Bytes) :
    (engine.resendSyn occasion connection syn).1.messageIds = engine.messageIds := by
  have hstamped : (engine.restamp occasion.now connection.key.peer syn).1.messageIds =
      engine.messageIds := by
    unfold Engine.restamp
    split <;> rfl
  unfold Engine.resendSyn
  split
  · rename_i stamped hr
    rw [hr] at hstamped
    exact hstamped
  · rename_i stamped frame hr
    rw [hr] at hstamped
    split
    · rw [messageIds_transmit]
      exact hstamped
    · exact hstamped

lemma messageIds_sweepPeer (address : Address) :
    (engine.sweepPeer occasion address).1.messageIds = engine.messageIds := by
  unfold Engine.sweepPeer
  split
  · rfl
  · split <;> rfl

lemma messageIds_sweepConnection (key : ConnectionKey) :
    (engine.sweepConnection occasion key).1.messageIds = engine.messageIds := by
  unfold Engine.sweepConnection
  split
  · rfl
  · split
    · rfl
    · dsimp only
      split
      · exact messageIds_resendSyn occasion _ _
      · rfl

lemma messageIds_rejectSyn (source : Address) (id : UInt32) :
    (engine.rejectSyn occasion source id).1.messageIds = engine.messageIds := by
  unfold Engine.rejectSyn
  dsimp only
  split
  · rfl
  · split
    · exact messageIds_transmit _ _ _ _
    · exact messageIds_transmit _ _ _ _

lemma messageIds_acceptTimestamp (now : Nat) (source : Address) (timestamp : Option UInt16) :
    (engine.acceptTimestamp now source timestamp).1.messageIds = engine.messageIds := by
  cases timestamp <;> rfl

lemma messageIds_receiveSyn (source : Address) (id : UInt32) (timestamp : Option UInt16)
    (fields : FieldMap) :
    (engine.receiveSyn occasion source id timestamp fields).1.messageIds = engine.messageIds := by
  have htracked := @messageIds_acceptTimestamp { engine with store :=
      (engine.store.connectionOrInsert occasion.now ⟨source, id, .receiver⟩).1 } occasion.now
    source timestamp
  unfold Engine.receiveSyn
  dsimp only
  split
  · exact messageIds_transmit _ _ _ _
  · split
    · rename_i tracked hr
      rw [hr] at htracked
      rw [messageIds_rejectSyn]
      exact htracked
    · rename_i tracked hr
      rw [hr] at htracked
      rw [Engine.acknowledge, messageIds_transmit]
      exact htracked

lemma messageIds_receiveFrame (source : Address) (frame : Frame) :
    (engine.receiveFrame occasion source frame).1.messageIds = engine.messageIds := by
  unfold Engine.receiveFrame
  split
  · exact messageIds_acceptTimestamp _ _ _
  · exact messageIds_receiveSyn occasion _ _ _ _
  · unfold Engine.receiveSynSuccess
    split
    · rfl
    · split
      · exact messageIds_transmit _ _ _ _
      · rfl
  · unfold Engine.receiveSynFailure
    split
    · rfl
    · split
      · dsimp only
        split
        · exact messageIds_resendSyn occasion _ _
        · rfl
      · rfl
  · unfold Engine.receiveSynAckSuccess
    split
    · rfl
    · split <;> rfl
  · unfold Engine.receiveAck
    split
    · rfl
    · split <;> rfl
  · rfl

lemma messageIds_receive (source : Address) (datagram : Bytes) :
    (engine.receive occasion source datagram).1.messageIds = engine.messageIds := by
  unfold Engine.receive
  split
  · exact messageIds_receiveFrame occasion _ _
  · split
    · exact messageIds_rejectSyn occasion _ _
    · rfl
  · rfl

lemma WellFiled.receive (hw : WellFiled engine.store) (source : Address) (datagram : Bytes) :
    WellFiled (engine.receive occasion source datagram).1.store := by
  refine ⟨?_, (receive_move occasion hw source datagram).connectionsFiled occasion hw.connection⟩
  unfold Engine.receive
  split
  · exact (hw.peer.touchPeer _ _).receiveFrame occasion _ _
  · split
    · rw [peers_rejectSyn]
      exact hw.peer
    · exact hw.peer
  · exact hw.peer

lemma WellFiled.send (hw : WellFiled engine.store) (target : Address) (fields : FieldMap)
    (delivery : Delivery) : WellFiled (engine.send occasion target fields delivery).1.store :=
  ⟨hw.peer.send occasion target fields delivery,
    (send_move occasion hw target fields delivery).connectionsFiled occasion hw.connection⟩

lemma WellFiled.sweepPeer (hw : WellFiled engine.store) (address : Address) :
    WellFiled (engine.sweepPeer occasion address).1.store :=
  ⟨hw.peer.sweepPeer occasion address,
    (sweepPeer_move occasion address).connectionsFiled occasion hw.connection⟩

lemma WellFiled.sweepConnection (hw : WellFiled engine.store) (key : ConnectionKey) :
    WellFiled (engine.sweepConnection occasion key).1.store :=
  ⟨hw.peer.sweepConnection occasion key,
    (sweepConnection_move occasion hw key).connectionsFiled occasion hw.connection⟩

/-- What every visit preserves holds after all of them, and what holds of the effects of every visit
holds of all effects. -/
lemma visitAll_induction {κ : Type} {visit : Engine → κ → Engine × List Effect}
    {Inv : Engine → Prop} {Ok : Effect → Prop}
    (hvisit : ∀ engine key, Inv engine →
      Inv (visit engine key).1 ∧ ∀ effect ∈ (visit engine key).2, Ok effect)
    (keys : List κ) (engine : Engine) (h : Inv engine) :
    Inv (engine.visitAll visit keys).1 ∧ ∀ effect ∈ (engine.visitAll visit keys).2, Ok effect := by
  induction keys generalizing engine with
  | nil => exact ⟨h, by simp [Engine.visitAll]⟩
  | cons key rest ih =>
    obtain ⟨hfirst, heffects⟩ := hvisit engine key h
    obtain ⟨hrest, hmore⟩ := ih (visit engine key).1 hfirst
    refine ⟨hrest, ?_⟩
    intro effect heffect
    rcases List.mem_append.1 heffect with hmem | hmem
    · exact heffects effect hmem
    · exact hmore effect hmem

/-- What a sweep has done once it has come to some peers, and then to some handshakes. -/
def visited (engine : Engine) (occasion : Occasion) (addresses : List Address)
    (keys : List ConnectionKey) : Engine × List Effect :=
  let (engine, effects) := engine.visitAll (Engine.sweepPeer occasion) addresses
  let (engine, more) := engine.visitAll (Engine.sweepConnection occasion) keys
  (engine, effects ++ more)

lemma timeoutSweep_eq_visited :
    engine.timeoutSweep occasion = visited engine occasion engine.store.peers.keys
      (engine.visitAll (Engine.sweepPeer occasion)
        engine.store.peers.keys).1.store.connections.keys := rfl

/-- What a sweep preserves wherever it has come to, given what it preserves at each record. -/
lemma visited_induction {Inv : Engine → Prop} {Ok : Effect → Prop}
    (hmove : ∀ {engine after : Engine} {effects : List Effect}, Inv engine →
      SweepMove engine occasion after effects → after.messageIds = engine.messageIds →
      Inv after ∧ ∀ effect ∈ effects, Ok effect)
    (hw : WellFiled engine.store) (h : Inv engine) (addresses : List Address)
    (keys : List ConnectionKey) :
    (WellFiled (visited engine occasion addresses keys).1.store ∧
      Inv (visited engine occasion addresses keys).1) ∧
      ∀ effect ∈ (visited engine occasion addresses keys).2, Ok effect := by
  have hpeer : ∀ (engine : Engine) (address : Address), WellFiled engine.store ∧ Inv engine →
      (WellFiled (Engine.sweepPeer occasion engine address).1.store ∧
        Inv (Engine.sweepPeer occasion engine address).1) ∧
      ∀ effect ∈ (Engine.sweepPeer occasion engine address).2, Ok effect := by
    intro engine address hengine
    obtain ⟨hinv, heffects⟩ := hmove hengine.2 (sweepPeer_move occasion address)
      (messageIds_sweepPeer occasion address)
    exact ⟨⟨hengine.1.sweepPeer occasion address, hinv⟩, heffects⟩
  have hconnection : ∀ (engine : Engine) (key : ConnectionKey),
      WellFiled engine.store ∧ Inv engine →
      (WellFiled (Engine.sweepConnection occasion engine key).1.store ∧
        Inv (Engine.sweepConnection occasion engine key).1) ∧
      ∀ effect ∈ (Engine.sweepConnection occasion engine key).2, Ok effect := by
    intro engine key hengine
    obtain ⟨hinv, heffects⟩ := hmove hengine.2 (sweepConnection_move occasion hengine.1 key)
      (messageIds_sweepConnection occasion key)
    exact ⟨⟨hengine.1.sweepConnection occasion key, hinv⟩, heffects⟩
  obtain ⟨hpeers, hearlier⟩ := visitAll_induction hpeer addresses engine ⟨hw, h⟩
  obtain ⟨hall, hlater⟩ := visitAll_induction hconnection keys _ hpeers
  refine ⟨hall, ?_⟩
  intro effect heffect
  rcases List.mem_append.1 heffect with hmem | hmem
  · exact hearlier effect hmem
  · exact hlater effect hmem

/-- What a whole sweep preserves, given what it preserves at each record. -/
lemma timeoutSweep_induction {Inv : Engine → Prop} {Ok : Effect → Prop}
    (hmove : ∀ {engine after : Engine} {effects : List Effect}, Inv engine →
      SweepMove engine occasion after effects → after.messageIds = engine.messageIds →
      Inv after ∧ ∀ effect ∈ effects, Ok effect)
    (hw : WellFiled engine.store) (h : Inv engine) :
    (WellFiled (engine.timeoutSweep occasion).1.store ∧ Inv (engine.timeoutSweep occasion).1) ∧
      ∀ effect ∈ (engine.timeoutSweep occasion).2, Ok effect := by
  rw [timeoutSweep_eq_visited]
  exact visited_induction occasion hmove hw h _ _

end ReliableDatagrams.Proofs
