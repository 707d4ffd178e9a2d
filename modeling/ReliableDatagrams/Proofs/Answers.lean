import ReliableDatagrams.Proofs.HandshakeMoves

/-!
# Answers to the frames of a handshake

What an engine does with a frame that fits its records, exactly: how it answers, what it delivers,
how the record of the handshake and the timestamps of the peer change. A message that is sent, and a
frame that is received, leave the timestamps of all other peers alone.
-/

namespace ReliableDatagrams.Proofs

def trackedTimestamp (engine : Engine) (peer : Address) : Option UInt16 :=
  (engine.store.peers[peer]?).bind PeerRecord.lastTimestamp

def outgoingTimestamp (engine : Engine) (peer : Address) : UInt16 :=
  ((engine.store.peers[peer]?).map PeerRecord.nextTimestamp).getD 0

/-- A timestamp is fresh if nothing is tracked, or something smaller. -/
def isFreshAfter (tracked timestamp : Option UInt16) : Bool :=
  timestamp.all fun timestamp => tracked.all fun last => last < timestamp

lemma isFreshFrom_eq (engine : Engine) (source : Address) (timestamp : Option UInt16) :
    isFreshFrom engine source timestamp =
      isFreshAfter (trackedTimestamp engine source) timestamp := by
  cases timestamp with
  | none => rfl
  | some timestamp =>
    unfold isFreshFrom isFreshAfter trackedTimestamp
    cases engine.store.peers[source]? with
    | none => rfl
    | some peer =>
      cases hlast : peer.lastTimestamp <;> simp [PeerRecord.isFresh, hlast]

/-- Of all timestamps, only what is tracked for one peer may have changed. -/
structure Retracks (engine after : Engine) (peer : Address) (last : Option UInt16) : Prop where
  tracked : ∀ other, trackedTimestamp after other =
    if peer = other then last else trackedTimestamp engine other
  outgoing : ∀ other, outgoingTimestamp after other = outgoingTimestamp engine other

section Timestamps

variable {engine : Engine} (hw : WellFiled engine.store)

lemma lastTimestamp_peerOrNew (engine : Engine) (now : Nat) (peer : Address) :
    (peerOrNew engine.store now peer).lastTimestamp = trackedTimestamp engine peer := by
  unfold peerOrNew trackedTimestamp
  cases engine.store.peers[peer]? <;> rfl

lemma nextTimestamp_peerOrNew (engine : Engine) (now : Nat) (peer : Address) :
    (peerOrNew engine.store now peer).nextTimestamp = outgoingTimestamp engine peer := by
  unfold peerOrNew outgoingTimestamp
  cases engine.store.peers[peer]? <;> rfl

lemma trackedTimestamp_insert {engine after : Engine} {peer : Address} {record : PeerRecord}
    (h : after.store.peers = engine.store.peers.insert peer record) (other : Address) :
    trackedTimestamp after other =
      if peer = other then record.lastTimestamp else trackedTimestamp engine other := by
  unfold trackedTimestamp
  rw [h, getElem?_insert_eq]
  split <;> rfl

lemma outgoingTimestamp_insert {engine after : Engine} {peer : Address} {record : PeerRecord}
    (h : after.store.peers = engine.store.peers.insert peer record) (other : Address) :
    outgoingTimestamp after other =
      if peer = other then record.nextTimestamp else outgoingTimestamp engine other := by
  unfold outgoingTimestamp
  rw [h, getElem?_insert_eq]
  split <;> rfl

lemma retracks_of_insert {after : Engine} {peer : Address} {record : PeerRecord}
    {last : Option UInt16} (h : after.store.peers = engine.store.peers.insert peer record)
    (hlast : record.lastTimestamp = last)
    (hnext : record.nextTimestamp = outgoingTimestamp engine peer) :
    Retracks engine after peer last := by
  constructor
  · intro other
    rw [trackedTimestamp_insert h, hlast]
  · intro other
    rw [outgoingTimestamp_insert h]
    split
    · rename_i hother
      rw [hnext, hother]
    · rfl

lemma peers_withPeer_insert {after : Engine} {peer : Address} {record : PeerRecord}
    (h : after.store.peers = engine.store.peers.insert peer record)
    (now : Nat) {α : Type} (change : PeerRecord → PeerRecord × α)
    (haddress : (change record).1.address = peer) :
    (after.withPeer now peer change).1.store.peers =
      engine.store.peers.insert peer (change record).1 := by
  have hfiled : peerOrNew after.store now peer = record := by
    rw [peerOrNew, h, Std.ExtTreeMap.getElem?_insert_self, Option.getD_some]
  rw [peers_withPeer _ _ _ _ (by rwa [hfiled]), hfiled, h, insert_insert_eq]

include hw in
lemma exists_peer_touchPeer (now : Nat) (peer : Address) :
    ∃ record : PeerRecord,
      (engine.touchPeer now peer).store.peers = engine.store.peers.insert peer record ∧
        record.address = peer ∧ record.lastTimestamp = trackedTimestamp engine peer ∧
        record.nextTimestamp = outgoingTimestamp engine peer :=
  ⟨_, peers_touchPeer hw now peer, (peerOrNew_filed hw.peer now peer).1,
    lastTimestamp_peerOrNew engine now peer, nextTimestamp_peerOrNew engine now peer⟩

include hw in
lemma retracks_touchPeer (now : Nat) (peer : Address) :
    Retracks engine (engine.touchPeer now peer) peer (trackedTimestamp engine peer) := by
  obtain ⟨record, hpeers, -, hlast, hnext⟩ := exists_peer_touchPeer hw now peer
  exact retracks_of_insert hpeers hlast hnext

lemma accept_of_isFreshAfter {record : PeerRecord} {timestamp : UInt16}
    (h : isFreshAfter record.lastTimestamp (some timestamp) = true) :
    record.accept timestamp = ({ record with lastTimestamp := some timestamp }, true) := by
  have hfresh : record.isFresh timestamp = true := by
    unfold PeerRecord.isFresh
    cases hlast : record.lastTimestamp with
    | none => rfl
    | some last => simpa [isFreshAfter, hlast] using h
  rw [PeerRecord.accept, if_pos hfresh]

lemma Retracks.of_peers {touched after : Engine} {peer : Address} {last : Option UInt16}
    (h : Retracks engine touched peer last) (hpeers : after.store.peers = touched.store.peers) :
    Retracks engine after peer last := by
  constructor
  · intro other
    rw [← h.tracked other, trackedTimestamp, hpeers, trackedTimestamp]
  · intro other
    rw [← h.outgoing other, outgoingTimestamp, hpeers, outgoingTimestamp]

lemma peers_sendFrame (occasion : Occasion) (target : Address) (id : Option UInt32)
    (frame : Bytes) :
    (engine.sendFrame occasion target id frame).1.store.peers = engine.store.peers := by
  cases id with
  | none => rfl
  | some id =>
    unfold Engine.sendFrame
    rw [peers_transmit, peers_connectionOrInsert]

lemma peers_send (occasion : Occasion) (target : Address) (fields : FieldMap)
    (delivery : Delivery) :
    (engine.send occasion target fields delivery).1.store.peers =
      (engine.drawTimestamp occasion.now target).1.store.peers := by
  have hdrawn : ((engine.drawTimestamp occasion.now target).1.drawMessageId
      (delivery = .reliable ∨
        (engine.drawTimestamp occasion.now target).2 = wraparoundTimestamp)).1.store =
      (engine.drawTimestamp occasion.now target).1.store := by
    unfold Engine.drawMessageId
    split <;> rfl
  unfold Engine.send
  dsimp only
  split
  · rw [hdrawn]
  · rw [peers_sendFrame, hdrawn]

include hw in
lemma drawTimestamp_eq (now : Nat) (target : Address) :
    (engine.drawTimestamp now target).1.store.peers = engine.store.peers.insert target
        (((peerOrNew engine.store now target).touch now).drawTimestamp).1 ∧
      (engine.drawTimestamp now target).2 = outgoingTimestamp engine target := by
  refine ⟨peers_withPeer _ _ _ _ (peerOrNew_filed hw.peer now target).1, ?_⟩
  rw [Engine.drawTimestamp, snd_withPeer]
  exact nextTimestamp_peerOrNew engine now target

include hw in
/-- Sending advances the counter of the target by one, and nothing else. -/
lemma timestamps_send (occasion : Occasion) (target : Address) (fields : FieldMap)
    (delivery : Delivery) (other : Address) :
    trackedTimestamp (engine.send occasion target fields delivery).1 other =
        trackedTimestamp engine other ∧
      outgoingTimestamp (engine.send occasion target fields delivery).1 other =
        if target = other then outgoingTimestamp engine target + 1
        else outgoingTimestamp engine other := by
  have hpeers := (peers_send occasion target fields delivery).trans
    (drawTimestamp_eq hw occasion.now target).1
  constructor
  · rw [trackedTimestamp_insert hpeers]
    split
    · rename_i hother
      rw [← hother]
      exact lastTimestamp_peerOrNew engine occasion.now target
    · rfl
  · rw [outgoingTimestamp_insert hpeers]
    split
    · rw [← nextTimestamp_peerOrNew engine occasion.now target]
      rfl
    · rfl

end Timestamps

section Receiving

variable {engine : Engine} (occasion : Occasion) {source : Address} {datagram : Bytes}
variable {id : UInt32} {frame : Frame} {connection : ConnectionRecord}

lemma receive_of_decode (hd : Frame.decode datagram = .ok frame) :
    engine.receive occasion source datagram =
      (engine.touchPeer occasion.now source).receiveFrame occasion source frame := by
  rw [Engine.receive, hd]

lemma receiveFrame_of_reads {kind : FrameKind} (hr : Reads datagram kind id frame) :
    engine.receiveFrame occasion source frame =
      match kind with
      | .plain => engine.receivePlain occasion source frame.timestamp frame.fields
      | .syn => engine.receiveSyn occasion source id frame.timestamp frame.fields
      | .synSuccess => engine.receiveSynSuccess occasion source id
      | .synFailure => engine.receiveSynFailure occasion source id
      | .synAckSuccess => engine.receiveSynAckSuccess occasion source id
      | .ack => (engine.receiveAck occasion source id, []) := by
  unfold Engine.receiveFrame
  rw [hr.kind, hr.id]
  cases kind <;> rfl

lemma wellFiled_touchPeer (hw : WellFiled engine.store) (now : Nat) (peer : Address) :
    WellFiled (engine.touchPeer now peer).store :=
  ⟨hw.peer.touchPeer _ _, by rw [connections_touchPeer]; exact hw.connection⟩

lemma receive_plain (hw : WellFiled engine.store) {timestamp : UInt16}
    (hd : Frame.decode datagram = .ok frame) (hk : frame.kind = .plain)
    (ht : frame.timestamp = some timestamp)
    (hfresh : isFreshAfter (trackedTimestamp engine source) (some timestamp) = true) :
    (engine.receive occasion source datagram).1.store.connections = engine.store.connections ∧
      (engine.receive occasion source datagram).2 =
        [.delivered { source, id := none, fields := frame.fields }] ∧
      Retracks engine (engine.receive occasion source datagram).1 source (some timestamp) := by
  obtain ⟨record, hpeers, haddress, hlast, hnext⟩ := exists_peer_touchPeer hw occasion.now source
  rw [← hlast] at hfresh
  have haccept := accept_of_isFreshAfter hfresh
  obtain ⟨hsame, haccepted⟩ := @acceptTimestamp_eq (engine.touchPeer occasion.now source)
    occasion.now source (some timestamp)
  rw [isFreshFrom_touchPeer hw, isFreshFrom_eq, ← hlast, hfresh] at haccepted
  have htracked := peers_withPeer_insert hpeers occasion.now
    (fun peer => peer.accept timestamp) (by rw [haccept]; exact haddress)
  have hframe : engine.receive occasion source datagram =
      (engine.touchPeer occasion.now source).receivePlain occasion source (some timestamp)
        frame.fields := by
    rw [receive_of_decode occasion hd, Engine.receiveFrame, hk, ht]
  rw [hframe, Engine.receivePlain]
  dsimp only
  rw [haccepted, hsame, connections_touchPeer]
  refine ⟨rfl, rfl, retracks_of_insert htracked ?_ ?_⟩
  · rw [haccept]
  · rw [haccept, ← hnext]

lemma retracks_resetTimestamps (hw : WellFiled engine.store) {opened : Engine} (now : Nat)
    {timestamp : Option UInt16}
    (hpeers : opened.store.peers = (engine.touchPeer now source).store.peers)
    (hfresh : isFreshAfter (trackedTimestamp engine source) timestamp = true) :
    Retracks engine
      ((opened.acceptTimestamp now source timestamp).1.resetTimestamps now source timestamp)
      source timestamp := by
  obtain ⟨record, htouched, haddress, hlast, hnext⟩ := exists_peer_touchPeer hw now source
  rw [htouched] at hpeers
  rw [← hlast] at hfresh
  cases timestamp with
  | none =>
    have hreset := peers_withPeer_insert hpeers now
      (fun peer => (peer.resetTimestamps none, ())) haddress
    exact retracks_of_insert hreset rfl hnext
  | some timestamp =>
    have haccept := accept_of_isFreshAfter hfresh
    have htracked := peers_withPeer_insert hpeers now (fun peer => peer.accept timestamp)
      (by rw [haccept]; exact haddress)
    have hreset := peers_withPeer_insert htracked now
      (fun peer => (peer.resetTimestamps (some timestamp), ())) (by rw [haccept]; exact haddress)
    refine retracks_of_insert hreset rfl ?_
    rw [haccept]
    exact hnext

/-- The first frame of an unknown handshake is delivered, and its record opened. -/
lemma receive_syn (hw : WellFiled engine.store) (hr : Reads datagram .syn id frame)
    (hnew : ∀ connection,
      engine.store.connections[(⟨source, id, .receiver⟩ : ConnectionKey)]? = some connection →
        ¬ .synAckSent ≤ connection.status)
    (hfresh : isFreshAfter (trackedTimestamp engine source) frame.timestamp = true) :
    (∃ connection : ConnectionRecord, connection.key = ⟨source, id, .receiver⟩ ∧
        connection.status = .synAckSent ∧
        (engine.receive occasion source datagram).1.store.connections =
          afterTransmit engine.store.connections connection (encodeControl .synSuccess id)
            (occasion.accepts source (encodeControl .synSuccess id))) ∧
      (engine.receive occasion source datagram).2 =
        [.sent source (encodeControl .synSuccess id)
            (occasion.accepts source (encodeControl .synSuccess id)),
          .delivered { source, id := some id, fields := frame.fields }] ∧
      Retracks engine (engine.receive occasion source datagram).1 source frame.timestamp := by
  have hwt := wellFiled_touchPeer hw occasion.now source
  have hkey := connectionOrNew_key hwt occasion.now ⟨source, id, .receiver⟩
  have hwaiting : ¬ .synAckSent ≤ (connectionOrNew (engine.touchPeer occasion.now source).store
      occasion.now ⟨source, id, .receiver⟩).status := by
    intro hopen
    have hthere := connectionOrNew_of_status _ _ hopen
    rw [connections_touchPeer] at hthere
    exact hnew _ hthere hopen
  have hfresh' : isFreshFrom (engine.touchPeer occasion.now source) source frame.timestamp =
      true := by
    rw [isFreshFrom_touchPeer hw, isFreshFrom_eq, hfresh]
  obtain ⟨hconnections, heffects, hpeers⟩ :=
    receiveSyn_fresh occasion rfl hkey hwaiting hfresh' frame.fields
  rw [receive_of_decode occasion hr.decoded, receiveFrame_of_reads occasion hr]
  refine ⟨⟨{ connectionOrNew (engine.touchPeer occasion.now source).store occasion.now
    ⟨source, id, .receiver⟩ with status := .synAckSent, lastInteraction := occasion.now }, hkey, rfl,
    ?_⟩, heffects, ?_⟩
  · rw [hconnections, connections_touchPeer]
  · exact (retracks_resetTimestamps hw occasion.now (peers_connectionOrInsert _ _ _)
      hfresh).of_peers hpeers

lemma receive_synSuccess (hw : WellFiled engine.store) (hr : Reads datagram .synSuccess id frame)
    (hrecord : engine.store.connections[(⟨source, id, .sender⟩ : ConnectionKey)]? =
      some connection)
    (hstatus : connection.status = .synSent) :
    (∃ later : ConnectionRecord, later.key = ⟨source, id, .sender⟩ ∧ later.status = .ackSent ∧
        (engine.receive occasion source datagram).1.store.connections =
          afterTransmit engine.store.connections later (encodeControl .synAckSuccess id)
            (occasion.accepts source (encodeControl .synAckSuccess id))) ∧
      (engine.receive occasion source datagram).2 =
        [.sent source (encodeControl .synAckSuccess id)
          (occasion.accepts source (encodeControl .synAckSuccess id))] ∧
      Retracks engine (engine.receive occasion source datagram).1 source
        (trackedTimestamp engine source) := by
  have hwt := wellFiled_touchPeer hw occasion.now source
  have hkey := (hw.connection _ _ hrecord).1
  rw [receive_of_decode occasion hr.decoded, receiveFrame_of_reads occasion hr]
  simp only [Engine.receiveSynSuccess, connection?_eq hwt, connections_touchPeer, hrecord, hstatus,
    true_or, if_true, Engine.acknowledge, ConnectionRecord.touch, connections_transmit,
    effects_transmit, hkey, true_and]
  refine ⟨⟨{ connection with status := .ackSent, lastInteraction := occasion.now }, hkey, rfl, ?_⟩,
    ?_⟩
  · rw [hkey]
  · exact (retracks_touchPeer hw occasion.now source).of_peers (peers_transmit _ _ _ _)

lemma receive_synAckSuccess (hw : WellFiled engine.store)
    (hr : Reads datagram .synAckSuccess id frame)
    (hrecord : engine.store.connections[(⟨source, id, .receiver⟩ : ConnectionKey)]? =
      some connection)
    (hstatus : connection.status = .synAckSent) :
    (engine.receive occasion source datagram).1.store.connections =
        engine.store.connections.erase ⟨source, id, .receiver⟩ ∧
      (engine.receive occasion source datagram).2 =
        [.sent source (encodeControl .ack id) (occasion.accepts source (encodeControl .ack id))] ∧
      Retracks engine (engine.receive occasion source datagram).1 source
        (trackedTimestamp engine source) := by
  have hwt := wellFiled_touchPeer hw occasion.now source
  have hkey := (hw.connection _ _ hrecord).1
  rw [receive_of_decode occasion hr.decoded, receiveFrame_of_reads occasion hr]
  simp only [Engine.receiveSynAckSuccess, connection?_eq hwt, connections_touchPeer, hrecord,
    hstatus, if_true, true_and]
  refine ⟨?_, (retracks_touchPeer hw occasion.now source).of_peers (peers_retire _ _ _)⟩
  rw [connections_retire_putConnection, connections_touchPeer, hkey]

/-- The sender closes the handshake when its answer to the success was seen. -/
lemma receive_ack (hw : WellFiled engine.store) (hr : Reads datagram .ack id frame)
    (hrecord : engine.store.connections[(⟨source, id, .sender⟩ : ConnectionKey)]? =
      some connection)
    (hstatus : connection.status = .ackSent) :
    (engine.receive occasion source datagram).1.store.connections =
        engine.store.connections.erase ⟨source, id, .sender⟩ ∧
      (engine.receive occasion source datagram).2 = [] ∧
      Retracks engine (engine.receive occasion source datagram).1 source
        (trackedTimestamp engine source) := by
  have hwt := wellFiled_touchPeer hw occasion.now source
  have hkey := (hw.connection _ _ hrecord).1
  have hseen : HandshakeStatus.ackSent ≤ .ackSent := by decide
  rw [receive_of_decode occasion hr.decoded, receiveFrame_of_reads occasion hr]
  simp only [Engine.receiveAck, connection?_eq hwt, connections_touchPeer, hrecord, hstatus,
    if_pos hseen, true_and]
  refine ⟨?_, (retracks_touchPeer hw occasion.now source).of_peers (peers_retire _ _ _)⟩
  rw [connections_retire_putConnection, connections_touchPeer, hkey]

end Receiving

end ReliableDatagrams.Proofs
