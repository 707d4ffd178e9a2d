import ReliableDatagrams.Proofs.RecordChanges

/-!
# What a step can do to a handshake

Everything that an engine does to the records of its handshakes is one of a few moves, each for a
single handshake and with the frame that goes out or the message that is delivered along with it.
`receive_move`, `send_move` and `sweepConnection_move` list them once and for all, with what they
require, so that invariants of handshakes are shown by cases over moves.
-/

namespace ReliableDatagrams.Proofs

/-- A frame with this timestamp is not behind what is tracked for its source. Without a timestamp it
never is. -/
def isFreshFrom (engine : Engine) (source : Address) : Option UInt16 → Bool
  | none => true
  | some timestamp => (engine.store.peers[source]?).all fun peer => peer.isFresh timestamp

/-- A datagram is a frame of a handshake. -/
structure Reads (datagram : Bytes) (kind : FrameKind) (id : UInt32) (frame : Frame) : Prop where
  decoded : Frame.decode datagram = .ok frame
  kind : frame.kind = kind
  id : frame.header.messageId = some id

/-- A first frame that fails its checksum or is stale. -/
def IsRejectedSyn (engine : Engine) (source : Address) (datagram : Bytes) (id : UInt32) : Prop :=
  (∃ header expected actual,
      Frame.decode datagram = .error (.checksumMismatch header expected actual) ∧
        header.flags.kind? = some .syn ∧ header.messageId = some id) ∨
    ∃ frame, Reads datagram .syn id frame ∧ isFreshFrom engine source frame.timestamp = false

/-- A record that is filed for a handshake, or that was created for it a moment ago. -/
def IsFiledOrNew (store : Store) (key : ConnectionKey) (record : ConnectionRecord) : Prop :=
  store.connections[key]? = some record ∨
    store.connections[key]? = none ∧
      ∃ serial now, record = { store with nextSerial := serial }.newConnection now key

/-- A first frame as it is written again from what is read of it, with another timestamp. -/
def Restamped (timestamp : UInt16) (syn frame : Bytes) : Prop :=
  ∃ decoded, Frame.decode syn = .ok decoded ∧
    encode decoded.fields.toList
      { messageId := decoded.header.messageId
        timestamp := some timestamp
        doubleCount := decoded.header.flags.doubleCount } = .ok frame

section Moves

variable (engine : Engine) (occasion : Occasion)

/-- What becomes of a message whose first frame is due to be repeated. -/
inductive RetryMove (connection : ConnectionRecord) : Engine → List Effect → Prop where
  | repeated {after : Engine} {timestamp : UInt16} {syn frame : Bytes}
      (role : connection.key.role = .sender) (status : connection.status = .synSent)
      (buffered : connection.lastSent = some syn) (written : Restamped timestamp syn frame)
      (bound : connection.failures + 1 ≤ connection.failureBound)
      (filed : after.store.connections = afterTransmit engine.store.connections
        { connection with
          failures := connection.failures + 1
          lastInteraction := occasion.now }
        frame (occasion.accepts connection.key.peer frame)) :
      RetryMove connection after
        [.sent connection.key.peer frame (occasion.accepts connection.key.peer frame)]
  | givenUp {after : Engine}
      (filed : after.store.connections = engine.store.connections.erase connection.key) :
      RetryMove connection after []

/-- What a datagram does to the handshakes of the engine that receives it. -/
inductive ReceiveMove (source : Address) (datagram : Bytes) : Engine → List Effect → Prop where
  | ignored {after : Engine} (same : after.store.connections = engine.store.connections) :
      ReceiveMove source datagram after []
  | plain {after : Engine} {frame : Frame} (decoded : Frame.decode datagram = .ok frame)
      (kind : frame.kind = .plain)
      (fresh : isFreshFrom engine source frame.timestamp = true)
      (same : after.store.connections = engine.store.connections) :
      ReceiveMove source datagram after [.delivered { source, id := none, fields := frame.fields }]
  | rejected {after : Engine} {id : UInt32} {connection : ConnectionRecord}
      (invalid : IsRejectedSyn engine source datagram id)
      (record : IsFiledOrNew engine.store ⟨source, id, .receiver⟩ connection)
      (waiting : ¬ .synAckSent ≤ connection.status)
      (filed : after.store.connections =
        if connection.failures + 1 ≤ connection.failureBound then
          afterTransmit engine.store.connections
            { connection with
              failures := connection.failures + 1
              lastInteraction := occasion.now }
            (encodeControl .synFailure id)
            (occasion.accepts source (encodeControl .synFailure id))
        else engine.store.connections.erase ⟨source, id, .receiver⟩) :
      ReceiveMove source datagram after
        [.sent source (encodeControl .synFailure id)
          (occasion.accepts source (encodeControl .synFailure id))]
  | confirmed {after : Engine} {id : UInt32} {frame : Frame} {connection : ConnectionRecord}
      (reads : Reads datagram .syn id frame)
      (record : engine.store.connections[(⟨source, id, .receiver⟩ : ConnectionKey)]? =
        some connection)
      (opened : .synAckSent ≤ connection.status)
      (filed : after.store.connections = afterTransmit engine.store.connections
        { connection with lastInteraction := occasion.now }
        (encodeControl .synSuccess id) (occasion.accepts source (encodeControl .synSuccess id))) :
      ReceiveMove source datagram after
        [.sent source (encodeControl .synSuccess id)
          (occasion.accepts source (encodeControl .synSuccess id))]
  | accepted {after : Engine} {id : UInt32} {frame : Frame} {connection : ConnectionRecord}
      (reads : Reads datagram .syn id frame)
      (record : IsFiledOrNew engine.store ⟨source, id, .receiver⟩ connection)
      (waiting : ¬ .synAckSent ≤ connection.status)
      (fresh : isFreshFrom engine source frame.timestamp = true)
      (filed : after.store.connections = afterTransmit engine.store.connections
        { connection with status := .synAckSent, lastInteraction := occasion.now }
        (encodeControl .synSuccess id) (occasion.accepts source (encodeControl .synSuccess id))) :
      ReceiveMove source datagram after
        [.sent source (encodeControl .synSuccess id)
            (occasion.accepts source (encodeControl .synSuccess id)),
          .delivered { source, id := some id, fields := frame.fields }]
  | acknowledged {after : Engine} {id : UInt32} {frame : Frame} {connection : ConnectionRecord}
      (reads : Reads datagram .synSuccess id frame)
      (record : engine.store.connections[(⟨source, id, .sender⟩ : ConnectionKey)]? =
        some connection)
      (status : connection.status = .synSent ∨ connection.status = .ackSent)
      (filed : after.store.connections = afterTransmit engine.store.connections
        { connection with status := .ackSent, lastInteraction := occasion.now }
        (encodeControl .synAckSuccess id)
        (occasion.accepts source (encodeControl .synAckSuccess id))) :
      ReceiveMove source datagram after
        [.sent source (encodeControl .synAckSuccess id)
          (occasion.accepts source (encodeControl .synAckSuccess id))]
  | retried {after : Engine} {effects : List Effect} {id : UInt32} {frame : Frame}
      {connection : ConnectionRecord}
      (reads : Reads datagram .synFailure id frame)
      (record : engine.store.connections[(⟨source, id, .sender⟩ : ConnectionKey)]? =
        some connection)
      (retry : RetryMove engine occasion connection after effects) :
      ReceiveMove source datagram after effects
  | closed {after : Engine} {id : UInt32} {frame : Frame}
      (reads : Reads datagram .synAckSuccess id frame)
      (filed : after.store.connections =
        engine.store.connections.erase ⟨source, id, .receiver⟩) :
      ReceiveMove source datagram after
        [.sent source (encodeControl .ack id) (occasion.accepts source (encodeControl .ack id))]
  | finished {after : Engine} {id : UInt32} {frame : Frame} {connection : ConnectionRecord}
      (reads : Reads datagram .ack id frame)
      (record : engine.store.connections[(⟨source, id, .sender⟩ : ConnectionKey)]? =
        some connection)
      (status : .ackSent ≤ connection.status)
      (filed : after.store.connections =
        engine.store.connections.erase ⟨source, id, .sender⟩) :
      ReceiveMove source datagram after []

/-- What a sweep does at a single record. -/
inductive SweepMove : Engine → List Effect → Prop where
  | kept {after : Engine} (same : after.store.connections = engine.store.connections) :
      SweepMove after []
  | retried {after : Engine} {effects : List Effect} {key : ConnectionKey}
      {connection : ConnectionRecord}
      (record : engine.store.connections[key]? = some connection)
      (retry : RetryMove engine occasion connection after effects) :
      SweepMove after effects
  | expired {after : Engine} {key : ConnectionKey}
      (filed : after.store.connections = engine.store.connections.erase key) :
      SweepMove after []

/-- What a call of `send` does, with its result. -/
inductive SendMove (target : Address) (fields : FieldMap) :
    Engine → List Effect → Except SendError (Option UInt32) → Prop where
  | failed {after : Engine} {error : SendError}
      (ids : after.messageIds = engine.messageIds ∨ after.messageIds = engine.messageIds.draw.2)
      (same : after.store.connections = engine.store.connections) :
      SendMove target fields after [] (.error error)
  | plain {after : Engine} {timestamp : UInt16} {frame : Bytes}
      (drawn : (engine.drawTimestamp occasion.now target).2 = timestamp)
      (unforced : timestamp ≠ wraparoundTimestamp)
      (written : encode fields.toList
        { messageId := none
          timestamp := some timestamp
          doubleCount := fields.needsDoubleCount } = .ok frame)
      (ids : after.messageIds = engine.messageIds)
      (same : after.store.connections = engine.store.connections) :
      SendMove target fields after [.sent target frame (occasion.accepts target frame)]
        (if occasion.accepts target frame then .ok none else .error .refused)
  | first {after : Engine} {timestamp : UInt16} {frame : Bytes} {connection : ConnectionRecord}
      (drawn : (engine.drawTimestamp occasion.now target).2 = timestamp)
      (written : encode fields.toList
        { messageId := some engine.messageIds.draw.1
          timestamp := some timestamp
          doubleCount := fields.needsDoubleCount } = .ok frame)
      (record : IsFiledOrNew engine.store ⟨target, engine.messageIds.draw.1, .sender⟩ connection)
      (ids : after.messageIds = engine.messageIds.draw.2)
      (filed : after.store.connections = afterTransmit engine.store.connections
        { connection with status := .synSent, lastInteraction := occasion.now }
        frame (occasion.accepts target frame)) :
      SendMove target fields after [.sent target frame (occasion.accepts target frame)]
        (if occasion.accepts target frame then .ok (some engine.messageIds.draw.1)
        else .error .refused)

end Moves

section Handlers

variable {engine : Engine} (occasion : Occasion)

lemma writeFrame_eq_ok {target : Address} {fields : FieldMap} {options : FrameOptions}
    {frame : Bytes} (h : engine.writeFrame target fields options = .ok frame) :
    encode fields.toList options = .ok frame ∧ frame.length ≤ engine.config.maxDatagramSize := by
  unfold Engine.writeFrame at h
  cases hencode : encode fields.toList options with
  | error error => simp [hencode] at h
  | ok written =>
    simp only [hencode] at h
    split at h
    · simp at h
    · obtain rfl : written = frame := Except.ok.inj h
      exact ⟨rfl, by omega⟩

lemma toOption_eq_some {ε α : Type} {result : Except ε α} {value : α}
    (h : result.toOption = some value) : result = .ok value := by
  cases result with
  | error error => simp [Except.toOption] at h
  | ok other => simpa [Except.toOption] using h

@[simp] lemma connections_drawTimestamp (now : Nat) (target : Address) :
    (engine.drawTimestamp now target).1.store.connections = engine.store.connections :=
  connections_withPeer _ _ _ _

@[simp] lemma connections_touchPeer (now : Nat) (source : Address) :
    (engine.touchPeer now source).store.connections = engine.store.connections :=
  connections_withPeer _ _ _ _

lemma restamp_eq_none_or (now : Nat) (target : Address) (syn : Bytes) :
    (engine.restamp now target syn).1.store.connections = engine.store.connections ∧
      ∀ frame, (engine.restamp now target syn).2 = some frame →
        Restamped (engine.drawTimestamp now target).2 syn frame := by
  unfold Engine.restamp
  cases hdecoded : Frame.decode syn with
  | error error => exact ⟨rfl, by simp⟩
  | ok decoded =>
    refine ⟨connections_drawTimestamp _ _, ?_⟩
    intro frame hframe
    exact ⟨decoded, hdecoded, (writeFrame_eq_ok (toOption_eq_some hframe)).1⟩

lemma resendSyn_move {connection filed : ConnectionRecord} {syn : Bytes}
    (hrole : filed.key.role = .sender) (hstatus : filed.status = .synSent)
    (hsyn : filed.lastSent = some syn)
    (hbound : filed.failures + 1 ≤ filed.failureBound)
    (hconnection : connection =
      { filed with failures := filed.failures + 1, lastInteraction := occasion.now }) :
    RetryMove engine occasion filed
      ((engine.putConnection connection).resendSyn occasion connection syn).1
      ((engine.putConnection connection).resendSyn occasion connection syn).2 := by
  have hkey : connection.key = filed.key := by rw [hconnection]
  obtain ⟨hsame, hwritten⟩ := @restamp_eq_none_or (engine.putConnection connection)
    occasion.now connection.key.peer syn
  unfold Engine.resendSyn
  cases hr : (engine.putConnection connection).restamp occasion.now connection.key.peer syn with
  | mk stamped written =>
    rw [hr] at hsame hwritten
    simp only [connections_putConnection] at hsame
    cases written with
    | none =>
      apply RetryMove.givenUp
      rw [connections_retire_of_filed stamped connection _
          (by rw [hsame]; exact Std.ExtTreeMap.getElem?_insert_self) rfl,
        hsame, erase_insert_eq, hkey]
    | some frame =>
      have hwaits : connection.status = .synSent := by rw [hconnection]; exact hstatus
      simp only [if_pos hwaits]
      have hmove := @RetryMove.repeated engine occasion filed
        (stamped.transmit occasion connection frame).1 _ _ _ hrole hstatus hsyn
        (hwritten frame rfl) hbound ?_
      · rw [effects_transmit, hkey]
        exact hmove
      · rw [connections_transmit, hsame, afterTransmit_insert, hkey, ← hconnection]

lemma acceptTimestamp_eq (now : Nat) (source : Address) (timestamp : Option UInt16) :
    (engine.acceptTimestamp now source timestamp).1.store.connections =
        engine.store.connections ∧
      (engine.acceptTimestamp now source timestamp).2 = isFreshFrom engine source timestamp := by
  cases timestamp with
  | none => exact ⟨rfl, rfl⟩
  | some timestamp =>
    refine ⟨connections_withPeer _ _ _ _, ?_⟩
    rw [Engine.acceptTimestamp, snd_withPeer, isFreshFrom, peerOrNew]
    cases engine.store.peers[source]? with
    | none => rfl
    | some peer =>
      simp only [Option.getD_some, Option.all_some, PeerRecord.accept]
      split
      · simp_all
      · simp_all

lemma rejectSyn_open {source : Address} {id : UInt32}
    (h : .synAckSent ≤
      (connectionOrNew engine.store occasion.now ⟨source, id, .receiver⟩).status) :
    (engine.rejectSyn occasion source id).1.store.connections = engine.store.connections ∧
      (engine.rejectSyn occasion source id).2 = [] := by
  have hfiled := connectionOrNew_of_status _ _ h
  have hsame := connections_connectionOrInsert_of_filed _ occasion.now _ hfiled
  have hrecord := snd_connectionOrInsert engine.store occasion.now ⟨source, id, .receiver⟩
  unfold Engine.rejectSyn
  simp only [hrecord, if_pos h, hsame, and_self]

lemma rejectSyn_waiting {source : Address} {id : UInt32} {connection : ConnectionRecord}
    (hc : connectionOrNew engine.store occasion.now ⟨source, id, .receiver⟩ = connection)
    (hkey : connection.key = ⟨source, id, .receiver⟩)
    (h : ¬ .synAckSent ≤ connection.status) :
    (engine.rejectSyn occasion source id).1.store.connections =
        (if connection.failures + 1 ≤ connection.failureBound then
          afterTransmit engine.store.connections
            { connection with
              failures := connection.failures + 1
              lastInteraction := occasion.now }
            (encodeControl .synFailure id)
            (occasion.accepts source (encodeControl .synFailure id))
        else engine.store.connections.erase ⟨source, id, .receiver⟩) ∧
      (engine.rejectSyn occasion source id).2 =
        [.sent source (encodeControl .synFailure id)
          (occasion.accepts source (encodeControl .synFailure id))] := by
  have hrecord := snd_connectionOrInsert engine.store occasion.now ⟨source, id, .receiver⟩
  rw [hc] at hrecord
  unfold Engine.rejectSyn
  simp only [hrecord, if_neg h, ConnectionRecord.registerFailure, ConnectionRecord.touch,
    Engine.acknowledge, effects_transmit, hkey, and_true, decide_eq_true_eq]
  by_cases hbound : connection.failures + 1 ≤ connection.failureBound
  · simp only [if_pos hbound, connections_transmit]
    exact afterTransmit_connectionOrInsert _ _ _ rfl _ _
  · have herase := connections_retire_transmit
      { engine with store :=
          (engine.store.connectionOrInsert occasion.now ⟨source, id, .receiver⟩).1 }
      occasion
      { connection with failures := connection.failures + 1, lastInteraction := occasion.now }
      (encodeControl .synFailure connection.key.messageId) occasion.now
    simp only [hkey] at herase
    simp only [if_neg hbound, herase, erase_connectionOrInsert]

lemma isFiledOrNew_connectionOrNew (store : Store) (now : Nat) (key : ConnectionKey) :
    IsFiledOrNew store key (connectionOrNew store now key) := by
  unfold connectionOrNew
  cases h : store.connections[key]? with
  | some record => exact Or.inl h
  | none => exact Or.inr ⟨h, store.nextSerial, now, rfl⟩

lemma IsFiledOrNew.key {store : Store} (hw : ConnectionsFiled store.connections)
    {key : ConnectionKey} {record : ConnectionRecord} (h : IsFiledOrNew store key record) :
    record.key = key ∧ record.isBeingDeleted = false := by
  rcases h with hfiled | ⟨-, serial, now, rfl⟩
  · exact hw key record hfiled
  · exact ⟨rfl, rfl⟩

lemma connectionOrNew_of_opened {store opened : Store} {now later : Nat} {key : ConnectionKey}
    (h : opened.connections = (store.connectionOrInsert now key).1.connections) :
    connectionOrNew opened later key = connectionOrNew store now key := by
  rw [connectionOrNew, h, getElem?_connectionOrInsert, Option.getD_some]

section FirstFrames

variable {source : Address} {id : UInt32} {timestamp : Option UInt16}
variable {connection : ConnectionRecord}

lemma acceptTimestamp_opened :
    (Engine.acceptTimestamp { engine with store :=
        (engine.store.connectionOrInsert occasion.now ⟨source, id, .receiver⟩).1 }
        occasion.now source timestamp).1.store.connections =
        (engine.store.connectionOrInsert occasion.now ⟨source, id, .receiver⟩).1.connections ∧
      (Engine.acceptTimestamp { engine with store :=
        (engine.store.connectionOrInsert occasion.now ⟨source, id, .receiver⟩).1 }
        occasion.now source timestamp).2 = isFreshFrom engine source timestamp := by
  obtain ⟨hsame, hfresh⟩ := @acceptTimestamp_eq { engine with store :=
    (engine.store.connectionOrInsert occasion.now ⟨source, id, .receiver⟩).1 } occasion.now source
    timestamp
  refine ⟨hsame, hfresh.trans ?_⟩
  cases timestamp <;> simp only [isFreshFrom, peers_connectionOrInsert]

lemma receiveSyn_open (h : engine.store.connections[(⟨source, id, .receiver⟩ : ConnectionKey)]? =
      some connection) (hkey : connection.key = ⟨source, id, .receiver⟩)
    (hopen : .synAckSent ≤ connection.status) (fields : FieldMap) :
    (engine.receiveSyn occasion source id timestamp fields).1.store.connections =
        afterTransmit engine.store.connections { connection with lastInteraction := occasion.now }
          (encodeControl .synSuccess id)
          (occasion.accepts source (encodeControl .synSuccess id)) ∧
      (engine.receiveSyn occasion source id timestamp fields).2 =
        [.sent source (encodeControl .synSuccess id)
          (occasion.accepts source (encodeControl .synSuccess id))] := by
  have hrecord := snd_connectionOrInsert engine.store occasion.now ⟨source, id, .receiver⟩
  have hsame := connections_connectionOrInsert_of_filed _ occasion.now _ h
  rw [connectionOrNew, h, Option.getD_some] at hrecord
  unfold Engine.receiveSyn
  simp only [hrecord, if_pos hopen, hsame, Engine.acknowledge, ConnectionRecord.touch,
    connections_transmit, effects_transmit, hkey, and_self]

lemma receiveSyn_stale
    (hc : connectionOrNew engine.store occasion.now ⟨source, id, .receiver⟩ = connection)
    (hopen : ¬ .synAckSent ≤ connection.status)
    (hstale : isFreshFrom engine source timestamp = false) (fields : FieldMap) :
    ∃ tracked : Engine, tracked.store.connections =
        (engine.store.connectionOrInsert occasion.now ⟨source, id, .receiver⟩).1.connections ∧
      engine.receiveSyn occasion source id timestamp fields =
        tracked.rejectSyn occasion source id := by
  have hrecord := snd_connectionOrInsert engine.store occasion.now ⟨source, id, .receiver⟩
  rw [hc] at hrecord
  obtain ⟨hsame, hfresh⟩ := @acceptTimestamp_opened engine occasion source id timestamp
  rw [hstale] at hfresh
  refine ⟨_, hsame, ?_⟩
  unfold Engine.receiveSyn
  simp only [hrecord, if_neg hopen]
  split
  · rename_i tracked ha
    rw [ha]
  · rename_i tracked ha
    rw [ha] at hfresh
    cases hfresh

lemma receiveSyn_fresh
    (hc : connectionOrNew engine.store occasion.now ⟨source, id, .receiver⟩ = connection)
    (hkey : connection.key = ⟨source, id, .receiver⟩)
    (hopen : ¬ .synAckSent ≤ connection.status)
    (hfresh : isFreshFrom engine source timestamp = true) (fields : FieldMap) :
    (engine.receiveSyn occasion source id timestamp fields).1.store.connections =
        afterTransmit engine.store.connections
          { connection with status := .synAckSent, lastInteraction := occasion.now }
          (encodeControl .synSuccess id)
          (occasion.accepts source (encodeControl .synSuccess id)) ∧
      (engine.receiveSyn occasion source id timestamp fields).2 =
        [.sent source (encodeControl .synSuccess id)
            (occasion.accepts source (encodeControl .synSuccess id)),
          .delivered { source, id := some id, fields }] ∧
      (engine.receiveSyn occasion source id timestamp fields).1.store.peers =
        ((Engine.acceptTimestamp { engine with store :=
          (engine.store.connectionOrInsert occasion.now ⟨source, id, .receiver⟩).1 } occasion.now
          source timestamp).1.resetTimestamps occasion.now source timestamp).store.peers := by
  have hrecord := snd_connectionOrInsert engine.store occasion.now ⟨source, id, .receiver⟩
  rw [hc] at hrecord
  obtain ⟨hsame, hfresh'⟩ := @acceptTimestamp_opened engine occasion source id timestamp
  rw [hfresh] at hfresh'
  unfold Engine.receiveSyn
  simp only [hrecord, if_neg hopen]
  split
  · rename_i tracked ha
    rw [ha] at hfresh'
    cases hfresh'
  · rename_i tracked ha
    rw [ha] at hsame
    dsimp only at hsame
    simp only [Engine.acknowledge, ConnectionRecord.touch, effects_transmit, peers_transmit,
      connections_transmit, Engine.resetTimestamps, connections_withPeer, hsame, hkey, ha,
      List.cons_append, List.nil_append, and_self, and_true]
    exact afterTransmit_connectionOrInsert _ _ _ rfl _ _

end FirstFrames

lemma receiveSyn_move (hw : WellFiled engine.store) {source : Address} {datagram : Bytes}
    {id : UInt32} {frame : Frame} (hr : Reads datagram .syn id frame) :
    ReceiveMove engine occasion source datagram
      (engine.receiveSyn occasion source id frame.timestamp frame.fields).1
      (engine.receiveSyn occasion source id frame.timestamp frame.fields).2 := by
  have hfiled := isFiledOrNew_connectionOrNew engine.store occasion.now ⟨source, id, .receiver⟩
  have hkey := connectionOrNew_key hw occasion.now ⟨source, id, .receiver⟩
  by_cases hopen : .synAckSent ≤
      (connectionOrNew engine.store occasion.now ⟨source, id, .receiver⟩).status
  · have hthere := connectionOrNew_of_status _ _ hopen
    obtain ⟨hconnections, heffects⟩ := @receiveSyn_open engine occasion source id frame.timestamp _
      hthere hkey hopen frame.fields
    rw [heffects]
    exact ReceiveMove.confirmed hr hthere hopen hconnections
  · cases hfresh : isFreshFrom engine source frame.timestamp with
    | false =>
      obtain ⟨tracked, hsame, hreject⟩ := receiveSyn_stale occasion rfl hopen hfresh frame.fields
      obtain ⟨hstored, heffects⟩ := @rejectSyn_waiting tracked occasion _ _ _
        (connectionOrNew_of_opened hsame) hkey hopen
      rw [hreject, heffects]
      apply ReceiveMove.rejected (Or.inr ⟨frame, hr, hfresh⟩) hfiled hopen
      have hput := @afterTransmit_connectionOrInsert engine.store occasion.now _
        { connectionOrNew engine.store occasion.now ⟨source, id, .receiver⟩ with
          failures :=
            (connectionOrNew engine.store occasion.now ⟨source, id, .receiver⟩).failures + 1
          lastInteraction := occasion.now } hkey (encodeControl .synFailure id)
        (occasion.accepts source (encodeControl .synFailure id))
      rw [hstored, hsame, erase_connectionOrInsert, hput]
    | true =>
      obtain ⟨hconnections, heffects, -⟩ :=
        receiveSyn_fresh occasion rfl hkey hopen hfresh frame.fields
      rw [heffects]
      exact ReceiveMove.accepted hr hfiled hopen hfresh hconnections

lemma rejectSyn_move (hw : WellFiled engine.store) {source : Address} {datagram : Bytes}
    {id : UInt32} (hinvalid : IsRejectedSyn engine source datagram id) :
    ReceiveMove engine occasion source datagram (engine.rejectSyn occasion source id).1
      (engine.rejectSyn occasion source id).2 := by
  have hkey := connectionOrNew_key hw occasion.now ⟨source, id, .receiver⟩
  by_cases hopen : .synAckSent ≤
      (connectionOrNew engine.store occasion.now ⟨source, id, .receiver⟩).status
  · obtain ⟨hsame, heffects⟩ := rejectSyn_open occasion hopen
    rw [heffects]
    exact ReceiveMove.ignored hsame
  · obtain ⟨hstored, heffects⟩ := rejectSyn_waiting occasion rfl hkey hopen
    rw [heffects]
    exact ReceiveMove.rejected hinvalid (isFiledOrNew_connectionOrNew _ _ _) hopen hstored

lemma receivePlain_move {source : Address} {datagram : Bytes} {frame : Frame}
    (hd : Frame.decode datagram = .ok frame) (hk : frame.kind = .plain) :
    ReceiveMove engine occasion source datagram
      (engine.receivePlain occasion source frame.timestamp frame.fields).1
      (engine.receivePlain occasion source frame.timestamp frame.fields).2 := by
  obtain ⟨hsame, hfresh⟩ := @acceptTimestamp_eq engine occasion.now source
    frame.timestamp
  simp only [Engine.receivePlain, hfresh]
  cases hf : isFreshFrom engine source frame.timestamp with
  | false => exact ReceiveMove.ignored hsame
  | true => exact ReceiveMove.plain hd hk hf hsame

lemma receiveSynSuccess_move (hw : WellFiled engine.store) {source : Address} {datagram : Bytes}
    {id : UInt32} {frame : Frame} (hr : Reads datagram .synSuccess id frame) :
    ReceiveMove engine occasion source datagram (engine.receiveSynSuccess occasion source id).1
      (engine.receiveSynSuccess occasion source id).2 := by
  unfold Engine.receiveSynSuccess
  rw [connection?_eq hw]
  cases hfiled : engine.store.connections[(⟨source, id, .sender⟩ : ConnectionKey)]? with
  | none => exact ReceiveMove.ignored rfl
  | some connection =>
    have hkey := (hw.connection _ _ hfiled).1
    dsimp only
    by_cases hstatus : connection.status = .synSent ∨ connection.status = .ackSent
    · simp only [if_pos hstatus, Engine.acknowledge, ConnectionRecord.touch, effects_transmit,
        hkey]
      apply ReceiveMove.acknowledged hr hfiled hstatus
      simp only [connections_transmit, hkey]
    · simp only [if_neg hstatus]
      exact ReceiveMove.ignored rfl

lemma receiveSynFailure_move (hw : WellFiled engine.store) {source : Address} {datagram : Bytes}
    {id : UInt32} {frame : Frame} (hr : Reads datagram .synFailure id frame) :
    ReceiveMove engine occasion source datagram (engine.receiveSynFailure occasion source id).1
      (engine.receiveSynFailure occasion source id).2 := by
  unfold Engine.receiveSynFailure
  rw [connection?_eq hw]
  cases hfiled : engine.store.connections[(⟨source, id, .sender⟩ : ConnectionKey)]? with
  | none => exact ReceiveMove.ignored rfl
  | some connection =>
    have hrole : connection.key.role = .sender := by rw [(hw.connection _ _ hfiled).1]
    dsimp only
    split
    · rename_i syn hstatus hsyn
      simp only [ConnectionRecord.registerFailure, ConnectionRecord.touch, decide_eq_true_eq]
      by_cases hbound : connection.failures + 1 ≤ connection.failureBound
      · simp only [if_pos hbound]
        exact ReceiveMove.retried hr hfiled
          (resendSyn_move occasion hrole hstatus hsyn hbound rfl)
      · simp only [if_neg hbound]
        apply ReceiveMove.retried hr hfiled
        apply RetryMove.givenUp
        exact connections_retire_putConnection _ _ _
    · exact ReceiveMove.ignored rfl

lemma receiveSynAckSuccess_move (hw : WellFiled engine.store) {source : Address}
    {datagram : Bytes} {id : UInt32} {frame : Frame} (hr : Reads datagram .synAckSuccess id frame) :
    ReceiveMove engine occasion source datagram (engine.receiveSynAckSuccess occasion source id).1
      (engine.receiveSynAckSuccess occasion source id).2 := by
  unfold Engine.receiveSynAckSuccess
  rw [connection?_eq hw]
  cases hfiled : engine.store.connections[(⟨source, id, .receiver⟩ : ConnectionKey)]? with
  | none =>
    exact ReceiveMove.closed hr (erase_eq_self _ _ hfiled).symm
  | some connection =>
    have hkey := (hw.connection _ _ hfiled).1
    dsimp only
    by_cases hstatus : connection.status = .synAckSent
    · simp only [if_pos hstatus]
      apply ReceiveMove.closed hr
      rw [connections_retire_putConnection, hkey]
    · simp only [if_neg hstatus]
      exact ReceiveMove.ignored rfl

lemma receiveAck_move (hw : WellFiled engine.store) {source : Address} {datagram : Bytes}
    {id : UInt32} {frame : Frame} (hr : Reads datagram .ack id frame) :
    ReceiveMove engine occasion source datagram (engine.receiveAck occasion source id) [] := by
  unfold Engine.receiveAck
  rw [connection?_eq hw]
  cases hfiled : engine.store.connections[(⟨source, id, .sender⟩ : ConnectionKey)]? with
  | none => exact ReceiveMove.ignored rfl
  | some connection =>
    have hkey := (hw.connection _ _ hfiled).1
    dsimp only
    by_cases hstatus : .ackSent ≤ connection.status
    · simp only [if_pos hstatus]
      apply ReceiveMove.finished hr hfiled hstatus
      rw [connections_retire_putConnection, hkey]
    · simp only [if_neg hstatus]
      exact ReceiveMove.ignored rfl

lemma receiveFrame_move (hw : WellFiled engine.store) {source : Address} {datagram : Bytes}
    {frame : Frame} (hd : Frame.decode datagram = .ok frame) :
    ReceiveMove engine occasion source datagram (engine.receiveFrame occasion source frame).1
      (engine.receiveFrame occasion source frame).2 := by
  unfold Engine.receiveFrame
  split
  · rename_i hk
    exact receivePlain_move occasion hd hk
  · rename_i id hk hid
    exact receiveSyn_move occasion hw ⟨hd, hk, hid⟩
  · rename_i id hk hid
    exact receiveSynSuccess_move occasion hw ⟨hd, hk, hid⟩
  · rename_i id hk hid
    exact receiveSynFailure_move occasion hw ⟨hd, hk, hid⟩
  · rename_i id hk hid
    exact receiveSynAckSuccess_move occasion hw ⟨hd, hk, hid⟩
  · rename_i id hk hid
    exact receiveAck_move occasion hw ⟨hd, hk, hid⟩
  · exact ReceiveMove.ignored rfl

lemma peers_touchPeer (hw : WellFiled engine.store) (now : Nat) (source : Address) :
    (engine.touchPeer now source).store.peers =
      engine.store.peers.insert source ((peerOrNew engine.store now source).touch now) :=
  peers_withPeer engine now source _ (peerOrNew_filed hw.peer now source).1

lemma isFreshFrom_touchPeer (hw : WellFiled engine.store) (now : Nat) (source : Address)
    (timestamp : Option UInt16) :
    isFreshFrom (engine.touchPeer now source) source timestamp =
      isFreshFrom engine source timestamp := by
  cases timestamp with
  | none => rfl
  | some timestamp =>
    rw [isFreshFrom, isFreshFrom, peers_touchPeer hw, Std.ExtTreeMap.getElem?_insert_self,
      peerOrNew]
    cases engine.store.peers[source]? <;> rfl

lemma isFiledOrNew_congr {store other : Store} (hc : store.connections = other.connections)
    (hcfg : store.config = other.config) {key : ConnectionKey} {record : ConnectionRecord}
    (h : IsFiledOrNew store key record) : IsFiledOrNew other key record := by
  rcases h with hfiled | ⟨hnone, serial, now, hrecord⟩
  · exact Or.inl (hc ▸ hfiled)
  · refine Or.inr ⟨hc ▸ hnone, serial, now, ?_⟩
    rw [hrecord]
    simp only [Store.newConnection, hcfg]

lemma RetryMove.congr {other : Engine} {connection : ConnectionRecord} {after : Engine}
    {effects : List Effect} (hc : engine.store.connections = other.store.connections)
    (h : RetryMove engine occasion connection after effects) :
    RetryMove other occasion connection after effects := by
  cases h with
  | repeated role status buffered written bound filed =>
    exact .repeated role status buffered written bound (hc ▸ filed)
  | givenUp filed => exact .givenUp (hc ▸ filed)

/-- Moves only look at the records of handshakes, the configuration and what is tracked. -/
lemma ReceiveMove.congr {other : Engine} {source : Address} {datagram : Bytes} {after : Engine}
    {effects : List Effect} (hc : engine.store.connections = other.store.connections)
    (hcfg : engine.store.config = other.store.config)
    (hf : ∀ timestamp, isFreshFrom engine source timestamp = isFreshFrom other source timestamp)
    (h : ReceiveMove engine occasion source datagram after effects) :
    ReceiveMove other occasion source datagram after effects := by
  cases h with
  | ignored same => exact .ignored (hc ▸ same)
  | plain decoded kind fresh same => exact .plain decoded kind (hf _ ▸ fresh) (hc ▸ same)
  | rejected invalid record waiting filed =>
    refine .rejected ?_ (isFiledOrNew_congr hc hcfg record) waiting (hc ▸ filed)
    rcases invalid with damaged | ⟨frame, reads, stale⟩
    · exact Or.inl damaged
    · exact Or.inr ⟨frame, reads, hf _ ▸ stale⟩
  | confirmed reads record opened filed =>
    exact .confirmed reads (hc ▸ record) opened (hc ▸ filed)
  | accepted reads record waiting fresh filed =>
    exact .accepted reads (isFiledOrNew_congr hc hcfg record) waiting (hf _ ▸ fresh) (hc ▸ filed)
  | acknowledged reads record status filed =>
    exact .acknowledged reads (hc ▸ record) status (hc ▸ filed)
  | retried reads record retry => exact .retried reads (hc ▸ record) (retry.congr _ hc)
  | closed reads filed => exact .closed reads (hc ▸ filed)
  | finished reads record status filed => exact .finished reads (hc ▸ record) status (hc ▸ filed)

lemma PeersFiled.touchPeer (hw : PeersFiled engine.store.peers) (now : Nat) (source : Address) :
    PeersFiled (engine.touchPeer now source).store.peers :=
  hw.withPeer now source _ (fun _ => rfl) fun _ => rfl

theorem receive_move (hw : WellFiled engine.store) (source : Address) (datagram : Bytes) :
    ReceiveMove engine occasion source datagram (engine.receive occasion source datagram).1
      (engine.receive occasion source datagram).2 := by
  unfold Engine.receive
  split
  · rename_i frame hd
    have hwt : WellFiled (engine.touchPeer occasion.now source).store :=
      ⟨hw.peer.touchPeer _ _, by rw [connections_touchPeer]; exact hw.connection⟩
    exact (receiveFrame_move occasion hwt hd).congr occasion (connections_touchPeer _ _)
      (config_withPeer _ _ _ _) (isFreshFrom_touchPeer hw _ _)
  · rename_i header expected actual hd
    split
    · rename_i id hkind hid
      exact rejectSyn_move occasion hw (Or.inl ⟨header, expected, actual, hd, hkind, hid⟩)
    · exact ReceiveMove.ignored rfl
  · exact ReceiveMove.ignored rfl

lemma sweepPeer_move (address : Address) :
    SweepMove engine occasion (engine.sweepPeer occasion address).1
      (engine.sweepPeer occasion address).2 := by
  unfold Engine.sweepPeer
  split
  · exact SweepMove.kept rfl
  · split
    · exact SweepMove.kept rfl
    · apply SweepMove.kept
      dsimp only
      split
      · exact connections_retirePeer _ _ _
      · rfl

lemma resetOrExpire_cases (connection : ConnectionRecord) (now : Nat) :
    (∃ syn, connection.key.role = .sender ∧ connection.status = .synSent ∧
        connection.lastSent = some syn ∧ connection.failures + 1 ≤ connection.failureBound ∧
        connection.resetOrExpire now =
          ({ connection with failures := connection.failures + 1, lastInteraction := now },
            .resend syn)) ∨
      ∃ given, given.key = connection.key ∧ connection.resetOrExpire now = (given, .expire) := by
  unfold ConnectionRecord.resetOrExpire
  split
  · rename_i syn hrole hstatus hsyn
    simp only [ConnectionRecord.registerFailure, ConnectionRecord.touch, decide_eq_true_eq]
    by_cases hbound : connection.failures + 1 ≤ connection.failureBound
    · exact Or.inl ⟨syn, hrole, hstatus, hsyn, hbound, if_pos hbound⟩
    · exact Or.inr ⟨{ connection with failures := connection.failures + 1 }, rfl, if_neg hbound⟩
  · exact Or.inr ⟨_, rfl, rfl⟩

lemma sweepConnection_move (hw : WellFiled engine.store) (key : ConnectionKey) :
    SweepMove engine occasion (engine.sweepConnection occasion key).1
      (engine.sweepConnection occasion key).2 := by
  unfold Engine.sweepConnection
  rw [connection?_eq hw]
  cases hfiled : engine.store.connections[key]? with
  | none => exact SweepMove.kept rfl
  | some connection =>
    have hkey := (hw.connection key connection hfiled).1
    dsimp only
    split
    · exact SweepMove.kept rfl
    · rcases resetOrExpire_cases connection occasion.now with
        ⟨syn, hrole, hstatus, hsyn, hbound, hreset⟩ | ⟨given, hgiven, hreset⟩
      · rw [hreset]
        exact SweepMove.retried hfiled
          (resendSyn_move occasion hrole hstatus hsyn hbound rfl)
      · rw [hreset]
        exact SweepMove.expired (connections_retire_putConnection _ _ _)

lemma sendFrame_first {target : Address} {id : UInt32} {connection : ConnectionRecord}
    (hc : connectionOrNew engine.store occasion.now ⟨target, id, .sender⟩ = connection)
    (hkey : connection.key = ⟨target, id, .sender⟩) (frame : Bytes) :
    (engine.sendFrame occasion target (some id) frame).1.store.connections =
        afterTransmit engine.store.connections
          { connection with status := .synSent, lastInteraction := occasion.now } frame
          (occasion.accepts target frame) ∧
      (engine.sendFrame occasion target (some id) frame).2 =
        [.sent target frame (occasion.accepts target frame)] ∧
      (engine.sendFrame occasion target (some id) frame).1.messageIds = engine.messageIds := by
  have hrecord := snd_connectionOrInsert engine.store occasion.now ⟨target, id, .sender⟩
  rw [hc] at hrecord
  unfold Engine.sendFrame
  simp only [hrecord, ConnectionRecord.touch, connections_transmit, effects_transmit,
    messageIds_transmit, hkey, and_true]
  exact afterTransmit_connectionOrInsert _ _ _ rfl _ _

/-- A message draws a timestamp first, and then an id if it is to go by a handshake. -/
theorem send_move (hw : WellFiled engine.store) (target : Address) (fields : FieldMap)
    (delivery : Delivery) :
    SendMove engine occasion target fields
      (engine.send occasion target fields delivery).1
      (engine.send occasion target fields delivery).2.1
      (engine.send occasion target fields delivery).2.2 := by
  have hsame := @connections_drawTimestamp engine occasion.now target
  have hids : (engine.drawTimestamp occasion.now target).1.messageIds = engine.messageIds := rfl
  have hcfg : (engine.drawTimestamp occasion.now target).1.store.config = engine.store.config :=
    config_withPeer _ _ _ _
  have hdraw : ∀ {drawn timestamp}, engine.drawTimestamp occasion.now target = (drawn, timestamp) →
      (engine.drawTimestamp occasion.now target).2 = timestamp := fun hd => by rw [hd]
  unfold Engine.send
  cases hd : engine.drawTimestamp occasion.now target with
  | mk drawn timestamp =>
    rw [hd] at hsame hids hcfg
    dsimp only at hsame hids hcfg ⊢
    by_cases hneeded : delivery = .reliable ∨ timestamp = wraparoundTimestamp
    · simp only [Engine.drawMessageId, hneeded, decide_true, if_true, hids]
      split
      · exact SendMove.failed (Or.inr rfl) hsame
      · rename_i frame hframe
        have hrecord := isFiledOrNew_congr hsame hcfg (isFiledOrNew_connectionOrNew drawn.store
          occasion.now ⟨target, engine.messageIds.draw.1, .sender⟩)
        obtain ⟨hfiled, heffects, hlater⟩ := @sendFrame_first
          { drawn with messageIds := engine.messageIds.draw.2 } occasion target
          engine.messageIds.draw.1 _ rfl (hrecord.key hw.connection).1 frame
        rw [heffects]
        exact SendMove.first (hdraw hd) (writeFrame_eq_ok hframe).1 hrecord hlater (hsame ▸ hfiled)
    · simp only [Engine.drawMessageId, hneeded, decide_false, Bool.false_eq_true, if_false]
      split
      · exact SendMove.failed (Or.inl hids) hsame
      · rename_i frame hframe
        exact SendMove.plain (hdraw hd) (fun hw => hneeded (Or.inr hw)) (writeFrame_eq_ok hframe).1
          hids hsame

end Handlers

end ReliableDatagrams.Proofs
