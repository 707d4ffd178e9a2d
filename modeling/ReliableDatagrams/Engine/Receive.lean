import ReliableDatagrams.Engine.Send

/-!
# Receiving datagrams

A reliable message takes four frames:

    sender                                receiver
      | --- first frame, with the message --> |   delivered, once
      | <-- success ------------------------- |
      | --- success seen -------------------> |   closed
      | <-- acknowledgement ----------------- |
    closed

A first frame that fails its checksum, or whose timestamp is stale, is answered with a failure, upon
which the sender repeats it at once with a fresh timestamp. The other three carry no checksum and no
timestamp and are never rejected. `Engine.receive` takes any bytes from anywhere.
-/

namespace ReliableDatagrams

namespace Engine

/-- Takes a timestamp for accepted if it is fresh; a frame without timestamp always is. -/
def acceptTimestamp (engine : Engine) (now : Nat) (source : Address) :
    Option UInt16 → Engine × Bool
  | none => (engine, true)
  | some timestamp => engine.withPeer now source fun peer => peer.accept timestamp

def resetTimestamps (engine : Engine) (now : Nat) (source : Address)
    (timestamp : Option UInt16) : Engine :=
  (engine.withPeer now source fun peer => (peer.resetTimestamps timestamp, ())).1

def receivePlain (engine : Engine) (occasion : Occasion) (source : Address)
    (timestamp : Option UInt16) (fields : FieldMap) : Engine × List Effect :=
  let (engine, isFresh) := engine.acceptTimestamp occasion.now source timestamp
  (engine, if isFresh then [.delivered { source, id := none, fields }] else [])

/-- Answers a first frame that is damaged or stale. When there are too many of them the handshake is
given up; once one was accepted, damaged copies are ignored. -/
def rejectSyn (engine : Engine) (occasion : Occasion) (source : Address) (id : UInt32) :
    Engine × List Effect :=
  let (store, connection, _) :=
    engine.store.connectionOrInsert occasion.now ⟨source, id, .receiver⟩
  let engine := { engine with store }
  if .synAckSent ≤ connection.status then (engine, [])
  else
    let (connection, withinBound) := connection.registerFailure
    let connection := connection.touch occasion.now
    let (engine, effects) := engine.acknowledge occasion connection .synFailure
    (if withinBound then engine else engine.retire occasion.now connection, effects)

/-- The first frame of a handshake is delivered if it is fresh, and confirmed. A copy of one that was
accepted before is confirmed again. -/
def receiveSyn (engine : Engine) (occasion : Occasion) (source : Address) (id : UInt32)
    (timestamp : Option UInt16) (fields : FieldMap) : Engine × List Effect :=
  let (store, connection, _) :=
    engine.store.connectionOrInsert occasion.now ⟨source, id, .receiver⟩
  let engine := { engine with store }
  if .synAckSent ≤ connection.status then
    engine.acknowledge occasion (connection.touch occasion.now) .synSuccess
  else
    match engine.acceptTimestamp occasion.now source timestamp with
    | (engine, false) => engine.rejectSyn occasion source id
    | (engine, true) =>
      let engine := engine.resetTimestamps occasion.now source timestamp
      let connection := { connection with status := .synAckSent }
      let (engine, effects) :=
        engine.acknowledge occasion (connection.touch occasion.now) .synSuccess
      (engine, effects ++ [.delivered { source, id := some id, fields }])

def receiveSynSuccess (engine : Engine) (occasion : Occasion) (source : Address) (id : UInt32) :
    Engine × List Effect :=
  match engine.store.connection? ⟨source, id, .sender⟩ with
  | none => (engine, [])
  | some connection =>
    if connection.status = .synSent ∨ connection.status = .ackSent then
      let connection := { connection with status := .ackSent }
      engine.acknowledge occasion (connection.touch occasion.now) .synAckSuccess
    else (engine, [])

/-- The receiver rejected the first frame, which is repeated while the failure bound holds. -/
def receiveSynFailure (engine : Engine) (occasion : Occasion) (source : Address) (id : UInt32) :
    Engine × List Effect :=
  match engine.store.connection? ⟨source, id, .sender⟩ with
  | none => (engine, [])
  | some connection =>
    match connection.status, connection.lastSent with
    | .synSent, some syn =>
      let (connection, withinBound) := connection.registerFailure
      if withinBound then
        let connection := connection.touch occasion.now
        (engine.putConnection connection).resendSyn occasion connection syn
      else ((engine.putConnection connection).retire occasion.now connection, [])
    | _, _ => (engine, [])

/-- The sender knows that the message has arrived. Its record may be gone already and the
acknowledgement lost, so a handshake that is unknown is acknowledged too. -/
def receiveSynAckSuccess (engine : Engine) (occasion : Occasion) (source : Address)
    (id : UInt32) : Engine × List Effect :=
  let reply := encodeControl .ack id
  let sent := [Effect.sent source reply (occasion.accepts source reply)]
  match engine.store.connection? ⟨source, id, .receiver⟩ with
  | none => (engine, sent)
  | some connection =>
    if connection.status = .synAckSent then
      let connection := { connection with status := .closed, lastSent := some reply }
      ((engine.putConnection connection).retire occasion.now connection, sent)
    else (engine, [])

def receiveAck (engine : Engine) (occasion : Occasion) (source : Address) (id : UInt32) : Engine :=
  match engine.store.connection? ⟨source, id, .sender⟩ with
  | none => engine
  | some connection =>
    if .ackSent ≤ connection.status then
      let connection := { connection with status := .closed }
      (engine.putConnection connection).retire occasion.now connection
    else engine

def receiveFrame (engine : Engine) (occasion : Occasion) (source : Address) (frame : Frame) :
    Engine × List Effect :=
  match frame.kind, frame.header.messageId with
  | .plain, _ => engine.receivePlain occasion source frame.timestamp frame.fields
  | .syn, some id => engine.receiveSyn occasion source id frame.timestamp frame.fields
  | .synSuccess, some id => engine.receiveSynSuccess occasion source id
  | .synFailure, some id => engine.receiveSynFailure occasion source id
  | .synAckSuccess, some id => engine.receiveSynAckSuccess occasion source id
  | .ack, some id => (engine.receiveAck occasion source id, [])
  | _, none => (engine, [])

/-- Deals with a datagram. What is no frame is ignored, except for a damaged first frame of a
handshake, whose sender is told to repeat it. -/
def receive (engine : Engine) (occasion : Occasion) (source : Address) (datagram : Bytes) :
    Engine × List Effect :=
  match Frame.decode datagram with
  | .ok frame =>
    (engine.touchPeer occasion.now source).receiveFrame occasion source frame
  | .error (.checksumMismatch header _ _) =>
    match header.flags.kind?, header.messageId with
    | some .syn, some id => engine.rejectSyn occasion source id
    | _, _ => (engine, [])
  | .error _ => (engine, [])

end Engine

end ReliableDatagrams
