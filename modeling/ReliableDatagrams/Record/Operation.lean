import ReliableDatagrams.Record.Basic

/-!
# Operations on a record

The operations that whoever holds a record can perform on it, as data. Some are for one of the two
kinds only.
-/

namespace ReliableDatagrams

/-- Something to do with a record. -/
inductive RecordOperation where
  | inspect
  | describe
  | touch
  | markBeingDeleted
  | resetOrExpire
  | accept (timestamp : UInt16)
  | resetTimestamps (timestamp : Option UInt16)
  | drawTimestamps (count : Nat)
  | setStatus (rank : Nat)
  | setLastSent (frame : Option Bytes)
  | registerFailure
deriving DecidableEq, Repr

/-- What an operation on a record answers. -/
inductive RecordAnswer where
  | done
  | text (value : String)
  | flag (value : Bool)
  | timestamp (value : Option UInt16)
  | action (value : ExpiryAction)
  | unknownStatus
  | notForThisKind
deriving DecidableEq, Repr

namespace Record

def perform (now : Nat) (record : Record) (operation : RecordOperation) : Record × RecordAnswer :=
  match operation, record with
  | .inspect, record => (record, .done)
  | .describe, record => (record, .text record.key.text)
  | .touch, record => (record.touch now, .done)
  | .markBeingDeleted, record => (record.markBeingDeleted, .done)
  | .resetOrExpire, record =>
    let (record, action) := record.resetOrExpire now
    (record, .action action)
  | .accept timestamp, .peer endpoint =>
    let (endpoint, accepted) := endpoint.accept timestamp
    (.peer endpoint, .flag accepted)
  | .resetTimestamps timestamp, .peer endpoint =>
    (.peer (endpoint.resetTimestamps timestamp), .done)
  | .drawTimestamps count, .peer endpoint =>
    let (endpoint, last) := endpoint.drawTimestamps count none
    (.peer endpoint, .timestamp last)
  | .setStatus rank, .connection handshake =>
    match HandshakeStatus.ofRank? rank with
    | some status => (.connection { handshake with status }, .done)
    | none => (record, .unknownStatus)
  | .setLastSent frame, .connection handshake =>
    (.connection { handshake with lastSent := frame }, .done)
  | .registerFailure, .connection handshake =>
    let (handshake, withinBound) := handshake.registerFailure
    (.connection handshake, .flag withinBound)
  | _, record => (record, .notForThisKind)

end Record

end ReliableDatagrams
