import ReliableDatagrams.Address.Text
import ReliableDatagrams.Record.Connection
import ReliableDatagrams.Record.Peer

/-!
# Records

The two kinds of records have a life cycle in common: they are touched, found idle, asked what to do
about it, and deleted in the end.
-/

namespace ReliableDatagrams

/-- What a record is filed under. -/
inductive RecordKey where
  | peer (address : Address)
  | connection (key : ConnectionKey)
deriving DecidableEq, Repr, Inhabited

inductive Record where
  | peer (record : PeerRecord)
  | connection (record : ConnectionRecord)
deriving DecidableEq, Repr, Inhabited

namespace RecordKey

def address : RecordKey → Address
  | peer address => address
  | connection key => key.peer

def text : RecordKey → String
  | peer address => s!"Peer({address.toText})"
  | connection key =>
    let role := match key.role with
      | .sender => "Sender"
      | .receiver => "Receiver"
    s!"Connection(ConnectionKey \x7b peer: {key.peer.toText}, message_id: {key.messageId}, " ++
      s!"role: {role} \x7d)"

end RecordKey

namespace Record

def key : Record → RecordKey
  | peer record => .peer record.address
  | connection record => .connection record.key

def serial : Record → Nat
  | peer record => record.serial
  | connection record => record.serial

def timeout : Record → Nat
  | peer record => record.timeout
  | connection record => record.timeout

def isBeingDeleted : Record → Bool
  | peer record => record.isBeingDeleted
  | connection record => record.isBeingDeleted

def markBeingDeleted : Record → Record
  | peer record => .peer { record with isBeingDeleted := true }
  | connection record => .connection { record with isBeingDeleted := true }

def touch (now : Nat) : Record → Record
  | peer record => .peer (record.touch now)
  | connection record => .connection (record.touch now)

def idleTime (now : Nat) : Record → Nat
  | peer record => record.idleTime now
  | connection record => record.idleTime now

def resetOrExpire (now : Nat) : Record → Record × ExpiryAction
  | peer record => let (record, action) := record.resetOrExpire now; (.peer record, action)
  | connection record =>
    let (record, action) := record.resetOrExpire now; (.connection record, action)

end Record

end ReliableDatagrams
