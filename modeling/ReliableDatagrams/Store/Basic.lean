import ReliableDatagrams.Config
import ReliableDatagrams.Store.Pending

/-!
# The record store

The store files the records of all peers and all handshakes. A record that is deleted leaves its
map and waits in the pool of pending deletions, so that the next record under the same key is
another one; the serial numbers tell them apart.
-/

namespace ReliableDatagrams

/-- A reference to a record: what it is filed under, and its serial number. -/
structure Handle where
  key : RecordKey
  serial : Nat
deriving DecidableEq, Repr, Inhabited

def Record.handle (record : Record) : Handle :=
  ⟨record.key, record.serial⟩

structure Store where
  config : Config
  peers : Std.ExtTreeMap Address PeerRecord := {}
  connections : Std.ExtTreeMap ConnectionKey ConnectionRecord := {}
  pending : PendingPool := {}
  nextSerial : Nat := 0
deriving DecidableEq, Repr, Inhabited

namespace Store

/-- The peer's record, if there is one that is not being deleted. -/
def peer? (store : Store) (address : Address) : Option PeerRecord :=
  (store.peers[address]?).filter fun peer => !peer.isBeingDeleted

/-- The handshake's record, if there is one that is not being deleted. -/
def connection? (store : Store) (key : ConnectionKey) : Option ConnectionRecord :=
  (store.connections[key]?).filter fun connection => !connection.isBeingDeleted

def newPeer (store : Store) (now : Nat) (address : Address) : PeerRecord :=
  { serial := store.nextSerial
    address
    timeout := store.config.peerTimeout
    maxTimeouts := store.config.peerMaxTimeouts
    lastInteraction := now }

def newConnection (store : Store) (now : Nat) (key : ConnectionKey) : ConnectionRecord :=
  { serial := store.nextSerial
    key
    timeout := store.config.connectionTimeout
    failureBound := match key.role with
      | .sender => store.config.senderFailureBound
      | .receiver => store.config.receiverFailureBound
    lastInteraction := now }

def putPeer (store : Store) (peer : PeerRecord) : Store :=
  { store with peers := store.peers.insert peer.address peer }

def putConnection (store : Store) (connection : ConnectionRecord) : Store :=
  { store with connections := store.connections.insert connection.key connection }

/-- The record filed for a peer, which is created on first contact. -/
def peer (store : Store) (now : Nat) (address : Address) : Store × PeerRecord :=
  match store.peers[address]? with
  | some peer => (store, peer)
  | none =>
    let peer := store.newPeer now address
    ({ store.putPeer peer with nextSerial := store.nextSerial + 1 }, peer)

/-- The record filed for a handshake, which is created if there is none, and whether it was. -/
def connectionOrInsert (store : Store) (now : Nat) (key : ConnectionKey) :
    Store × ConnectionRecord × Bool :=
  match store.connections[key]? with
  | some connection => (store, connection, false)
  | none =>
    let connection := store.newConnection now key
    ({ store.putConnection connection with nextSerial := store.nextSerial + 1 }, connection, true)

/-- Moves a record out of its table into the pool, if it is the one that is filed there. -/
def markForDeletion (store : Store) (now : Nat) (handle : Handle) : Store :=
  match handle.key with
  | .peer address =>
    match store.peers[address]? with
    | some peer =>
      if peer.serial = handle.serial then
        { store with
          peers := store.peers.erase address
          pending := store.pending.add now (.peer { peer with isBeingDeleted := true }) }
      else store
    | none => store
  | .connection key =>
    match store.connections[key]? with
    | some connection =>
      if connection.serial = handle.serial then
        { store with
          connections := store.connections.erase key
          pending := store.pending.add now
            (.connection { connection with isBeingDeleted := true }) }
      else store
    | none => store

def snapshot (store : Store) : List Record :=
  store.peers.values.map .peer ++ store.connections.values.map .connection

def sweepDeleted (store : Store) (now gracePeriod : Nat) (isHeld : Nat → Bool) : Store × Nat :=
  let (pending, freed) := store.pending.sweep now gracePeriod isHeld
  ({ store with pending }, freed)

def activeConnectionCount (store : Store) : Nat :=
  store.connections.size

def peerCount (store : Store) : Nat :=
  store.peers.size

def pendingDeleteCount (store : Store) : Nat :=
  store.pending.size

/-- The record that a handle refers to, filed or pending. -/
def find? (store : Store) (handle : Handle) : Option Record :=
  let filed : Option Record := match handle.key with
    | .peer address => (store.peers[address]?).map .peer
    | .connection key => (store.connections[key]?).map .connection
  match filed with
  | some record =>
    if record.serial = handle.serial then some record else store.pending.find? handle.serial
  | none => store.pending.find? handle.serial

def replace (store : Store) (record : Record) : Store :=
  match record with
  | .peer peer =>
    if (store.peers[peer.address]?).map PeerRecord.serial = some peer.serial then
      store.putPeer peer
    else { store with pending := store.pending.modify peer.serial fun _ => record }
  | .connection connection =>
    if (store.connections[connection.key]?).map ConnectionRecord.serial =
        some connection.serial then
      store.putConnection connection
    else { store with pending := store.pending.modify connection.serial fun _ => record }

end Store

end ReliableDatagrams
