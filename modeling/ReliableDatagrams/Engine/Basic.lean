import ReliableDatagrams.Field.Map
import ReliableDatagrams.Frame.Encode
import ReliableDatagrams.MessageId
import ReliableDatagrams.Store.Basic

/-!
# Engines

An engine runs the protocol at one address: it sends messages for an application, answers the
datagrams that come in, and hands the messages in them to the application. All that it knows is its
store of records and its counter of message ids.

A function of an engine takes place on an occasion and returns the engine after it together with its
effects, in their order: frames that were handed to the socket, messages that were delivered.
-/

namespace ReliableDatagrams

/-- A message that is delivered to an application. It has an id if it came by a handshake. -/
structure Message where
  source : Address
  id : Option UInt32
  fields : FieldMap
deriving DecidableEq, Repr, Inhabited

/-- What an engine does to the outside. -/
inductive Effect where
  | sent (target : Address) (frame : Bytes) (accepted : Bool)
  | delivered (message : Message)
deriving DecidableEq, Repr

/-- When something happens to an engine, and what its socket accepts meanwhile. -/
structure Occasion where
  now : Nat
  accepts : Address → Bytes → Bool

structure Engine where
  store : Store
  messageIds : MessageIds
deriving DecidableEq, Repr, Inhabited

namespace Engine

/-- An engine without records. Its first message has the given id, if that is not 0. -/
def starting (config : Config) (firstId : UInt32) : Engine :=
  { store := { config }, messageIds := ⟨firstId⟩ }

def config (engine : Engine) : Config :=
  engine.store.config

/-- Changes the record of a peer, which is created on first contact. -/
def withPeer {α : Type} (engine : Engine) (now : Nat) (address : Address)
    (change : PeerRecord → PeerRecord × α) : Engine × α :=
  let (store, peer) := engine.store.peer now address
  let (peer, value) := change peer
  ({ engine with store := store.putPeer peer }, value)

def touchPeer (engine : Engine) (now : Nat) (address : Address) : Engine :=
  (engine.withPeer now address fun peer => (peer.touch now, ())).1

/-- Draws the timestamp for the next frame to a peer. Sending counts as interaction with the peer, so
that its counter is only forgotten after silence in both directions. -/
def drawTimestamp (engine : Engine) (now : Nat) (address : Address) : Engine × UInt16 :=
  engine.withPeer now address fun peer => (peer.touch now).drawTimestamp

def putConnection (engine : Engine) (connection : ConnectionRecord) : Engine :=
  { engine with store := engine.store.putConnection connection }

def retire (engine : Engine) (now : Nat) (connection : ConnectionRecord) : Engine :=
  { engine with store := engine.store.markForDeletion now (Record.connection connection).handle }

/-- Hands a frame for a handshake to the socket and keeps it in the record. If the socket refuses it,
the handshake is given up. -/
def transmit (engine : Engine) (occasion : Occasion) (connection : ConnectionRecord)
    (frame : Bytes) : Engine × List Effect :=
  let connection := { connection with lastSent := some frame }
  let engine := engine.putConnection connection
  let accepted := occasion.accepts connection.key.peer frame
  let engine := if accepted then engine else engine.retire occasion.now connection
  (engine, [.sent connection.key.peer frame accepted])

def acknowledge (engine : Engine) (occasion : Occasion) (connection : ConnectionRecord)
    (kind : FrameKind) : Engine × List Effect :=
  engine.transmit occasion connection (encodeControl kind connection.key.messageId)

/-- Visits keys one after the other and collects the effects. -/
def visitAll {κ : Type} (visit : Engine → κ → Engine × List Effect) :
    Engine → List κ → Engine × List Effect
  | engine, [] => (engine, [])
  | engine, key :: rest =>
    let (engine, effects) := visit engine key
    let (engine, more) := visitAll visit engine rest
    (engine, effects ++ more)

end Engine

end ReliableDatagrams
