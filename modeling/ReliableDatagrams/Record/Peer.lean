import ReliableDatagrams.Address.Basic
import ReliableDatagrams.Record.Expiry

/-!
# Peer records

What is known about a remote endpoint: when it was last heard of or sent to, which of its
timestamps was accepted last, and which timestamp the next frame to it carries.

Timestamps are a counter that the sender of a frame chooses. A frame is accepted if nothing was
tracked since the last reset or if its timestamp is greater than the last accepted one, so that
duplicates and stale frames are rejected.
-/

namespace ReliableDatagrams

/-- The record of a remote endpoint. -/
structure PeerRecord where
  /-- Tells the record from others that are or were filed for the same endpoint. -/
  serial : Nat
  address : Address
  timeout : Nat
  /-- The number of timeouts in a row after which the record is given up. -/
  maxTimeouts : UInt32
  isBeingDeleted : Bool := false
  lastTimestamp : Option UInt16 := none
  nextTimestamp : UInt16 := 0
  timeouts : UInt32 := 0
  lastInteraction : Nat
deriving DecidableEq, Repr, Inhabited

namespace PeerRecord

/-- Nothing is tracked for the peer, or the timestamp is greater than the tracked one. -/
def isFresh (peer : PeerRecord) (timestamp : UInt16) : Bool :=
  match peer.lastTimestamp with
  | none => true
  | some last => last < timestamp

/-- Tracks a timestamp if it is fresh, and tells whether it is. -/
def accept (peer : PeerRecord) (timestamp : UInt16) : PeerRecord × Bool :=
  if peer.isFresh timestamp then ({ peer with lastTimestamp := some timestamp }, true)
  else (peer, false)

/-- Forgets the tracked timestamp and starts from the given one, if any. -/
def resetTimestamps (peer : PeerRecord) (timestamp : Option UInt16) : PeerRecord :=
  { peer with lastTimestamp := timestamp }

/-- The timestamp for the next frame to the peer; the counter wraps around. -/
def drawTimestamp (peer : PeerRecord) : PeerRecord × UInt16 :=
  ({ peer with nextTimestamp := peer.nextTimestamp + 1 }, peer.nextTimestamp)

/-- Draws several timestamps and returns the last of them. -/
def drawTimestamps : (count : Nat) → (last : Option UInt16) → PeerRecord →
    PeerRecord × Option UInt16
  | 0, last, peer => (peer, last)
  | count + 1, _, peer => drawTimestamps count (some peer.drawTimestamp.2) peer.drawTimestamp.1

def touch (peer : PeerRecord) (now : Nat) : PeerRecord :=
  { peer with lastInteraction := now, timeouts := 0 }

def idleTime (peer : PeerRecord) (now : Nat) : Nat :=
  now - peer.lastInteraction

/-- One more timeout: the tracked timestamp is forgotten and the idle time starts anew. The timeouts are
counted with 32 bits. -/
def resetOrExpire (peer : PeerRecord) (now : Nat) : PeerRecord × ExpiryAction :=
  let timeouts := peer.timeouts + 1
  ({ peer with timeouts, lastTimestamp := none, lastInteraction := now },
    if peer.maxTimeouts ≤ timeouts then .expire else .reset)

end PeerRecord

end ReliableDatagrams
