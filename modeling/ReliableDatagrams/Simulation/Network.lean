import ReliableDatagrams.Address.Basic
import ReliableDatagrams.Frame.Decode

/-!
# Simulated networks

A network keeps the datagrams that are on their way in one queue, and all that were ever handed to
it in a log. Filters single out datagrams that get lost.
-/

namespace ReliableDatagrams

structure Datagram where
  source : Address
  target : Address
  bytes : Bytes
deriving DecidableEq, Repr, Inhabited

def Datagram.kind? (datagram : Datagram) : Option FrameKind :=
  announcedKind? datagram.bytes

/-- Criteria for datagrams; one that is left out always holds. -/
structure Filter where
  kinds : Option (List FrameKind) := none
  sources : Option (List Address) := none
  targets : Option (List Address) := none
deriving DecidableEq, Repr, Inhabited

def Filter.catches (filter : Filter) (datagram : Datagram) : Bool :=
  (filter.kinds.all fun kinds => datagram.kind?.any kinds.contains) &&
    (filter.sources.all fun sources => sources.contains datagram.source) &&
    (filter.targets.all fun targets => targets.contains datagram.target)

/-- What becomes of a datagram that is sent. -/
inductive Fate where
  | queued
  | dropped
  /-- The socket refused it, so that it never came to the network. -/
  | failed
deriving DecidableEq, Repr, Inhabited

structure Network where
  inFlight : List Datagram := []
  /-- All datagrams that were sent into the network, the lost ones too, the latest first. -/
  history : List Datagram := []
  dropCount : Nat := 0
deriving DecidableEq, Repr, Inhabited

namespace Network

def sent (network : Network) : List Datagram :=
  network.history.reverse

def inject (network : Network) (datagram : Datagram) : Network :=
  { network with inFlight := network.inFlight ++ [datagram] }

/-- Takes a datagram that is sent, and tells whether it is on its way or lost. -/
def transmit (network : Network) (isLost : Bool) (datagram : Datagram) : Network × Fate :=
  let network := { network with history := datagram :: network.history }
  if isLost then ({ network with dropCount := network.dropCount + 1 }, .dropped)
  else (network.inject datagram, .queued)

def countSent (network : Network) (kind : FrameKind) : Nat :=
  network.sent.countP fun datagram => datagram.kind? = some kind

end Network

/-- Bytes that are given, or that were sent before and are tampered with. -/
structure Payload where
  origin : Bytes ⊕ Nat
  /-- The length that the bytes are cut to. -/
  length : Option Nat := none
  /-- Bytes that are xored with others, by their offsets. -/
  flips : List (Nat × UInt8) := []
deriving DecidableEq, Repr

/-- The bytes of a payload; there are none if nothing was sent at its index. -/
def Payload.bytes? (payload : Payload) (network : Network) : Option Bytes := do
  let bytes ← match payload.origin with
    | .inl bytes => some bytes
    | .inr index => network.sent[index]?.map Datagram.bytes
  let cut := match payload.length with
    | some length => bytes.take length
    | none => bytes
  return payload.flips.foldl (fun bytes (offset, mask) => bytes.modify offset (· ^^^ mask)) cut

end ReliableDatagrams
