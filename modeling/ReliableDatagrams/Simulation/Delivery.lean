import ReliableDatagrams.Simulation.Basic

/-!
# Delivery of what is in flight

Datagrams are delivered one after the other, and those that are sent in answer too, until none is in
flight any more. A datagram sets off at most three further ones, apart from those that repeat the
first frame of a handshake; each of these takes one from the failures that its record puts up with,
and is worth two datagrams more. `deliveryBound` adds this up.
-/

namespace ReliableDatagrams

/-- How often the first frame of a handshake may still be repeated. -/
def ConnectionRecord.retriesLeft (connection : ConnectionRecord) : Nat :=
  if connection.key.role = .sender ∧ connection.status = .synSent then
    connection.failureBound.toNat - connection.failures.toNat
  else 0

namespace Simulation

def connections (simulation : Simulation) : List ConnectionRecord :=
  simulation.hosts.values.flatMap fun host => host.engine.store.connections.values

def retriesLeft (simulation : Simulation) : Nat :=
  simulation.connections.foldr (fun connection total => connection.retriesLeft + total) 0

/-- The number of datagrams that are delivered at most before none is in flight. -/
def deliveryBound (simulation : Simulation) : Nat :=
  4 * simulation.network.inFlight.length + 2 * simulation.retriesLeft

/-- Delivers the next datagram, and tells whether there is a host at its target. -/
def deliverNext? (simulation : Simulation) : Option (Simulation × Bool) :=
  match simulation.network.inFlight with
  | [] => none
  | datagram :: rest =>
    let simulation :=
      { simulation with network := { simulation.network with inFlight := rest } }
    some (simulation.runTask datagram.target (.receive datagram.source datagram.bytes),
      simulation.hosts.contains datagram.target)

/-- Delivers at most a number of datagrams, and counts those that found a host. -/
def deliverUpTo : (limit : Nat) → Simulation → (count : Nat) → Simulation × Nat
  | 0, simulation, count => (simulation, count)
  | limit + 1, simulation, count =>
    match simulation.deliverNext? with
    | none => (simulation, count)
    | some (simulation, isKnown) =>
      deliverUpTo limit simulation (if isKnown then count + 1 else count)

/-- Delivers until nothing is in flight, and counts the datagrams that found a host. -/
def deliverAll (simulation : Simulation) : Simulation × Nat :=
  deliverUpTo simulation.deliveryBound simulation 0

end Simulation

end ReliableDatagrams
