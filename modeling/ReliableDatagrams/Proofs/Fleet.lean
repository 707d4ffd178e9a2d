import ReliableDatagrams.Proofs.FiledRecords
import ReliableDatagrams.Proofs.MessageIdDraws
import ReliableDatagrams.Simulation.Basic

/-!
# Fleets of engines

A fleet is any number of engines on a network that may lose, repeat, delay and reorder datagrams,
but not alter them. What a socket has accepted stays on the wire, to arrive at any later time, any
number of times or never. Every engine has its own clock, and at every step its socket may refuse
what it likes.

The ledger of a fleet notes what its applications asked for and what was delivered to them.
-/

namespace ReliableDatagrams.Proofs

/-- A call of `send` by an application, and what it returned. -/
structure SendCall where
  source : Address
  target : Address
  fields : FieldMap
  delivery : Delivery
  result : Except SendError (Option UInt32)
  /-- The call took an id from the counter, even if it could not send. -/
  drewId : Bool
deriving DecidableEq

/-- The calls and the deliveries so far, in their order. -/
structure Ledger where
  calls : List SendCall := []
  arrivals : List Arrival := []

structure Station where
  engine : Engine
  now : Nat := 0

structure Fleet extends Ledger where
  stations : Table Address Station := {}
  wire : List Datagram := []

inductive FleetStep where
  | send (host target : Address) (fields : FieldMap) (delivery : Delivery)
    (accepts : Address → Bytes → Bool)
  /-- A datagram arrives, if it is on the wire. -/
  | receive (datagram : Datagram) (accepts : Address → Bytes → Bool)
  | timeoutSweep (host : Address) (accepts : Address → Bytes → Bool)
  | deleteSweep (host : Address)
  | wait (host : Address) (duration : Nat)

def datagramOf? (source : Address) : Effect → Option Datagram
  | .sent target bytes true => some { source, target, bytes }
  | _ => none

def arrivalOf? (target : Address) : Effect → Option Arrival
  | .delivered message => some { target, message }
  | _ => none

def Ledger.hear (ledger : Ledger) (host : Address) (effects : List Effect) : Ledger :=
  { ledger with arrivals := ledger.arrivals ++ effects.filterMap (arrivalOf? host) }

def Ledger.post (ledger : Ledger) (call : SendCall) : Ledger :=
  { ledger with calls := ledger.calls ++ [call] }

namespace Fleet

/-- An engine for each configuration, before anything was sent. -/
def ofSpecs (specs : List HostSpec) : Fleet where
  stations := specs.foldl (fun stations spec =>
    stations.insert spec.config.selfAddress
      { engine := Engine.starting spec.config spec.firstId }) {}

/-- A station comes to a new state with some effects. -/
def update (fleet : Fleet) (host : Address) (station : Station) (effects : List Effect) : Fleet where
  toLedger := fleet.toLedger.hear host effects
  stations := fleet.stations.insert host station
  wire := fleet.wire ++ effects.filterMap (datagramOf? host)

def send (fleet : Fleet) (host : Address) (station : Station) (target : Address)
    (fields : FieldMap) (delivery : Delivery) (accepts : Address → Bytes → Bool) : Fleet :=
  let (engine, effects, result) := station.engine.send ⟨station.now, accepts⟩ target fields delivery
  let drewId := decide (engine.messageIds ≠ station.engine.messageIds)
  let call := { source := host, target, fields, delivery, result, drewId }
  let fleet := fleet.update host { station with engine } effects
  { fleet with toLedger := fleet.toLedger.post call }

def runTask (fleet : Fleet) (host : Address) (station : Station) (task : EngineTask)
    (accepts : Address → Bytes → Bool) : Fleet :=
  let (engine, effects) := station.engine.run ⟨station.now, accepts⟩ task
  fleet.update host { station with engine } effects

/-- Takes a step; one of an unknown host, or with a datagram that never was on the wire, changes
nothing. -/
def step (fleet : Fleet) : FleetStep → Fleet
  | .send host target fields delivery accepts =>
    (fleet.stations.get? host).elim fleet fun station =>
      fleet.send host station target fields delivery accepts
  | .receive datagram accepts =>
    if datagram ∈ fleet.wire then
      (fleet.stations.get? datagram.target).elim fleet fun station =>
        fleet.runTask datagram.target station (.receive datagram.source datagram.bytes) accepts
    else fleet
  | .timeoutSweep host accepts =>
    (fleet.stations.get? host).elim fleet fun station =>
      fleet.runTask host station .timeoutSweep accepts
  | .deleteSweep host =>
    (fleet.stations.get? host).elim fleet fun station =>
      fleet.runTask host station .deleteSweep fun _ _ => true
  | .wait host duration =>
    (fleet.stations.get? host).elim fleet fun station =>
      fleet.update host { station with now := station.now + duration } []

def run (fleet : Fleet) (steps : List FleetStep) : Fleet :=
  steps.foldl step fleet

/-- How many ids the applications of a host have used up. -/
def idsDrawn (fleet : Fleet) (host : Address) : Nat :=
  fleet.calls.countP fun call => decide (call.source = host) && call.drewId

def sendsOf (fleet : Fleet) (host : Address) (id : UInt32) : List SendCall :=
  fleet.calls.filter fun call => call.source = host ∧ call.result = .ok (some id)

/-- The record that a host holds of a message that it sent. -/
def senderRecord? (fleet : Fleet) (host peer : Address) (id : UInt32) : Option ConnectionRecord :=
  (fleet.stations.get? host).bind fun station =>
    station.engine.store.connection? ⟨peer, id, .sender⟩

end Fleet

inductive FleetMove (fleet : Fleet) : Fleet → Prop where
  | unchanged : FleetMove fleet fleet
  | sent {host : Address} {station : Station} (there : fleet.stations.get? host = some station)
      (target : Address) (fields : FieldMap) (delivery : Delivery)
      (accepts : Address → Bytes → Bool) :
      FleetMove fleet (fleet.send host station target fields delivery accepts)
  | ran {host : Address} {station : Station} (there : fleet.stations.get? host = some station)
      (task : EngineTask) (accepts : Address → Bytes → Bool)
      (onWire : ∀ source bytes, task = .receive source bytes →
        { source, target := host, bytes } ∈ fleet.wire) :
      FleetMove fleet (fleet.runTask host station task accepts)
  | waited {host : Address} {station : Station} (there : fleet.stations.get? host = some station)
      (duration : Nat) :
      FleetMove fleet (fleet.update host { station with now := station.now + duration } [])

lemma elim_move {fleet : Fleet} {host : Address} {act : Station → Fleet}
    (h : ∀ station, fleet.stations.get? host = some station → FleetMove fleet (act station)) :
    FleetMove fleet ((fleet.stations.get? host).elim fleet act) := by
  cases hthere : fleet.stations.get? host with
  | none => exact .unchanged
  | some station => exact h station hthere

lemma step_move (fleet : Fleet) (step : FleetStep) : FleetMove fleet (fleet.step step) := by
  cases step with
  | send host target fields delivery accepts =>
    exact elim_move fun station hthere => .sent hthere target fields delivery accepts
  | receive datagram accepts =>
    unfold Fleet.step
    dsimp only
    split
    · rename_i hwire
      apply elim_move
      intro station hthere
      refine .ran hthere _ accepts ?_
      intro source bytes htask
      cases htask
      exact hwire
    · exact .unchanged
  | timeoutSweep host accepts =>
    exact elim_move fun station hthere => .ran hthere _ accepts nofun
  | deleteSweep host =>
    exact elim_move fun station hthere => .ran hthere _ _ nofun
  | wait host duration =>
    exact elim_move fun station hthere => .waited hthere duration

lemma run_induction {Inv : Fleet → Prop}
    (hmove : ∀ {fleet after : Fleet}, Inv fleet → FleetMove fleet after → Inv after)
    {fleet : Fleet} (h : Inv fleet) (steps : List FleetStep) : Inv (fleet.run steps) := by
  induction steps generalizing fleet with
  | nil => exact h
  | cons step rest ih => exact ih (hmove h (step_move fleet step))

lemma run_append (fleet : Fleet) (before after : List FleetStep) :
    fleet.run (before ++ after) = (fleet.run before).run after :=
  List.foldl_append

end ReliableDatagrams.Proofs
