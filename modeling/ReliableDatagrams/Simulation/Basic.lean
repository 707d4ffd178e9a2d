import ReliableDatagrams.Engine.Sweep
import ReliableDatagrams.Execution.Executor
import ReliableDatagrams.Simulation.Network
import ReliableDatagrams.Table

/-!
# Simulations

A simulation connects engines by a network under one clock. Each engine has an executor, whose jobs
are the engine's tasks; they take no time. What is sent and what is delivered is noted, to be looked
at between steps.
-/

namespace ReliableDatagrams

/-- An engine, and the executor of its tasks. -/
structure Host where
  engine : Engine
  executor : Executor EngineTask
deriving Repr, Inhabited

/-- What a host is made from. -/
structure HostSpec where
  config : Config
  firstId : UInt32 := 1
deriving DecidableEq, Repr, Inhabited

def HostSpec.create (spec : HostSpec) : Except ConfigError Host :=
  match spec.config.validate with
  | .error error => .error error
  | .ok () =>
    .ok { engine := .starting spec.config spec.firstId
          executor := .withPool spec.config.schedulerTick spec.config.workerCount }

/-- A datagram that was given to a socket. -/
structure Transmission where
  time : Nat
  datagram : Datagram
  fate : Fate
deriving DecidableEq, Repr, Inhabited

/-- What transmissions are sorted by: time, the texts of source and target, bytes. -/
def Transmission.sortKeys (transmission : Transmission) : List (List Nat) :=
  [[transmission.time],
    transmission.datagram.source.toText.toList.map Char.toNat,
    transmission.datagram.target.toText.toList.map Char.toNat,
    transmission.datagram.bytes.map UInt8.toNat]

def Transmission.precedes (a b : Transmission) : Bool :=
  (compare a.sortKeys b.sortKeys).isLE

/-- A message that was delivered at a host. -/
structure Arrival where
  target : Address
  message : Message
deriving DecidableEq, Repr, Inhabited

structure Simulation where
  now : Nat := 0
  hosts : Table Address Host := {}
  network : Network := {}
  /-- Catches what the network loses. -/
  dropFilter : Option Filter := none
  /-- Catches what the sockets refuse. -/
  failFilter : Option Filter := none
  /-- What was given to sockets, the latest first. -/
  transmissionHistory : List Transmission := []
  /-- What was delivered, the latest first. -/
  arrivalHistory : List Arrival := []
deriving Repr, Inhabited

namespace Simulation

def transmissions (simulation : Simulation) : List Transmission :=
  simulation.transmissionHistory.reverse

def arrivals (simulation : Simulation) : List Arrival :=
  simulation.arrivalHistory.reverse

/-- The hosts of a simulation, or the first fault in their configurations. -/
def ofSpecs (specs : List HostSpec) : Except ConfigError Simulation :=
  specs.foldlM (fun simulation spec =>
    spec.create.map fun host =>
      { simulation with hosts := simulation.hosts.insert spec.config.selfAddress host }) {}

def isRefused (simulation : Simulation) (datagram : Datagram) : Bool :=
  simulation.failFilter.any fun filter => filter.catches datagram

def occasion (simulation : Simulation) (source : Address) : Occasion where
  now := simulation.now
  accepts target bytes := !simulation.isRefused { source, target, bytes }

def applyEffect (source : Address) (simulation : Simulation) : Effect → Simulation
  | .sent target bytes accepted =>
    let datagram := { source, target, bytes }
    let (network, fate) :=
      if accepted then
        let isLost := simulation.dropFilter.any fun filter => filter.catches datagram
        simulation.network.transmit isLost datagram
      else (simulation.network, .failed)
    let transmission := { time := simulation.now, datagram, fate }
    { simulation with
      network
      transmissionHistory := transmission :: simulation.transmissionHistory }
  | .delivered message =>
    { simulation with
      arrivalHistory := { target := source, message } :: simulation.arrivalHistory }

/-- The simulation after a host's engine has come to a new state with some effects. -/
def update (simulation : Simulation) (address : Address) (host : Host) (engine : Engine)
    (effects : List Effect) : Simulation :=
  let hosts := simulation.hosts.insert address { host with engine }
  effects.foldl (applyEffect address) { simulation with hosts }

def runTask (simulation : Simulation) (address : Address) (task : EngineTask) : Simulation :=
  match simulation.hosts.get? address with
  | none => simulation
  | some host =>
    let (engine, effects) := host.engine.run (simulation.occasion address) task
    simulation.update address host engine effects

end Simulation

end ReliableDatagrams
