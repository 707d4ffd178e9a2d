import ReliableDatagrams.Simulation.Delivery

/-!
# Steps of a simulation

The steps that are taken with a simulation from outside, and what they answer. Executors take their
jobs' labels for tasks of their host's engine: a task is done when its job begins.
-/

namespace ReliableDatagrams

inductive SimulationStep where
  | send (host target : Address) (fields : FieldMap) (delivery : Delivery)
  /-- Sends empty messages with a socket that accepts them and passes nothing on. -/
  | burst (host target : Address) (count : Nat) (delivery : Delivery)
  | inject (source target : Address) (payload : Payload)
  | deliver
  | receive (host source : Address) (payload : Payload)
  /-- Hands datagrams to a host's workers, all before any is worked on. -/
  | dispatch (host : Address) (datagrams : List (Address × Payload))
  | setDropFilter (filter : Option Filter)
  | setFailFilter (filter : Option Filter)
  | timeoutSweep (host : Address)
  | deleteSweep (host : Address)
  /-- Schedules the sweeps of a host. -/
  | start (host : Address)
  | shutDown (host : Address)
  | sleep (duration : Nat)
  | inspectPool (host : Address)
  | leave (host : Address)
  | countSent
deriving Repr

/-- What a step answers. -/
inductive SimulationAnswer where
  | done
  | flag (value : Bool)
  | count (value : Nat)
  | sent (result : Except SendError (Option UInt32))
  | submitted (results : List (Except SubmitError Unit))
  | notStarted (error : ScheduleError)
  | pool (pool : WorkerPool EngineTask)
  | counts (values : List (FrameKind × Nat))
  | unknownHost
  | unknownDatagram
deriving Repr

namespace Engine

/-- Sends empty messages one after the other, and tells the result of the last one. -/
def sendRepeatedly (occasion : Occasion) (target : Address) (delivery : Delivery) :
    (count : Nat) → Engine → Option (Except SendError (Option UInt32)) →
      Engine × Option (Except SendError (Option UInt32))
  | 0, engine, last => (engine, last)
  | count + 1, engine, _ =>
    let (engine, _, result) := engine.send occasion target .empty delivery
    sendRepeatedly occasion target delivery count engine (some result)

end Engine

/-- A task that was begun, and the period of the clock that set it off. -/
structure BegunTask where
  address : Address
  period : Nat
  entry : LogEntry EngineTask
deriving Repr

/-- The order in which tasks of all hosts are begun: by time, and of those that begin at one time the
one whose clock ticks more rarely, because its tick was set earlier. -/
def BegunTask.precedes (a b : BegunTask) : Bool :=
  a.entry.time < b.entry.time || (a.entry.time == b.entry.time && b.period ≤ a.period)

namespace Host

/-- Takes the tasks that the executor has begun since it was looked at last. -/
def drain (host : Host) (address : Address) : Host × List BegunTask :=
  let (executor, log) := host.executor.drain
  let period := executor.scheduler.period
  ({ host with executor },
    (log.filter fun entry => entry.event = .began).map fun entry => { address, period, entry })

def start (host : Host) : Host × Except ScheduleError Unit :=
  let config := host.engine.config
  match host.executor.schedule { label := .timeoutSweep } config.timeoutSweepInterval true with
  | (executor, .error error) => ({ host with executor }, .error error)
  | (executor, .ok _) =>
    match executor.schedule { label := .deleteSweep } config.deleteSweepInterval true with
    | (executor, .error error) => ({ host with executor }, .error error)
    | (executor, .ok _) => ({ host with executor }, .ok ())

def shutDown (host : Host) : Host :=
  { host with executor := host.executor.shutDownScheduler.shutDownPool }

end Host

namespace Simulation

def runBegun (simulation : Simulation) (begun : List BegunTask) : Simulation :=
  begun.foldl (fun simulation task =>
    { simulation with now := task.entry.time }.runTask task.address task.entry.label) simulation

/-- Changes a host's executor, lets it rest, and does what it has begun by then. -/
def withExecutor (simulation : Simulation) (address : Address) (host : Host)
    (executor : Executor EngineTask) : Simulation :=
  let (host, begun) := { host with executor := executor.rest }.drain address
  { simulation with hosts := simulation.hosts.insert address host }.runBegun begun

def sleep (simulation : Simulation) (duration : Nat) : Simulation :=
  let time := simulation.now + duration
  let drained := simulation.hosts.entries.map fun (address, host) =>
    let (host, begun) := { host with executor := host.executor.sleepUntil time }.drain address
    ((address, host), begun)
  let hosts := ⟨drained.map Prod.fst⟩
  let begun := (drained.flatMap Prod.snd).mergeSort BegunTask.precedes
  { { simulation with hosts }.runBegun begun with now := time }

def send (simulation : Simulation) (address : Address) (host : Host) (target : Address)
    (fields : FieldMap) (delivery : Delivery) : Simulation × SimulationAnswer :=
  let (engine, effects, result) :=
    host.engine.send (simulation.occasion address) target fields delivery
  (simulation.update address host engine effects, .sent result)

def withHost (simulation : Simulation) (address : Address)
    (step : Host → Simulation × SimulationAnswer) : Simulation × SimulationAnswer :=
  match simulation.hosts.get? address with
  | none => (simulation, .unknownHost)
  | some host => step host

def withPayload (simulation : Simulation) (payload : Payload)
    (step : Bytes → Simulation × SimulationAnswer) : Simulation × SimulationAnswer :=
  match payload.bytes? simulation.network with
  | none => (simulation, .unknownDatagram)
  | some bytes => step bytes

/-- The jobs for datagrams that are handed to a host's workers. -/
def receiveJobs? (simulation : Simulation) (datagrams : List (Address × Payload)) :
    Option (List (Job EngineTask)) :=
  datagrams.mapM fun (source, payload) =>
    (payload.bytes? simulation.network).map fun bytes => { label := .receive source bytes }

def perform (simulation : Simulation) : SimulationStep → Simulation × SimulationAnswer
  | .send address target fields delivery =>
    simulation.withHost address fun host => simulation.send address host target fields delivery
  | .burst address target count delivery =>
    simulation.withHost address fun host =>
      let occasion := { simulation.occasion address with accepts := fun _ _ => true }
      let (engine, last) :=
        Engine.sendRepeatedly occasion target delivery count host.engine none
      (simulation.update address host engine [], last.elim .done .sent)
  | .inject source target payload =>
    simulation.withPayload payload fun bytes =>
      ({ simulation with network := simulation.network.inject { source, target, bytes } }, .done)
  | .deliver =>
    let (simulation, count) := simulation.deliverAll
    (simulation, .count count)
  | .receive address source payload =>
    simulation.withHost address fun _ =>
      simulation.withPayload payload fun bytes =>
        (simulation.runTask address (.receive source bytes), .done)
  | .dispatch address datagrams =>
    simulation.withHost address fun host =>
      match simulation.receiveJobs? datagrams with
      | none => (simulation, .unknownDatagram)
      | some jobs =>
        let (executor, results) := host.executor.submitAll jobs
        (simulation.withExecutor address host executor, .submitted results)
  | .setDropFilter filter => ({ simulation with dropFilter := filter }, .done)
  | .setFailFilter filter => ({ simulation with failFilter := filter }, .done)
  | .timeoutSweep address =>
    simulation.withHost address fun _ => (simulation.runTask address .timeoutSweep, .done)
  | .deleteSweep address =>
    simulation.withHost address fun _ => (simulation.runTask address .deleteSweep, .done)
  | .start address =>
    simulation.withHost address fun host =>
      let (host, result) := host.start
      let simulation := simulation.withExecutor address host host.executor
      match result with
      | .ok () => (simulation, .done)
      | .error error => (simulation, .notStarted error)
  | .shutDown address =>
    simulation.withHost address fun host =>
      ({ simulation with hosts := simulation.hosts.insert address host.shutDown }, .done)
  | .sleep duration => (simulation.sleep duration, .done)
  | .inspectPool address =>
    simulation.withHost address fun host =>
      (simulation.withExecutor address host host.executor, match host.executor.rest.pool? with
        | some pool => .pool pool
        | none => .done)
  | .leave address =>
    ({ simulation with hosts := simulation.hosts.erase address },
      .flag (simulation.hosts.contains address))
  | .countSent =>
    (simulation, .counts (FrameKind.all.map fun kind =>
      (kind, simulation.network.countSent kind)))

def forgetNotes (simulation : Simulation) : Simulation :=
  { simulation with transmissionHistory := [], arrivalHistory := [] }

end Simulation

end ReliableDatagrams
