import Mathlib.Logic.Function.Basic
import ReliableDatagrams.Proofs.Fleet
import ReliableDatagrams.Simulation.Session

/-!
# What steps change in a simulation

The effects of a host extend what is in flight and what is noted, as long as no filter is set. While
no sweep is scheduled the executors have nothing to do, and time passes without anything happening.
-/

namespace ReliableDatagrams.Proofs

/-- Takes steps one after the other, and notes what they answer. -/
def performAll (simulation : Simulation) :
    List SimulationStep → Simulation × List (SimulationStep × SimulationAnswer)
  | [] => (simulation, [])
  | step :: rest =>
    let (simulation, answer) := simulation.perform step
    let (simulation, answers) := performAll simulation rest
    (simulation, (step, answer) :: answers)

def engineAt (simulation : Simulation) (host : Address) : Engine :=
  ((simulation.hosts.get? host).map Host.engine).getD default

lemma engineAt_of_get? {simulation : Simulation} {address : Address} {host : Host}
    (h : simulation.hosts.get? address = some host) : engineAt simulation address = host.engine := by
  rw [engineAt, h]
  rfl

/-- The network loses nothing, and the sockets refuse nothing. -/
structure Unhindered (simulation : Simulation) : Prop where
  dropFilter : simulation.dropFilter = none
  failFilter : simulation.failFilter = none

lemma Unhindered.accepts {simulation : Simulation} (h : Unhindered simulation) (source : Address)
    (target : Address) (bytes : Bytes) :
    (simulation.occasion source).accepts target bytes = true := by
  simp [Simulation.occasion, Simulation.isRefused, h.failFilter]

/-- What a host has sent is in flight and in the log, and what it has delivered is noted. -/
structure Extends (host : Address) (effects : List Effect) (before after : Simulation) : Prop where
  unhindered : Unhindered after
  inFlight : after.network.inFlight =
    before.network.inFlight ++ effects.filterMap (datagramOf? host)
  sent : after.network.sent = before.network.sent ++ effects.filterMap (datagramOf? host)
  arrivals : after.arrivals = before.arrivals ++ effects.filterMap (arrivalOf? host)

section Effects

variable {simulation : Simulation}

lemma hosts_applyEffect (address : Address) (effect : Effect) :
    (Simulation.applyEffect address simulation effect).hosts = simulation.hosts := by
  cases effect <;> rfl

lemma hosts_applyEffects (address : Address) (effects : List Effect) :
    (effects.foldl (Simulation.applyEffect address) simulation).hosts = simulation.hosts := by
  induction effects generalizing simulation with
  | nil => rfl
  | cons effect rest ih => rw [List.foldl_cons, ih, hosts_applyEffect]

lemma Unhindered.extends_applyEffect (h : Unhindered simulation) (address : Address)
    (effect : Effect) :
    Extends address [effect] simulation (Simulation.applyEffect address simulation effect) := by
  cases effect with
  | sent target bytes accepted =>
    cases accepted with
    | false =>
      refine ⟨⟨h.dropFilter, h.failFilter⟩, ?_, ?_, ?_⟩ <;>
        simp [Simulation.applyEffect, datagramOf?, arrivalOf?, Simulation.arrivals]
    | true =>
      have hkept : simulation.dropFilter.any
          (fun filter => filter.catches { source := address, target, bytes }) = false := by
        rw [h.dropFilter]
        rfl
      refine ⟨⟨h.dropFilter, h.failFilter⟩, ?_, ?_, ?_⟩ <;>
        simp [Simulation.applyEffect, hkept, Network.transmit, Network.inject, Network.sent,
          datagramOf?, arrivalOf?, Simulation.arrivals]
  | delivered message =>
    refine ⟨⟨h.dropFilter, h.failFilter⟩, ?_, ?_, ?_⟩ <;>
      simp [Simulation.applyEffect, datagramOf?, arrivalOf?, Simulation.arrivals]

lemma Extends.trans {host : Address} {effects more : List Effect} {before middle after : Simulation}
    (h : Extends host effects before middle) (h' : Extends host more middle after) :
    Extends host (effects ++ more) before after := by
  refine ⟨h'.unhindered, ?_, ?_, ?_⟩
  · rw [h'.inFlight, h.inFlight, List.filterMap_append, List.append_assoc]
  · rw [h'.sent, h.sent, List.filterMap_append, List.append_assoc]
  · rw [h'.arrivals, h.arrivals, List.filterMap_append, List.append_assoc]

lemma Unhindered.extends_applyEffects (h : Unhindered simulation) (address : Address)
    (effects : List Effect) :
    Extends address effects simulation
      (effects.foldl (Simulation.applyEffect address) simulation) := by
  induction effects generalizing simulation with
  | nil => refine ⟨h, ?_, ?_, ?_⟩ <;> simp
  | cons effect rest ih =>
    have hfirst := h.extends_applyEffect address effect
    exact hfirst.trans (ih hfirst.unhindered)

variable (address : Address) (host : Host) (engine : Engine) (effects : List Effect)

lemma hosts_update :
    (simulation.update address host engine effects).hosts =
      simulation.hosts.insert address { host with engine } :=
  hosts_applyEffects address effects

lemma engineAt_update :
    engineAt (simulation.update address host engine effects) =
      Function.update (engineAt simulation) address engine := by
  funext other
  rw [engineAt, hosts_update, Table.get?_insert]
  by_cases hother : address = other
  · rw [if_pos hother, hother, Function.update_self]
    rfl
  · rw [if_neg hother, Function.update_of_ne fun h => hother h.symm]
    rfl

lemma Unhindered.extends_update (h : Unhindered simulation) :
    Extends address effects simulation (simulation.update address host engine effects) := by
  have hfiled := @Unhindered.extends_applyEffects
    { simulation with hosts := simulation.hosts.insert address { host with engine } }
    ⟨h.dropFilter, h.failFilter⟩ address effects
  exact ⟨hfiled.unhindered, hfiled.inFlight, hfiled.sent, hfiled.arrivals⟩

end Effects

def withInFlight (simulation : Simulation) (datagrams : List Datagram) : Simulation :=
  { simulation with network := { simulation.network with inFlight := datagrams } }

lemma Unhindered.withInFlight {simulation : Simulation} (h : Unhindered simulation)
    (datagrams : List Datagram) : Unhindered (withInFlight simulation datagrams) :=
  ⟨h.dropFilter, h.failFilter⟩

/-- A host receives the datagram in front, which has left the queue by then. -/
lemma deliverNext?_cons {simulation : Simulation} {datagram : Datagram} {rest : List Datagram}
    {host : Host} (hqueue : simulation.network.inFlight = datagram :: rest)
    (hthere : simulation.hosts.get? datagram.target = some host) {engine : Engine}
    {effects : List Effect}
    (hreceive : host.engine.receive ((withInFlight simulation rest).occasion datagram.target)
      datagram.source datagram.bytes = (engine, effects)) :
    simulation.deliverNext? =
      some ((withInFlight simulation rest).update datagram.target host engine effects,
        simulation.hosts.contains datagram.target) := by
  rw [Simulation.deliverNext?, hqueue]
  change some ((withInFlight simulation rest).runTask datagram.target _, _) = _
  have hthere' : (withInFlight simulation rest).hosts.get? datagram.target = some host := hthere
  simp only [Simulation.runTask, hthere', Engine.run, hreceive]

/-- No job is scheduled, queued or at work, and nothing has happened that was not looked at. -/
structure Idle (executor : Executor EngineTask) : Prop where
  entries : executor.scheduler.entries = []
  commands : executor.scheduler.commands = []
  history : executor.history = []
  pool : ∃ pool, executor.backend = .pool pool ∧ pool.queue = [] ∧ pool.running = []

namespace Idle

variable {executor : Executor EngineTask}

lemma skipTicks_eq (scheduler : Scheduler EngineTask) (now : Nat) :
    (scheduler.skipTicks now).entries = scheduler.entries ∧
      (scheduler.skipTicks now).commands = scheduler.commands := by
  unfold Scheduler.skipTicks
  split <;> exact ⟨rfl, rfl⟩

lemma advance (h : Idle executor) (time : Nat) (isReady : RunningJob EngineTask → Bool) :
    Idle (executor.advance time isReady) := by
  obtain ⟨pool, hpool, hqueue, hrunning⟩ := h.pool
  unfold Executor.advance
  rw [hpool, Backend.advance, WorkerPool.advance_of_idle hrunning]
  exact ⟨h.entries, h.commands, h.history, pool, rfl, hqueue, hrunning⟩

lemma rest (h : Idle executor) : Idle executor.rest := by
  obtain ⟨pool, hpool, hqueue, hrunning⟩ := h.pool
  obtain ⟨hleft, hidle, hnothing⟩ := WorkerPool.settle_of_idle hqueue hrunning executor.now
  unfold Executor.rest Executor.record Backend.settle
  rw [hpool]
  refine ⟨?_, rfl, ?_, _, rfl, hleft, hidle⟩
  · simp [Scheduler.readCommands, h.entries, h.commands]
  · simp [hnothing, h.history]

lemma tick (h : Idle executor) : Idle executor.tick := by
  have happroached : Idle executor.approachTick := h.advance _ _
  obtain ⟨pool, hpool, hqueue, hrunning⟩ := happroached.pool
  have hrested : pool.noteTick.running = [] := by
    rw [WorkerPool.noteTick, hrunning]
    rfl
  obtain ⟨hleft, hidle, hnothing⟩ :=
    @WorkerPool.settle_of_idle _ pool.noteTick hqueue hrested executor.approachTick.now
  unfold Executor.tick
  simp only [Scheduler.tick, happroached.entries, List.map_nil, List.filterMap_nil,
    List.filter_nil, Executor.countFirings, hpool, Executor.runDue, WorkerPool.submitAll]
  refine ⟨(skipTicks_eq _ _).1, (skipTicks_eq _ _).2.trans happroached.commands, ?_, _, rfl, hleft,
    hidle⟩
  simp only [Executor.record, hnothing]
  exact happroached.history

lemma runTicks (h : Idle executor) (limit : Nat) : Idle (executor.runTicks limit) := by
  fun_induction Executor.runTicks executor limit with
  | case1 executor hdue ih => exact ih h.tick
  | case2 executor hdone => exact h

lemma sleepUntil (h : Idle executor) (time : Nat) : Idle (executor.sleepUntil time) :=
  ((h.rest.runTicks time).advance _ _).runTicks _

lemma withPool (period workers : Nat) : Idle (Executor.withPool period workers) :=
  ⟨rfl, rfl, rfl, _, rfl, rfl, rfl⟩

end Idle

def rested (time : Nat) (host : Host) : Host :=
  { host with executor := (host.executor.sleepUntil time).drain.1 }

lemma drain_sleepUntil {host : Host} (h : Idle host.executor) (time : Nat) (address : Address) :
    { host with executor := host.executor.sleepUntil time }.drain address =
      (rested time host, []) := by
  have hhistory := (h.sleepUntil time).history
  unfold Host.drain rested Executor.drain
  rw [hhistory]
  rfl

lemma lookup_map {κ α β : Type} [DecidableEq κ] (change : α → β) (key : κ)
    (entries : List (κ × α)) :
    Table.lookup key (entries.map fun entry => (entry.1, change entry.2)) =
      (Table.lookup key entries).map change := by
  induction entries with
  | nil => rfl
  | cons entry rest ih =>
    rw [List.map_cons, Table.lookup, Table.lookup, ih]
    split <;> rfl

lemma mem_put {κ α : Type} [DecidableEq κ] {key : κ} {value : α} {entries : List (κ × α)}
    {entry : κ × α} (h : entry ∈ Table.put key value entries) :
    entry = (key, value) ∨ entry ∈ entries := by
  induction entries with
  | nil => exact Or.inl (List.mem_singleton.1 h)
  | cons first rest ih =>
    rw [Table.put] at h
    split at h
    · rcases List.mem_cons.1 h with hnew | hrest
      · exact Or.inl hnew
      · exact Or.inr (List.mem_cons_of_mem _ hrest)
    · rcases List.mem_cons.1 h with hfirst | hrest
      · exact Or.inr (hfirst ▸ List.mem_cons_self)
      · exact (ih hrest).imp_right (List.mem_cons_of_mem _)

def AllIdle (simulation : Simulation) : Prop :=
  ∀ entry ∈ simulation.hosts.entries, Idle entry.2.executor

lemma AllIdle.update {simulation : Simulation} (h : AllIdle simulation) {address : Address}
    {host : Host} (hthere : simulation.hosts.get? address = some host) (engine : Engine)
    (effects : List Effect) : AllIdle (simulation.update address host engine effects) := by
  intro entry hentry
  rw [hosts_update] at hentry
  rcases mem_put hentry with rfl | hold
  · have hmem := Table.mem_of_lookup hthere
    exact h (address, host) hmem
  · exact h entry hold

lemma sleep_of_allIdle {simulation : Simulation} (h : AllIdle simulation) (duration : Nat) :
    simulation.sleep duration =
      { simulation with
        now := simulation.now + duration
        hosts := ⟨simulation.hosts.entries.map fun entry =>
          (entry.1, rested (simulation.now + duration) entry.2)⟩ } := by
  have hbegun : (simulation.hosts.entries.map fun entry =>
      ((entry.1, rested (simulation.now + duration) entry.2), ([] : List BegunTask))).flatMap
        Prod.snd = [] := by
    rw [List.flatMap_map]
    exact List.flatMap_eq_nil_iff.2 fun _ _ => rfl
  unfold Simulation.sleep
  dsimp only
  rw [List.map_congr_left
    (g := fun entry => ((entry.1, rested (simulation.now + duration) entry.2), [])), hbegun]
  · simp [Simulation.runBegun, List.map_map, Function.comp_def]
  · intro entry hentry
    rw [drain_sleepUntil (h entry hentry)]

lemma AllIdle.sleep {simulation : Simulation} (h : AllIdle simulation) (duration : Nat) :
    AllIdle (simulation.sleep duration) := by
  rw [sleep_of_allIdle h]
  intro entry hentry
  obtain ⟨old, hold, rfl⟩ := List.mem_map.1 hentry
  have hslept := (h old hold).sleepUntil (simulation.now + duration)
  exact ⟨hslept.entries, hslept.commands, rfl, hslept.pool⟩

lemma get?_hosts_sleep {simulation : Simulation} (h : AllIdle simulation) (duration : Nat)
    (address : Address) :
    (simulation.sleep duration).hosts.get? address =
      (simulation.hosts.get? address).map (rested (simulation.now + duration)) := by
  rw [sleep_of_allIdle h]
  exact lookup_map _ _ _

lemma engineAt_sleep {simulation : Simulation} (h : AllIdle simulation) (duration : Nat) :
    engineAt (simulation.sleep duration) = engineAt simulation := by
  funext address
  rw [engineAt, engineAt, get?_hosts_sleep h, Option.map_map]
  rfl

end ReliableDatagrams.Proofs
