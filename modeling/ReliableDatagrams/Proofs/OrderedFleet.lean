import ReliableDatagrams.Proofs.FleetSoundness
import ReliableDatagrams.Proofs.TimestampMoves

/-!
# Fleets on a network that keeps the order

A network may lose datagrams and still neither repeat, reorder nor alter them: what a host sends to
another one waits in a row, and of each row the first datagram arrives next, or is lost. The network
keeps what it has lost, so that losses can be counted.

Such a fleet takes no step that a fleet on an arbitrary network could not take, so that everything
known of fleets holds for it, too.
-/

namespace ReliableDatagrams.Proofs

structure OrderedFleet extends Fleet where
  /-- What is on its way, the earliest first. -/
  queue : List Datagram := []
  lost : List Datagram := []

inductive OrderedStep where
  | send (host target : Address) (fields : FieldMap) (delivery : Delivery)
    (accepts : Address → Bytes → Bool)
  /-- The next datagram from the source to the target arrives, if there is one. -/
  | arrive (source target : Address) (accepts : Address → Bytes → Bool)
  | lose (source target : Address)
  | timeoutSweep (host : Address) (accepts : Address → Bytes → Bool)
  | deleteSweep (host : Address)
  | wait (host : Address) (duration : Nat)

def linkOf (source target : Address) (datagrams : List Datagram) : List Bytes :=
  datagrams.filterMap fun datagram =>
    if datagram.source = source ∧ datagram.target = target then some datagram.bytes else none

def sentTo (peer : Address) (effects : List Effect) : List Bytes :=
  effects.filterMap fun effect => match effect with
    | .sent target bytes true => if target = peer then some bytes else none
    | _ => none

namespace OrderedFleet

/-- An engine for each configuration, before anything was sent. -/
def ofSpecs (specs : List HostSpec) : OrderedFleet where
  toFleet := Fleet.ofSpecs specs

def link (fleet : OrderedFleet) (source target : Address) : List Bytes :=
  linkOf source target fleet.queue

/-- The fleet takes a step, with some datagrams on their way before those that are new. -/
def follow (fleet : OrderedFleet) (queue : List Datagram) (step : FleetStep) : OrderedFleet where
  toFleet := fleet.toFleet.step step
  queue := queue ++ (fleet.toFleet.step step).wire.drop fleet.wire.length
  lost := fleet.lost

def lose (fleet : OrderedFleet) (source target : Address) : OrderedFleet :=
  (fleet.link source target).head?.elim fleet fun bytes =>
    { fleet with
      queue := fleet.queue.erase ⟨source, target, bytes⟩
      lost := fleet.lost ++ [⟨source, target, bytes⟩] }

/-- The next datagram from one host to another arrives. Where there is no host, it is lost. -/
def arrive (fleet : OrderedFleet) (source target : Address)
    (accepts : Address → Bytes → Bool) : OrderedFleet :=
  if fleet.stations.get? target = none then fleet.lose source target
  else
    (fleet.link source target).head?.elim fleet fun bytes =>
      fleet.follow (fleet.queue.erase ⟨source, target, bytes⟩)
        (.receive ⟨source, target, bytes⟩ accepts)

/-- Takes a step; one of an unknown host, or for which nothing is on its way, changes nothing. -/
def step (fleet : OrderedFleet) : OrderedStep → OrderedFleet
  | .send host target fields delivery accepts =>
    fleet.follow fleet.queue (.send host target fields delivery accepts)
  | .arrive source target accepts => fleet.arrive source target accepts
  | .lose source target => fleet.lose source target
  | .timeoutSweep host accepts => fleet.follow fleet.queue (.timeoutSweep host accepts)
  | .deleteSweep host => fleet.follow fleet.queue (.deleteSweep host)
  | .wait host duration => fleet.follow fleet.queue (.wait host duration)

def run (fleet : OrderedFleet) (steps : List OrderedStep) : OrderedFleet :=
  steps.foldl step fleet

def task? (fleet : OrderedFleet) : OrderedStep → Option (Address × Station × EngineStep)
  | .send host target fields delivery accepts =>
    (fleet.stations.get? host).map fun station =>
      (host, station, .send ⟨station.now, accepts⟩ target fields delivery)
  | .arrive source target accepts =>
    (fleet.link source target).head?.bind fun bytes =>
      (fleet.stations.get? target).map fun station =>
        (target, station, .work ⟨station.now, accepts⟩ (.receive source bytes))
  | .timeoutSweep host accepts =>
    (fleet.stations.get? host).map fun station =>
      (host, station, .work ⟨station.now, accepts⟩ .timeoutSweep)
  | .deleteSweep host =>
    (fleet.stations.get? host).map fun station =>
      (host, station, .work ⟨station.now, fun _ _ => true⟩ .deleteSweep)
  | .lose _ _ | .wait _ _ => none

def idle (fleet : OrderedFleet) : OrderedStep → OrderedFleet
  | .arrive source target _ =>
    if fleet.stations.get? target = none then fleet.lose source target else fleet
  | .lose source target => fleet.lose source target
  | .wait host duration =>
    (fleet.stations.get? host).elim fleet fun station =>
      { fleet with
        stations := fleet.stations.insert host { station with now := station.now + duration } }
  | _ => fleet

def called (fleet : OrderedFleet) : OrderedStep → List SendCall
  | .send host target fields delivery accepts =>
    (fleet.stations.get? host).elim [] fun station =>
      let (engine, _, result) :=
        station.engine.send ⟨station.now, accepts⟩ target fields delivery
      let drewId := decide (engine.messageIds ≠ station.engine.messageIds)
      [{ source := host, target, fields, delivery, result, drewId }]
  | _ => []

/-- What is on its way when the engine that acts in a step has taken what arrives. -/
def remaining (fleet : OrderedFleet) : OrderedStep → List Datagram
  | .arrive source target _ =>
    (fleet.link source target).head?.elim fleet.queue fun bytes =>
      fleet.queue.erase ⟨source, target, bytes⟩
  | _ => fleet.queue

/-- What the engine that acts in a step does to the outside. -/
def effects (fleet : OrderedFleet) (step : OrderedStep) : List Effect :=
  (fleet.task? step).elim [] fun (_, station, task) =>
    (({ engine := station.engine } : History).step task).effects

end OrderedFleet

section Rows

variable {source target : Address} {datagrams : List Datagram} {bytes : Bytes} {rest : List Bytes}

lemma linkOf_append (more : List Datagram) :
    linkOf source target (datagrams ++ more) =
      linkOf source target datagrams ++ linkOf source target more :=
  List.filterMap_append

lemma linkOf_effects (host : Address) (effects : List Effect) :
    linkOf source target (effects.filterMap (datagramOf? host)) =
      if host = source then sentTo target effects else [] := by
  unfold linkOf sentTo
  rw [List.filterMap_filterMap]
  split
  · rename_i hhost
    congr 1
    funext effect
    cases effect with
    | delivered message => rfl
    | sent other bytes accepted => cases accepted <;> simp [datagramOf?, hhost]
  · rename_i hhost
    rw [List.filterMap_eq_nil_iff]
    intro effect _
    cases effect with
    | delivered message => rfl
    | sent other bytes accepted => cases accepted <;> simp [datagramOf?, hhost]

lemma stampsTo_eq (peer : Address) (effects : List Effect) :
    stampsTo peer effects = (sentTo peer effects).filterMap stamp? := by
  unfold stampsTo sentTo
  rw [List.filterMap_filterMap]
  congr 1
  funext effect
  cases effect with
  | delivered message => rfl
  | sent other bytes accepted =>
    cases accepted with
    | false => rfl
    | true =>
      by_cases hother : other = peer
      · simp [hother]
      · simp [hother]

lemma mem_linkOf : bytes ∈ linkOf source target datagrams ↔ ⟨source, target, bytes⟩ ∈ datagrams := by
  unfold linkOf
  rw [List.mem_filterMap]
  constructor
  · rintro ⟨datagram, hmem, hbytes⟩
    split at hbytes
    · rename_i hends
      obtain ⟨rfl, rfl⟩ := hends
      cases hbytes
      exact hmem
    · cases hbytes
  · intro hmem
    exact ⟨_, hmem, if_pos ⟨rfl, rfl⟩⟩

lemma linkOf_erase (h : linkOf source target datagrams = bytes :: rest) :
    linkOf source target (datagrams.erase ⟨source, target, bytes⟩) = rest := by
  induction datagrams with
  | nil => cases h
  | cons first others ih =>
    unfold linkOf at h
    rw [List.filterMap_cons] at h
    by_cases hfirst : first.source = source ∧ first.target = target
    · rw [if_pos hfirst] at h
      obtain ⟨hbytes, hrest⟩ := List.cons.inj h
      obtain ⟨rfl, rfl⟩ := hfirst
      rw [← hbytes, List.erase_cons_head]
      exact hrest
    · rw [if_neg hfirst] at h
      have hother : first ≠ ⟨source, target, bytes⟩ := by
        rintro rfl
        exact hfirst ⟨rfl, rfl⟩
      rw [List.erase_cons_tail (by simpa using hother), linkOf, List.filterMap_cons, if_neg hfirst]
      exact ih h

lemma linkOf_erase_of_ne {other : Datagram}
    (h : ¬ (other.source = source ∧ other.target = target)) :
    linkOf source target (datagrams.erase other) = linkOf source target datagrams := by
  induction datagrams with
  | nil => rfl
  | cons first others ih =>
    by_cases hfirst : first = other
    · subst hfirst
      rw [List.erase_cons_head, linkOf, linkOf, List.filterMap_cons, if_neg h]
    · rw [List.erase_cons_tail (by simpa using hfirst), linkOf, linkOf, List.filterMap_cons,
        List.filterMap_cons]
      unfold linkOf at ih
      rw [ih]

lemma mem_of_head?_link {fleet : OrderedFleet} (h : (fleet.link source target).head? = some bytes) :
    ⟨source, target, bytes⟩ ∈ fleet.queue :=
  mem_linkOf.1 (List.mem_of_mem_head? h)

end Rows

namespace OrderedFleet

/-- The engine of a host has taken a step of its own. -/
structure Acts (fleet : OrderedFleet) (queue : List Datagram) (host : Address) (station : Station)
    (task : EngineStep) (after : OrderedFleet) : Prop where
  there : fleet.stations.get? host = some station
  stations : ∀ other, after.stations.get? other = if host = other then
      some { station with engine := (({ engine := station.engine } : History).step task).engine }
    else fleet.stations.get? other
  queue : after.queue = queue ++
    (({ engine := station.engine } : History).step task).effects.filterMap (datagramOf? host)
  wire : after.wire = fleet.wire ++
    (({ engine := station.engine } : History).step task).effects.filterMap (datagramOf? host)
  arrivals : after.arrivals = fleet.arrivals ++
    (({ engine := station.engine } : History).step task).effects.filterMap (arrivalOf? host)
  lost : after.lost = fleet.lost

inductive OrderedMove (fleet : OrderedFleet) (step : OrderedStep) : OrderedFleet → Prop where
  | unchanged (idle : fleet.task? step = none) : OrderedMove fleet step fleet
  | waited {host : Address} {station : Station} (there : fleet.stations.get? host = some station)
      (duration : Nat) (is : step = .wait host duration) :
      OrderedMove fleet step { fleet with
        stations := fleet.stations.insert host { station with now := station.now + duration } }
  | lost {source target : Address} {bytes : Bytes} {rest : List Bytes}
      (link : fleet.link source target = bytes :: rest)
      (is : step = .lose source target ∨ fleet.stations.get? target = none) :
      OrderedMove fleet step { fleet with
        queue := fleet.queue.erase ⟨source, target, bytes⟩
        lost := fleet.lost ++ [⟨source, target, bytes⟩] }
  | acted {host : Address} {station : Station} {task : EngineStep} {after : OrderedFleet}
      (given : fleet.task? step = some (host, station, task))
      (acts : Acts fleet (fleet.remaining step) host station task after) :
      OrderedMove fleet step after

section Moves

variable {fleet : OrderedFleet} {host : Address} {station : Station}

lemma follow_of_same (queue : List Datagram) {step : FleetStep}
    (h : fleet.toFleet.step step = fleet.toFleet) :
    fleet.follow queue step = { fleet with queue } := by
  simp [follow, h]

lemma acts_follow_send (there : fleet.stations.get? host = some station) (target : Address)
    (fields : FieldMap) (delivery : Delivery) (accepts : Address → Bytes → Bool) :
    Acts fleet fleet.queue host station (.send ⟨station.now, accepts⟩ target fields delivery)
      (fleet.follow fleet.queue (.send host target fields delivery accepts)) := by
  have hstep : fleet.toFleet.step (.send host target fields delivery accepts) =
      fleet.toFleet.send host station target fields delivery accepts := by
    rw [Fleet.step, there]
    rfl
  unfold follow
  rw [hstep]
  exact ⟨there, fun other => Table.get?_insert _ _ _ _, congrArg _ List.drop_left, rfl, rfl, rfl⟩

lemma acts_follow_task (there : fleet.stations.get? host = some station) {queue : List Datagram}
    {task : EngineTask} {accepts : Address → Bytes → Bool} {step : FleetStep}
    (hstep : fleet.toFleet.step step = fleet.toFleet.runTask host station task accepts) :
    Acts fleet queue host station (.work ⟨station.now, accepts⟩ task)
      (fleet.follow queue step) := by
  unfold follow
  rw [hstep]
  exact ⟨there, fun other => Table.get?_insert _ _ _ _, congrArg _ List.drop_left, rfl, rfl, rfl⟩

/-- Everything that is on its way has been put on the wire. -/
def InTransit (fleet : OrderedFleet) : Prop :=
  ∀ datagram ∈ fleet.queue, datagram ∈ fleet.wire

/-- The tasks that steps give to the engine of a host. -/
inductive Given (fleet : OrderedFleet) (host : Address) (station : Station) :
    OrderedStep → EngineStep → Prop where
  | send (target : Address) (fields : FieldMap) (delivery : Delivery)
      (accepts : Address → Bytes → Bool) :
      Given fleet host station (.send host target fields delivery accepts)
        (.send ⟨station.now, accepts⟩ target fields delivery)
  | arrive {source : Address} {bytes : Bytes} {rest : List Bytes}
      (link : fleet.link source host = bytes :: rest) (accepts : Address → Bytes → Bool) :
      Given fleet host station (.arrive source host accepts)
        (.work ⟨station.now, accepts⟩ (.receive source bytes))
  | timeoutSweep (accepts : Address → Bytes → Bool) :
      Given fleet host station (.timeoutSweep host accepts)
        (.work ⟨station.now, accepts⟩ .timeoutSweep)
  | deleteSweep :
      Given fleet host station (.deleteSweep host)
        (.work ⟨station.now, fun _ _ => true⟩ .deleteSweep)

lemma task?_eq_some {step : OrderedStep} {task : EngineStep}
    (h : fleet.task? step = some (host, station, task)) :
    fleet.stations.get? host = some station ∧ Given fleet host station step task := by
  unfold task? at h
  split at h
  · obtain ⟨found, there, hfound⟩ := Option.map_eq_some_iff.1 h
    cases hfound
    exact ⟨there, .send _ _ _ _⟩
  · rename_i source target accepts
    cases hlink : fleet.link source target with
    | nil =>
      rw [hlink] at h
      cases h
    | cons bytes rest =>
      rw [hlink] at h
      obtain ⟨found, there, hfound⟩ := Option.map_eq_some_iff.1 h
      cases hfound
      exact ⟨there, .arrive hlink _⟩
  · obtain ⟨found, there, hfound⟩ := Option.map_eq_some_iff.1 h
    cases hfound
    exact ⟨there, .timeoutSweep _⟩
  · obtain ⟨found, there, hfound⟩ := Option.map_eq_some_iff.1 h
    cases hfound
    exact ⟨there, .deleteSweep⟩
  · cases h
  · cases h

lemma given_of_task? {step : OrderedStep} {task : EngineStep}
    (h : fleet.task? step = some (host, station, task)) : Given fleet host station step task :=
  (task?_eq_some h).2

lemma acts_of_task? (h : InTransit fleet) {step : OrderedStep} {task : EngineStep}
    (given : fleet.task? step = some (host, station, task)) :
    Acts fleet (fleet.remaining step) host station task (fleet.step step) := by
  obtain ⟨there, hgiven⟩ := task?_eq_some given
  cases hgiven with
  | send target fields delivery accepts => exact acts_follow_send there _ _ _ _
  | @arrive source bytes rest hlink accepts =>
    have hwire := h _ (mem_of_head?_link (congrArg List.head? hlink))
    have hpresent : fleet.stations.get? host ≠ none := by
      rw [there]
      exact nofun
    rw [OrderedFleet.step, arrive, if_neg hpresent, remaining, hlink]
    apply acts_follow_task there
    rw [Fleet.step, if_pos hwire, there]
    rfl
  | timeoutSweep accepts =>
    apply acts_follow_task there
    rw [Fleet.step, there]
    rfl
  | deleteSweep =>
    apply acts_follow_task there
    rw [Fleet.step, there]
    rfl

lemma step_of_idle {step : OrderedStep} (h : fleet.task? step = none) :
    fleet.step step = fleet.idle step := by
  cases step with
  | send host target fields delivery accepts =>
    have hnobody := Option.map_eq_none_iff.1 h
    exact follow_of_same _ (by rw [Fleet.step, hnobody]; rfl)
  | arrive source target accepts =>
    rw [OrderedFleet.step, arrive, idle]
    split
    · rfl
    · rename_i hpresent
      cases hlink : (fleet.link source target).head? with
      | none => rfl
      | some bytes =>
        rw [task?, hlink] at h
        exact absurd (Option.map_eq_none_iff.1 h) hpresent
  | lose source target => rfl
  | timeoutSweep host accepts =>
    have hnobody := Option.map_eq_none_iff.1 h
    exact follow_of_same _ (by rw [Fleet.step, hnobody]; rfl)
  | deleteSweep host =>
    have hnobody := Option.map_eq_none_iff.1 h
    exact follow_of_same _ (by rw [Fleet.step, hnobody]; rfl)
  | wait host duration =>
    cases there : fleet.stations.get? host with
    | none =>
      rw [idle, there]
      exact follow_of_same _ (by rw [Fleet.step, there]; rfl)
    | some station =>
      simp [OrderedFleet.step, idle, follow, Fleet.step, there, Fleet.update, Ledger.hear]

lemma lose_move {step : OrderedStep} (source target : Address) (idle : fleet.task? step = none)
    (is : step = .lose source target ∨ fleet.stations.get? target = none) :
    OrderedMove fleet step (fleet.lose source target) := by
  unfold lose
  cases hlink : fleet.link source target with
  | nil => exact .unchanged idle
  | cons bytes rest => exact .lost hlink is

theorem ordered_move (h : InTransit fleet) (step : OrderedStep) :
    OrderedMove fleet step (fleet.step step) := by
  cases hgiven : fleet.task? step with
  | some found =>
    obtain ⟨host, station, task⟩ := found
    exact .acted hgiven (acts_of_task? h hgiven)
  | none =>
    rw [step_of_idle hgiven]
    cases step with
    | arrive source target accepts =>
      rw [idle]
      split
      · rename_i hnobody
        exact lose_move source target hgiven (Or.inr hnobody)
      · exact .unchanged hgiven
    | lose source target => exact lose_move source target rfl (Or.inl rfl)
    | wait host duration =>
      rw [idle]
      cases there : fleet.stations.get? host with
      | some station => exact .waited there duration rfl
      | none => exact .unchanged rfl
    | _ => exact .unchanged hgiven

lemma fleetMove_follow (fleet : OrderedFleet) (queue : List Datagram) (step : FleetStep) :
    FleetMove fleet.toFleet (fleet.follow queue step).toFleet :=
  step_move fleet.toFleet step

lemma fleetMove_lose (fleet : OrderedFleet) (source target : Address) :
    FleetMove fleet.toFleet (fleet.lose source target).toFleet := by
  unfold lose
  cases (fleet.link source target).head? with
  | none => exact .unchanged
  | some bytes => exact .unchanged

lemma fleetMove_step (fleet : OrderedFleet) (step : OrderedStep) :
    FleetMove fleet.toFleet (fleet.step step).toFleet := by
  cases step with
  | send host target fields delivery accepts => exact fleetMove_follow _ _ _
  | arrive source target accepts =>
    rw [OrderedFleet.step, arrive]
    split
    · exact fleetMove_lose _ _ _
    · cases (fleet.link source target).head? with
      | none => exact .unchanged
      | some bytes => exact fleetMove_follow _ _ _
  | lose source target => exact fleetMove_lose _ _ _
  | timeoutSweep host accepts => exact fleetMove_follow _ _ _
  | deleteSweep host => exact fleetMove_follow _ _ _
  | wait host duration => exact fleetMove_follow _ _ _

lemma calls_lose (fleet : OrderedFleet) (source target : Address) :
    (fleet.lose source target).calls = fleet.calls := by
  unfold lose
  cases (fleet.link source target).head? <;> rfl

lemma calls_step (fleet : OrderedFleet) (step : OrderedStep) :
    (fleet.step step).calls = fleet.calls ++ fleet.called step := by
  cases step with
  | send host target fields delivery accepts =>
    rw [OrderedFleet.step, follow, Fleet.step, called]
    cases fleet.stations.get? host with
    | none => exact (List.append_nil _).symm
    | some station => rfl
  | arrive source target accepts =>
    refine Eq.trans ?_ (List.append_nil _).symm
    rw [OrderedFleet.step, arrive]
    split
    · exact calls_lose _ _ _
    · cases (fleet.link source target).head? with
      | none => rfl
      | some bytes =>
        simp only [Option.elim_some, follow, Fleet.step]
        split
        · cases fleet.stations.get? target <;> rfl
        · rfl
  | lose source target => exact (calls_lose _ _ _).trans (List.append_nil _).symm
  | timeoutSweep host accepts =>
    rw [OrderedFleet.step, follow, Fleet.step]
    cases fleet.stations.get? host <;> exact (List.append_nil _).symm
  | deleteSweep host =>
    rw [OrderedFleet.step, follow, Fleet.step]
    cases fleet.stations.get? host <;> exact (List.append_nil _).symm
  | wait host duration =>
    rw [OrderedFleet.step, follow, Fleet.step]
    cases fleet.stations.get? host <;> exact (List.append_nil _).symm

lemma exists_calls_run (fleet : OrderedFleet) (steps : List OrderedStep) :
    ∃ later, (fleet.run steps).calls = fleet.calls ++ later := by
  induction steps generalizing fleet with
  | nil => exact ⟨[], (List.append_nil _).symm⟩
  | cons step rest ih =>
    obtain ⟨later, hlater⟩ := ih (fleet.step step)
    refine ⟨fleet.called step ++ later, ?_⟩
    rw [← List.append_assoc, ← calls_step]
    exact hlater

lemma isSome_station_run (steps : List OrderedStep) (h : (fleet.stations.get? host).isSome) :
    ((fleet.run steps).stations.get? host).isSome := by
  induction steps generalizing fleet with
  | nil => exact h
  | cons step rest ih => exact ih (isSome_station_move (fleetMove_step fleet step) h)

lemma mem_remaining {datagram : Datagram} {step : OrderedStep}
    (h : datagram ∈ fleet.remaining step) : datagram ∈ fleet.queue := by
  unfold remaining at h
  split at h
  · rename_i source target accepts
    cases hlink : (fleet.link source target).head? with
    | none => rwa [hlink] at h
    | some bytes =>
      rw [hlink] at h
      exact List.mem_of_mem_erase h
  · exact h

lemma InTransit.step (h : InTransit fleet) (step : OrderedStep) : InTransit (fleet.step step) := by
  have hmove := ordered_move h step
  generalize fleet.step step = after at hmove ⊢
  cases hmove with
  | unchanged idle => exact h
  | waited there duration is => exact h
  | lost link is => exact fun datagram hmem => h datagram (List.mem_of_mem_erase hmem)
  | acted given acts =>
    intro datagram hmem
    rw [acts.queue] at hmem
    rw [acts.wire]
    rcases List.mem_append.1 hmem with hold | hnew
    · exact List.mem_append_left _ (h datagram (mem_remaining hold))
    · exact List.mem_append_right _ hnew

lemma InTransit.run (h : InTransit fleet) (steps : List OrderedStep) :
    InTransit (fleet.run steps) := by
  induction steps generalizing fleet with
  | nil => exact h
  | cons step rest ih => exact ih (h.step step)

/-- An engine that acts takes from no row but the one by which its datagram comes. -/
lemma linkOf_remaining {step : OrderedStep} {task : EngineStep} (h : Given fleet host station step task)
    {source target : Address} (hother : ∀ accepts, step ≠ .arrive source target accepts) :
    linkOf source target (fleet.remaining step) = fleet.link source target := by
  cases h with
  | @arrive sender bytes rest link accepts =>
    rw [remaining, link]
    apply linkOf_erase_of_ne
    rintro ⟨rfl, rfl⟩
    exact hother accepts rfl
  | _ => rfl

lemma linkOf_remaining_arrive {source target : Address} {bytes : Bytes} {rest : List Bytes}
    (link : fleet.link source target = bytes :: rest) (accepts : Address → Bytes → Bool) :
    linkOf source target (fleet.remaining (.arrive source target accepts)) = rest := by
  rw [remaining, link]
  exact linkOf_erase link

lemma linkOf_remaining_of_ne {step : OrderedStep} {task : EngineStep}
    (h : Given fleet host station step task) {target : Address} (hother : host ≠ target)
    (source : Address) : linkOf source target (fleet.remaining step) = fleet.link source target := by
  apply linkOf_remaining h
  rintro accepts rfl
  cases h
  exact hother rfl

lemma mem_link_of_remaining {step : OrderedStep} {source target : Address} {bytes : Bytes}
    (h : bytes ∈ linkOf source target (fleet.remaining step)) : bytes ∈ fleet.link source target :=
  mem_linkOf.2 (mem_remaining (mem_linkOf.1 h))

section Acting

variable {after : OrderedFleet} {queue : List Datagram} {task : EngineStep}

lemma Acts.link_own (acts : Acts fleet queue host station task after) (target : Address) :
    after.link host target = linkOf host target queue ++
      sentTo target (({ engine := station.engine } : History).step task).effects := by
  rw [link, acts.queue, linkOf_append, linkOf_effects, if_pos rfl]

lemma Acts.link_of_ne (acts : Acts fleet queue host station task after) {source : Address}
    (h : host ≠ source) (target : Address) :
    after.link source target = linkOf source target queue := by
  rw [link, acts.queue, linkOf_append, linkOf_effects, if_neg h, List.append_nil]

end Acting

/-- What a run preserves: the fleet is sound, ids do not come twice, and all engines keep to their own
first frames. -/
structure IsOrderly (fleet : OrderedFleet) : Prop where
  sound : SoundFleet fleet.toFleet
  counts : CountsIds fleet.toFleet
  transit : InTransit fleet
  own : ∀ host station, fleet.stations.get? host = some station → KeepsOwn station.engine

lemma IsOrderly.step (h : IsOrderly fleet) (step : OrderedStep) : IsOrderly (fleet.step step) := by
  have hfleet := fleetMove_step fleet step
  refine ⟨h.sound.move hfleet, h.counts.move h.sound hfleet, h.transit.step step, ?_⟩
  have hmove := ordered_move h.transit step
  generalize fleet.step step = after at hmove ⊢
  cases hmove with
  | unchanged idle => exact h.own
  | lost link is => exact h.own
  | @waited host station there duration is =>
    intro other found hfound
    have hget := (Table.get?_insert _ _ _ _).symm.trans hfound
    split at hget
    · cases hget
      exact h.own host station there
    · exact h.own other found hget
  | @acted host station task after given acts =>
    intro other found hfound
    rw [acts.stations] at hfound
    split at hfound
    · cases hfound
      exact (h.own host station acts.there).step task
    · exact h.own other found hfound

lemma isOrderly_ofSpecs (specs : List HostSpec) : IsOrderly (ofSpecs specs) where
  sound := soundFleet_ofSpecs specs
  counts := countsIds_ofSpecs specs
  transit := by simp [InTransit, ofSpecs]
  own host station hstation := by
    obtain ⟨spec, -, rfl⟩ := station_ofSpecs hstation
    exact keepsOwn_starting _ _

lemma run_append (fleet : OrderedFleet) (before after : List OrderedStep) :
    fleet.run (before ++ after) = (fleet.run before).run after :=
  List.foldl_append

lemma IsOrderly.run (h : IsOrderly fleet) (steps : List OrderedStep) :
    IsOrderly (fleet.run steps) := by
  induction steps generalizing fleet with
  | nil => exact h
  | cons step rest ih => exact ih (h.step step)

end Moves

section Mirrors

variable {fleet other : OrderedFleet}

/-- Two fleets are the same but for what they remember: the second one takes the same steps. Calls that
only the first one knows of have succeeded. -/
structure Mirrors (fleet other : OrderedFleet) : Prop where
  stations : ∀ host, fleet.stations.get? host = other.stations.get? host
  queue : fleet.queue = other.queue
  calls : ∃ earlier, fleet.calls = earlier ++ other.calls ∧
    ∀ call ∈ earlier, ∃ id, call.result = .ok id

lemma Mirrors.refl (fleet : OrderedFleet) : Mirrors fleet fleet :=
  ⟨fun _ => rfl, rfl, [], rfl, fun _ hmem => absurd hmem List.not_mem_nil⟩

lemma Mirrors.link (h : Mirrors fleet other) (source target : Address) :
    fleet.link source target = other.link source target :=
  congrArg (linkOf source target) h.queue

lemma Mirrors.task? (h : Mirrors fleet other) (step : OrderedStep) :
    fleet.task? step = other.task? step := by
  cases step <;> simp only [OrderedFleet.task?, h.stations, h.link]

lemma Mirrors.remaining (h : Mirrors fleet other) (step : OrderedStep) :
    fleet.remaining step = other.remaining step := by
  cases step <;> simp only [OrderedFleet.remaining, h.queue, h.link]

lemma Mirrors.called (h : Mirrors fleet other) (step : OrderedStep) :
    fleet.called step = other.called step := by
  cases step <;> simp only [OrderedFleet.called, h.stations]

lemma Mirrors.effects (h : Mirrors fleet other) (step : OrderedStep) :
    fleet.effects step = other.effects step := by
  rw [OrderedFleet.effects, h.task?, OrderedFleet.effects]

lemma Mirrors.lose (h : Mirrors fleet other) (source target : Address) :
    Mirrors (fleet.lose source target) (other.lose source target) := by
  unfold OrderedFleet.lose
  rw [h.link]
  cases (other.link source target).head? with
  | none => exact h
  | some bytes => exact ⟨h.stations, congrArg (List.erase · _) h.queue, h.calls⟩

lemma Mirrors.step (h : Mirrors fleet other) (ho : InTransit fleet) (ho' : InTransit other)
    (step : OrderedStep) : Mirrors (fleet.step step) (other.step step) := by
  have hcalls : ∃ earlier, (fleet.step step).calls = earlier ++ (other.step step).calls ∧
      ∀ call ∈ earlier, ∃ id, call.result = .ok id := by
    obtain ⟨earlier, hearlier, hsucceeded⟩ := h.calls
    refine ⟨earlier, ?_, hsucceeded⟩
    rw [calls_step, calls_step, h.called, hearlier, List.append_assoc]
  cases hgiven : other.task? step with
  | some found =>
    obtain ⟨host, station, task⟩ := found
    have hacts := acts_of_task? ho ((h.task? step).trans hgiven)
    have hacts' := acts_of_task? ho' hgiven
    refine ⟨fun goal => ?_, ?_, hcalls⟩
    · rw [hacts.stations, hacts'.stations, h.stations]
    · rw [hacts.queue, hacts'.queue, h.remaining]
  | none =>
    have hidle := (h.task? step).trans hgiven
    rw [step_of_idle hidle, step_of_idle hgiven]
    cases step with
    | arrive source target accepts =>
      rw [idle, idle, h.stations]
      split
      · exact h.lose source target
      · exact h
    | lose source target => exact h.lose source target
    | wait host duration =>
      rw [idle, idle, h.stations]
      cases other.stations.get? host with
      | none => exact h
      | some station =>
        refine ⟨fun goal => ?_, h.queue, h.calls⟩
        refine (Table.get?_insert _ _ _ _).trans (Eq.trans ?_ (Table.get?_insert _ _ _ _).symm)
        rw [h.stations]
    | _ => exact h

lemma Mirrors.run (h : Mirrors fleet other) (ho : InTransit fleet) (ho' : InTransit other)
    (steps : List OrderedStep) : Mirrors (fleet.run steps) (other.run steps) := by
  induction steps generalizing fleet other with
  | nil => exact h
  | cons step rest ih => exact ih (h.step ho ho' step) (ho.step step) (ho'.step step)

lemma Mirrors.trans {third : OrderedFleet} (h : Mirrors fleet other) (h' : Mirrors other third) :
    Mirrors fleet third := by
  refine ⟨fun host => (h.stations host).trans (h'.stations host), h.queue.trans h'.queue, ?_⟩
  obtain ⟨earlier, hearlier, hsucceeded⟩ := h.calls
  obtain ⟨later, hlater, hsucceeded'⟩ := h'.calls
  refine ⟨earlier ++ later, by rw [hearlier, hlater, List.append_assoc], ?_⟩
  intro call hcall
  rcases List.mem_append.1 hcall with hcall | hcall
  · exact hsucceeded call hcall
  · exact hsucceeded' call hcall

end Mirrors

end OrderedFleet

end ReliableDatagrams.Proofs
