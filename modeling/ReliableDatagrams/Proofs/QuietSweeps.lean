import ReliableDatagrams.Proofs.Restarts

/-!
# Sweeps of quiet hosts

Hosts sweep often, and most sweeps find nothing to do: no handshake and no peer has been idle for its
timeout. Such a sweep leaves the engine as it is and sends nothing. A run in which hosts only sweep for
a while comes to the same as one in which they only wait, as far as anything is due.

So a long run with regular sweeps can be followed on a shorter one, which sweeps only when something is
due.
-/

namespace ReliableDatagrams.Proofs

/-- Until some time, no handshake and no peer of an engine is idle for its timeout. -/
structure IsQuietUntil (engine : Engine) (time : Nat) : Prop where
  handshakes : ∀ (key : ConnectionKey) (record : ConnectionRecord),
    engine.store.connections[key]? = some record → record.idleTime time < record.timeout
  peers : ∀ peer, IsAwake engine peer time

section Engines

variable {engine : Engine}

lemma IsQuietUntil.mono {early late : Nat} (h : IsQuietUntil engine late) (hle : early ≤ late) :
    IsQuietUntil engine early where
  handshakes key record hrecord :=
    Nat.lt_of_le_of_lt (Nat.sub_le_sub_right hle _) (h.handshakes key record hrecord)
  peers peer record hrecord :=
    Nat.lt_of_le_of_lt (Nat.sub_le_sub_right hle _) (h.peers peer record hrecord)

lemma visitAll_still {κ : Type} {visit : Engine → κ → Engine × List Effect}
    (h : ∀ key, visit engine key = (engine, [])) (keys : List κ) :
    engine.visitAll visit keys = (engine, []) := by
  induction keys with
  | nil => rfl
  | cons key rest ih => simp only [Engine.visitAll, h, ih, List.append_nil]

lemma timeoutSweep_of_quiet {occasion : Occasion} (h : IsQuietUntil engine occasion.now) :
    engine.timeoutSweep occasion = (engine, []) := by
  have hpeers : ∀ address, engine.sweepPeer occasion address = (engine, []) := by
    intro address
    unfold Engine.sweepPeer
    split
    · rfl
    · rename_i record hrecord
      exact if_pos (h.peers address record (Option.filter_eq_some_iff.1 hrecord).1)
  have hhandshakes : ∀ key, engine.sweepConnection occasion key = (engine, []) := by
    intro key
    unfold Engine.sweepConnection
    split
    · rfl
    · rename_i record hrecord
      exact if_pos (h.handshakes key record (Option.filter_eq_some_iff.1 hrecord).1)
  simp only [Engine.timeoutSweep, visitAll_still hpeers, visitAll_still hhandshakes,
    List.append_nil]

end Engines

namespace OrderedFleet

def waiting (hosts : List Address) (duration : Nat) : List OrderedStep :=
  hosts.map fun host => .wait host duration

def sweeping (hosts : List Address) (accepts : Address → Bytes → Bool) : List OrderedStep :=
  hosts.map fun host => .timeoutSweep host accepts

def sweepRounds (hosts : List Address) (interval : Nat) (accepts : Address → Bytes → Bool)
    (rounds : Nat) : List OrderedStep :=
  (List.replicate rounds (waiting hosts interval ++ sweeping hosts accepts)).flatten

/-- Nothing is due at any host for some time. -/
def IsQuietFor (fleet : OrderedFleet) (duration : Nat) : Prop :=
  ∀ host station, fleet.stations.get? host = some station →
    IsQuietUntil station.engine (station.now + duration)

/-- The clocks of some hosts have advanced, and that is all. -/
structure IsLater (fleet after : OrderedFleet) (hosts : List Address) (duration : Nat) : Prop where
  stations : ∀ host, after.stations.get? host = (fleet.stations.get? host).map fun station =>
    { station with now := station.now + if host ∈ hosts then duration else 0 }
  queue : after.queue = fleet.queue
  calls : after.calls = fleet.calls

section Rounds

variable {fleet between after : OrderedFleet} {hosts : List Address} {duration more : Nat}

lemma IsLater.refl (fleet : OrderedFleet) (hosts : List Address) : IsLater fleet fleet hosts 0 where
  stations host := by cases fleet.stations.get? host <;> simp
  queue := rfl
  calls := rfl

lemma IsLater.trans (h : IsLater fleet between hosts duration)
    (h' : IsLater between after hosts more) : IsLater fleet after hosts (duration + more) where
  stations host := by
    rw [h'.stations, h.stations, Option.map_map]
    congr 1
    funext station
    by_cases hmem : host ∈ hosts <;> simp [hmem, Nat.add_assoc]
  queue := h'.queue.trans h.queue
  calls := h'.calls.trans h.calls

lemma IsLater.mirrors (h : IsLater fleet between hosts duration)
    (h' : IsLater fleet after hosts duration) : Mirrors between after where
  stations host := (h.stations host).trans (h'.stations host).symm
  queue := h.queue.trans h'.queue.symm
  calls := by
    refine ⟨[], ?_, fun _ hmem => absurd hmem List.not_mem_nil⟩
    rw [h.calls, h'.calls, List.nil_append]

lemma IsLater.outgoing (h : IsLater fleet after hosts duration) (source target : Address) :
    after.outgoing source target = fleet.outgoing source target := by
  apply outgoing_congr
  rw [h.stations, Option.map_map]
  rfl

lemma IsLater.quiet (h : IsLater fleet after hosts duration)
    (hquiet : fleet.IsQuietFor (duration + more)) : after.IsQuietFor more := by
  intro host station there
  rw [h.stations] at there
  obtain ⟨earlier, hearlier, rfl⟩ := Option.map_eq_some_iff.1 there
  refine (hquiet host earlier hearlier).mono ?_
  dsimp only
  split <;> omega

lemma isLater_wait (host : Address) :
    IsLater fleet (fleet.step (.wait host duration)) [host] duration := by
  cases there : fleet.stations.get? host with
  | none =>
    have hsame : fleet.step (.wait host duration) = fleet :=
      follow_of_same _ (by rw [Fleet.step, there]; rfl)
    rw [hsame]
    refine ⟨fun other => ?_, rfl, rfl⟩
    by_cases hother : other = host
    · rw [hother, there]
      rfl
    · cases fleet.stations.get? other <;> simp [hother]
  | some station =>
    have hgiven : fleet.step (.wait host duration) = { fleet with
        stations := fleet.stations.insert host { station with now := station.now + duration } } := by
      simp [OrderedFleet.step, follow, Fleet.step, there, Fleet.update, Ledger.hear]
    rw [hgiven]
    refine ⟨fun other => ?_, rfl, rfl⟩
    refine (Table.get?_insert _ _ _ _).trans ?_
    split
    · rename_i hother
      subst hother
      simp [there]
    · rename_i hother
      cases fleet.stations.get? other <;> simp [Ne.symm hother]

lemma isLater_waiting (hnodup : hosts.Nodup) :
    IsLater fleet (fleet.run (waiting hosts duration)) hosts duration := by
  induction hosts generalizing fleet with
  | nil =>
    have hrun : fleet.run (waiting [] duration) = fleet := rfl
    rw [hrun]
    refine ⟨fun host => ?_, rfl, rfl⟩
    cases fleet.stations.get? host <;> rfl
  | cons first rest ih =>
    obtain ⟨hout, hrest⟩ := List.nodup_cons.1 hnodup
    have hfirst := @isLater_wait fleet duration first
    have hlater := @ih (fleet.step (.wait first duration)) hrest
    have hrun : fleet.run (waiting (first :: rest) duration) =
        (fleet.step (.wait first duration)).run (waiting rest duration) := rfl
    rw [hrun]
    refine ⟨fun host => ?_, hlater.queue.trans hfirst.queue, hlater.calls.trans hfirst.calls⟩
    rw [hlater.stations, hfirst.stations, Option.map_map]
    congr 1
    funext station
    by_cases hhost : host = first
    · subst hhost
      simp [hout]
    · simp [hhost]

/-- A sweep at which nothing is due does nothing. -/
lemma IsLater.sweep (h : IsLater fleet between hosts duration) (hquiet : fleet.IsQuietFor duration)
    (host : Address) (accepts : Address → Bytes → Bool) :
    IsLater fleet (between.step (.timeoutSweep host accepts)) hosts duration ∧
      between.effects (.timeoutSweep host accepts) = [] := by
  cases there : between.stations.get? host with
  | none =>
    have hsame : between.step (.timeoutSweep host accepts) = between :=
      follow_of_same _ (by rw [Fleet.step, there]; rfl)
    rw [hsame, effects, task?, there]
    exact ⟨h, rfl⟩
  | some station =>
    have hstill : station.engine.timeoutSweep ⟨station.now, accepts⟩ = (station.engine, []) := by
      have hlast := @IsLater.quiet fleet between hosts duration 0 h hquiet host station there
      exact timeoutSweep_of_quiet hlast
    have hstep : between.step (.timeoutSweep host accepts) =
        { between with stations := between.stations.insert host station } := by
      simp [OrderedFleet.step, follow, Fleet.step, there, Fleet.runTask, Engine.run, hstill,
        Fleet.update, Ledger.hear]
    rw [hstep, effects, task?, there]
    refine ⟨⟨fun other => ?_, h.queue, h.calls⟩, ?_⟩
    · rw [← h.stations]
      refine (Table.get?_insert _ _ _ _).trans ?_
      split
      · rename_i hother
        rw [← hother, there]
      · rfl
    · exact congrArg Prod.snd hstill

lemma isLater_sweeping (h : IsLater fleet between hosts duration)
    (hquiet : fleet.IsQuietFor duration) (swept : List Address)
    (accepts : Address → Bytes → Bool) :
    IsLater fleet (between.run (sweeping swept accepts)) hosts duration := by
  induction swept generalizing between with
  | nil => exact h
  | cons host rest ih => exact ih (h.sweep hquiet host accepts).1

lemma isLater_round (hnodup : hosts.Nodup) (hquiet : fleet.IsQuietFor (duration + more))
    (accepts : Address → Bytes → Bool) :
    IsLater fleet (fleet.run (waiting hosts duration ++ sweeping hosts accepts)) hosts duration := by
  rw [run_append]
  apply isLater_sweeping (isLater_waiting hnodup)
  exact fun host station there => (hquiet host station there).mono (by omega)

lemma isLater_sweepRounds (hnodup : hosts.Nodup) {interval rounds : Nat}
    (hquiet : fleet.IsQuietFor (rounds * interval)) (accepts : Address → Bytes → Bool) :
    IsLater fleet (fleet.run (sweepRounds hosts interval accepts rounds)) hosts
      (rounds * interval) := by
  induction rounds generalizing fleet with
  | zero =>
    rw [Nat.zero_mul]
    exact .refl fleet hosts
  | succ rounds ih =>
    have hsum : (rounds + 1) * interval = interval + rounds * interval := by
      rw [Nat.succ_mul, Nat.add_comm]
    rw [hsum] at hquiet ⊢
    have hround := isLater_round hnodup hquiet accepts
    rw [sweepRounds, List.replicate_succ, List.flatten_cons, run_append]
    exact hround.trans (ih (hround.quiet hquiet))

end Rounds

/-- Every step of a run is taken by a fleet as it should be. -/
def Along (Fits : OrderedFleet → OrderedStep → Prop) (fleet : OrderedFleet) :
    List OrderedStep → Prop
  | [] => True
  | step :: rest => Fits fleet step ∧ Along Fits (fleet.step step) rest

section Along

variable {Fits : OrderedFleet → OrderedStep → Prop} {fleet other : OrderedFleet}
variable {steps : List OrderedStep}

lemma along_append (more : List OrderedStep) :
    Along Fits fleet (steps ++ more) ↔
      Along Fits fleet steps ∧ Along Fits (fleet.run steps) more := by
  induction steps generalizing fleet with
  | nil => exact ⟨fun h => ⟨trivial, h⟩, And.right⟩
  | cons step rest ih =>
    rw [List.cons_append, Along, ih, Along, and_assoc]
    rfl

lemma Along.split (h : Along Fits fleet steps) {earlier later : List OrderedStep}
    {step : OrderedStep} (hsplit : steps = earlier ++ step :: later) :
    Fits (fleet.run earlier) step := by
  rw [hsplit, along_append] at h
  exact h.2.1

lemma Along.mirrors (hfits : ∀ {fleet other step}, Mirrors fleet other → Fits other step →
      Fits fleet step)
    (h : Along Fits other steps) (hm : Mirrors fleet other) (ho : InTransit fleet)
    (ho' : InTransit other) : Along Fits fleet steps := by
  induction steps generalizing fleet other with
  | nil => trivial
  | cons step rest ih =>
    exact ⟨hfits hm h.1, ih h.2 (hm.step ho ho' step) (ho.step step) (ho'.step step)⟩

end Along

section Avoiding

variable {fleet other between : OrderedFleet} {source target : Address} {hosts : List Address}
variable {duration : Nat}

lemma AvoidsLast.mirrors {step : OrderedStep} (hm : Mirrors fleet other)
    (h : other.AvoidsLast source target step) : fleet.AvoidsLast source target step where
  counter := by
    rw [outgoing_congr (congrArg _ (hm.stations source))]
    exact h.counter
  drawn station task hgiven := by
    rw [hm.effects]
    exact h.drawn station task ((hm.task? step).symm.trans hgiven)

lemma avoidsLast_of_silent {step : OrderedStep}
    (hcounter : fleet.outgoing source target ≠ wraparoundTimestamp)
    (hsilent : fleet.effects step = []) : fleet.AvoidsLast source target step where
  counter := hcounter
  drawn station task _ bytes hmem := by
    rw [hsilent] at hmem
    cases hmem

lemma along_waiting (hcounter : fleet.outgoing source target ≠ wraparoundTimestamp) :
    Along (AvoidsLast · source target) fleet (waiting hosts duration) := by
  induction hosts generalizing fleet with
  | nil => trivial
  | cons host rest ih =>
    refine ⟨avoidsLast_of_silent hcounter rfl, ih ?_⟩
    rwa [(@isLater_wait fleet duration host).outgoing]

lemma along_sweeping (h : IsLater fleet between hosts duration) (hquiet : fleet.IsQuietFor duration)
    (hcounter : fleet.outgoing source target ≠ wraparoundTimestamp) (swept : List Address)
    (accepts : Address → Bytes → Bool) :
    Along (AvoidsLast · source target) between (sweeping swept accepts) := by
  induction swept generalizing between with
  | nil => trivial
  | cons host rest ih =>
    obtain ⟨hlater, hsilent⟩ := h.sweep hquiet host accepts
    refine ⟨avoidsLast_of_silent ?_ hsilent, ih hlater⟩
    rwa [h.outgoing]

lemma along_sweepRounds (hnodup : hosts.Nodup) {interval rounds : Nat}
    (hquiet : fleet.IsQuietFor (rounds * interval))
    (hcounter : fleet.outgoing source target ≠ wraparoundTimestamp)
    (accepts : Address → Bytes → Bool) :
    Along (AvoidsLast · source target) fleet (sweepRounds hosts interval accepts rounds) := by
  induction rounds generalizing fleet with
  | zero => trivial
  | succ rounds ih =>
    have hsum : (rounds + 1) * interval = interval + rounds * interval := by
      rw [Nat.succ_mul, Nat.add_comm]
    rw [hsum] at hquiet
    have hfirst : fleet.IsQuietFor interval :=
      fun host station there => (hquiet host station there).mono (by omega)
    have hround := isLater_round hnodup hquiet accepts
    rw [sweepRounds, List.replicate_succ, List.flatten_cons, along_append, along_append]
    refine ⟨⟨along_waiting hcounter, along_sweeping (isLater_waiting hnodup) hfirst hcounter
      hosts accepts⟩, ?_⟩
    exact ih (hround.quiet hquiet) (by rwa [hround.outgoing])

end Avoiding

/-- A stretch of a run: rounds of sweeps at which nothing is due, or steps of any kind. -/
inductive Stretch where
  | quiet (rounds : Nat)
  | busy (steps : List OrderedStep)

/-- How a run is paced: who sweeps, and how often. -/
structure Pace where
  hosts : List Address
  interval : Nat
  accepts : Address → Bytes → Bool

def Pace.steps (pace : Pace) : Stretch → List OrderedStep
  | .quiet rounds => sweepRounds pace.hosts pace.interval pace.accepts rounds
  | .busy steps => steps

/-- The steps of a stretch, without sweeps at which nothing is due. -/
def Pace.shortened (pace : Pace) : Stretch → List OrderedStep
  | .quiet rounds => waiting pace.hosts (rounds * pace.interval)
  | .busy steps => steps

instance (engine : Engine) (time : Nat) : Decidable (IsQuietUntil engine time) :=
  decidable_of_iff
    ((∀ filed ∈ engine.store.connections.toList, filed.2.idleTime time < filed.2.timeout) ∧
      ∀ filed ∈ engine.store.peers.toList, filed.2.idleTime time < filed.2.timeout)
    ⟨fun h =>
      ⟨fun key record hrecord =>
          h.1 (key, record) (Std.ExtTreeMap.mem_toList_iff_getElem?_eq_some.2 hrecord),
        fun peer record hrecord =>
          h.2 (peer, record) (Std.ExtTreeMap.mem_toList_iff_getElem?_eq_some.2 hrecord)⟩,
      fun h =>
        ⟨fun filed hfiled => h.handshakes filed.1 filed.2
            (Std.ExtTreeMap.mem_toList_iff_getElem?_eq_some.1 hfiled),
          fun filed hfiled => h.peers filed.1 filed.2
            (Std.ExtTreeMap.mem_toList_iff_getElem?_eq_some.1 hfiled)⟩⟩

lemma isQuietFor_of_entries {fleet : OrderedFleet} {duration : Nat}
    (h : ∀ entry ∈ fleet.stations.entries,
      IsQuietUntil entry.2.engine (entry.2.now + duration)) : fleet.IsQuietFor duration :=
  fun host station there => h (host, station) (Table.mem_of_lookup there)

instance (fleet : OrderedFleet) (source target : Address) (step : OrderedStep) :
    Decidable (fleet.AvoidsLast source target step) :=
  decidable_of_iff (fleet.outgoing source target ≠ wraparoundTimestamp ∧
      ∀ found ∈ fleet.task? step, found.1 = source → SendsNoReset target (fleet.effects step))
    ⟨fun h => ⟨h.1, fun station task hgiven => h.2 (source, station, task) hgiven rfl⟩,
      fun h => ⟨h.counter, fun found hfound hsource => by
        obtain ⟨host, station, task⟩ := found
        cases hsource
        exact h.drawn station task hfound⟩⟩

instance decidableAlong {Fits : OrderedFleet → OrderedStep → Prop}
    [∀ fleet step, Decidable (Fits fleet step)] :
    (fleet : OrderedFleet) → (steps : List OrderedStep) → Decidable (Along Fits fleet steps)
  | _, [] => inferInstanceAs (Decidable True)
  | fleet, step :: rest =>
    have : Decidable (Along Fits (fleet.step step) rest) := decidableAlong _ rest
    inferInstanceAs (Decidable (Fits fleet step ∧ Along Fits (fleet.step step) rest))

/-- A run with quiet stretches is as it should be: nothing is due in these, and the counter of the
source for the target does not come to its last number. -/
def Pace.Fits (pace : Pace) (source target : Address) (fleet : OrderedFleet) :
    List Stretch → Prop
  | [] => True
  | .quiet rounds :: rest =>
    (∀ entry ∈ fleet.stations.entries,
        IsQuietUntil entry.2.engine (entry.2.now + rounds * pace.interval)) ∧
      fleet.outgoing source target ≠ wraparoundTimestamp ∧
      pace.Fits source target (fleet.run (pace.shortened (.quiet rounds))) rest
  | .busy steps :: rest =>
    Along (AvoidsLast · source target) fleet steps ∧ pace.Fits source target (fleet.run steps) rest

instance decidableFits (pace : Pace) (source target : Address) :
    (fleet : OrderedFleet) → (stretches : List Stretch) →
      Decidable (pace.Fits source target fleet stretches)
  | _, [] => inferInstanceAs (Decidable True)
  | fleet, .quiet rounds :: rest =>
    have := decidableFits pace source target (fleet.run (pace.shortened (.quiet rounds))) rest
    inferInstanceAs (Decidable (_ ∧ _ ∧ _))
  | fleet, .busy steps :: rest =>
    have := decidableFits pace source target (fleet.run steps) rest
    inferInstanceAs (Decidable (_ ∧ _))

/-- The run with all its sweeps comes to the same as the shortened one. -/
lemma Pace.Fits.follows {pace : Pace} {source target : Address} {fleet other : OrderedFleet}
    {stretches : List Stretch} (h : pace.Fits source target other stretches)
    (hnodup : pace.hosts.Nodup) (hm : Mirrors fleet other) (ho : InTransit fleet)
    (ho' : InTransit other) :
    Along (AvoidsLast · source target) fleet (stretches.flatMap pace.steps) ∧
      Mirrors (fleet.run (stretches.flatMap pace.steps))
        (other.run (stretches.flatMap pace.shortened)) := by
  induction stretches generalizing fleet other with
  | nil => exact ⟨trivial, hm⟩
  | cons stretch rest ih =>
    have hfirst : Along (AvoidsLast · source target) other (pace.steps stretch) ∧
        Mirrors (other.run (pace.steps stretch)) (other.run (pace.shortened stretch)) ∧
        pace.Fits source target (other.run (pace.shortened stretch)) rest := by
      cases stretch with
      | busy steps => exact ⟨h.1, .refl _, h.2⟩
      | quiet rounds =>
        obtain ⟨hentries, hcounter, hrest⟩ := h
        have hquiet := isQuietFor_of_entries hentries
        exact ⟨along_sweepRounds hnodup hquiet hcounter pace.accepts,
          (isLater_sweepRounds hnodup hquiet pace.accepts).mirrors (isLater_waiting hnodup), hrest⟩
    obtain ⟨halong, hsame, hrest⟩ := hfirst
    have hmirrors : Mirrors (fleet.run (pace.steps stretch)) (other.run (pace.shortened stretch)) :=
      (hm.run ho ho' _).trans hsame
    obtain ⟨hlater, hend⟩ := ih hrest hmirrors (ho.run _) (ho'.run _)
    rw [List.flatMap_cons, List.flatMap_cons, along_append, run_append, run_append]
    exact ⟨⟨halong.mirrors AvoidsLast.mirrors hm ho ho', hlater⟩, hend⟩

end OrderedFleet

end ReliableDatagrams.Proofs
