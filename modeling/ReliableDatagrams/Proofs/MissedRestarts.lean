import ReliableDatagrams.Proofs.QuietSweeps

/-!
# Restarts that are missed

A counter of timestamps restarts when its host evicts the record of the peer. Whether the peer notices
depends on a clock of its own: it forgets what it tracks when a sweep finds the host idle. If none does
so, then the next frames of the host look like copies of old ones, and are dropped.

That is the only way in which a plain frame gets lost at a peer that it has reached, as long as the
counter does not wrap around. It does happen: what the peer sends keeps the host awake on its side, even
if none of it arrives.
-/

namespace ReliableDatagrams.Proofs

namespace OrderedFleet

/-- In a run, a frame from before a restart of the source was delivered to the target, with a timestamp
after which this one is stale, and no sweep of the target has found the source idle since. The frame
that arrives next was written after the restart. -/
def MissesRestart (start : OrderedFleet) (source target : Address) (steps : List OrderedStep)
    (timestamp : Option UInt16) : Prop :=
  ∃ number latest mark, start.StillTracks source target steps number latest ∧
    isFreshAfter (some latest) timestamp = false ∧
    start.RestartsAt source target steps mark ∧ number < mark ∧
    mark ≤ (start.run steps).taken source target

section Missing

variable {source target : Address} {steps : List OrderedStep}

/-- The next frame of the source is stale exactly if a restart is missed: without a restart between
them, a later frame has a greater timestamp than an earlier one. -/
lemma missesRestart_iff (specs : List HostSpec) (hne : source ≠ target)
    (havoids : ∀ earlier step later, steps = earlier ++ step :: later →
      ((ofSpecs specs).run earlier).AvoidsLast source target step)
    {bytes : Bytes} (hnext : (((ofSpecs specs).run steps).link source target).head? = some bytes)
    {stamp : UInt16} (hstamp : stamp? bytes = some (some stamp)) :
    (ofSpecs specs).MissesRestart source target steps (some stamp) ↔
      isFreshAfter (((ofSpecs specs).run steps).tracked target source) (some stamp) = false := by
  have hrises : ∀ earlier, earlier <+: steps →
      RisesBetween ((ofSpecs specs).RestartsAt source target earlier)
        (((ofSpecs specs).run earlier).written source target)
        (((ofSpecs specs).run earlier).outgoing source target) := by
    rintro earlier ⟨more, rfl⟩
    apply risesBetween_run specs hne
    rintro before step later rfl
    exact havoids before step (later ++ more) (by simp)
  have hnumbered : ∀ earlier, earlier <+: steps →
      none ∉ ((ofSpecs specs).run earlier).underway source target := fun earlier hearlier hmem =>
    (hrises earlier hearlier).numbered
      ((underway_suffix_run specs source target earlier).subset hmem)
  constructor
  · rintro ⟨number, latest, mark, hstill, hstale, -⟩
    obtain ⟨newest, htracked, hnewest⟩ := tracked_of_stillTracks specs steps hnumbered hstill
    have hle : stamp ≤ latest := by simpa [isFreshAfter] using hstale
    rw [htracked]
    simpa [isFreshAfter] using UInt16.le_trans hle hnewest
  · intro hstale
    cases htracked : ((ofSpecs specs).run steps).tracked target source with
    | none =>
      rw [htracked] at hstale
      cases hstale
    | some latest =>
      rw [htracked] at hstale
      have hle : stamp ≤ latest := by simpa [isFreshAfter] using hstale
      obtain ⟨number, hstill, htaken, hwritten⟩ :=
        exists_stillTracks specs steps hnumbered htracked
      have hhead := getElem?_written_taken (underway_suffix_run specs source target steps) hnext
        hstamp
      rcases (hrises steps (List.prefix_refl _)).rise _ _ _ _ htaken hwritten hhead with
        hlt | ⟨mark, hmark, hafter, hbefore⟩
      · exact absurd hlt (UInt16.not_lt.2 hle)
      · exact ⟨number, latest, mark, hstill, hstale, hmark, hafter, hbefore⟩

lemma arrivals_arrive_plain {fleet : OrderedFleet} (ho : IsOrderly fleet)
    (there : (fleet.stations.get? target).isSome) {bytes : Bytes} {frame : Frame}
    (hnext : (fleet.link source target).head? = some bytes) (hd : Frame.decode bytes = .ok frame)
    (hplain : frame.kind = .plain) (accepts : Address → Bytes → Bool) :
    (fleet.step (.arrive source target accepts)).arrivals = fleet.arrivals ++
      if isFreshAfter (fleet.tracked target source) frame.timestamp = true then
        [{ target, message := { source, id := none, fields := frame.fields } }]
      else [] := by
  obtain ⟨station, there⟩ := Option.isSome_iff_exists.1 there
  have hw := (ho.own target station there).filed
  have hgiven : fleet.task? (.arrive source target accepts) =
      some (target, station, .work ⟨station.now, accepts⟩ (.receive source bytes)) := by
    rw [task?, hnext, there]
    rfl
  rw [(acts_of_task? ho.transit hgiven).arrivals, tracked_eq there]
  have heffects : (({ engine := station.engine } : History).step
      (.work ⟨station.now, accepts⟩ (.receive source bytes))).effects =
        (station.engine.receive ⟨station.now, accepts⟩ source bytes).2 := rfl
  rw [heffects, filterMap_arrivalOf?]
  congr 1
  cases htimestamp : frame.timestamp with
  | none =>
    have hunstamped : (station.engine.receive ⟨station.now, accepts⟩ source bytes).2 =
        [.delivered { source, id := none, fields := frame.fields }] := by
      rw [receive_of_decode _ hd, Engine.receiveFrame, hplain, htimestamp]
      rfl
    rw [hunstamped]
    rfl
  | some stamp =>
    rw [deliveries_receive_plain _ hw hd hplain htimestamp]
    split <;> rfl

end Missing

end OrderedFleet

/-- On a network that loses datagrams and keeps their order, as long as the counter of the source for
the target does not come to its last number, every plain frame that arrives is delivered, unless the
target still tracks a timestamp from before a restart of the counter that is not smaller. Then it is
dropped. -/
theorem plain_delivered_unless_restart_missed (specs : List HostSpec) {source target : Address}
    (hne : source ≠ target) (steps : List OrderedStep)
    (havoids : ∀ earlier step later, steps = earlier ++ step :: later →
      ((OrderedFleet.ofSpecs specs).run earlier).AvoidsLast source target step)
    (there : (((OrderedFleet.ofSpecs specs).run steps).stations.get? target).isSome)
    {bytes : Bytes} {frame : Frame}
    (hnext : (((OrderedFleet.ofSpecs specs).run steps).link source target).head? = some bytes)
    (hd : Frame.decode bytes = .ok frame) (hplain : frame.kind = .plain)
    (accepts : Address → Bytes → Bool) :
    (¬ (OrderedFleet.ofSpecs specs).MissesRestart source target steps frame.timestamp →
        (((OrderedFleet.ofSpecs specs).run steps).step (.arrive source target accepts)).arrivals =
          ((OrderedFleet.ofSpecs specs).run steps).arrivals ++
            [{ target, message := { source, id := none, fields := frame.fields } }]) ∧
      ((OrderedFleet.ofSpecs specs).MissesRestart source target steps frame.timestamp →
        (((OrderedFleet.ofSpecs specs).run steps).step (.arrive source target accepts)).arrivals =
          ((OrderedFleet.ofSpecs specs).run steps).arrivals) := by
  have ho := (OrderedFleet.isOrderly_ofSpecs specs).run steps
  have harrives := OrderedFleet.arrivals_arrive_plain ho there hnext hd hplain accepts
  have hstale : (OrderedFleet.ofSpecs specs).MissesRestart source target steps frame.timestamp ↔
      isFreshAfter (((OrderedFleet.ofSpecs specs).run steps).tracked target source)
        frame.timestamp = false := by
    cases htimestamp : frame.timestamp with
    | none => simp [OrderedFleet.MissesRestart, isFreshAfter]
    | some stamp =>
      apply OrderedFleet.missesRestart_iff specs hne havoids hnext
      simp [stamp?, hd, hplain, htimestamp]
  rw [hstale, harrives]
  refine ⟨fun hfresh => ?_, fun hold => ?_⟩
  · rw [if_pos (by simpa using hfresh)]
  · rw [if_neg (by rw [hold]; exact Bool.false_ne_true), List.append_nil]

/-- Two hosts that evict each other after one timeout. The first one hears nothing and evicts the
second one, which finds nobody idle, because it sends. Its datagrams are lost. -/
theorem plain_delivered_unless_restart_missed_once :
    let near : Address := .loopback 9001
    let far : Address := .loopback 9002
    let accepts : Address → Bytes → Bool := fun _ _ => true
    let specs : List HostSpec :=
      [{ config := { selfAddress := near, peerMaxTimeouts := 1 } },
        { config := { selfAddress := far, peerMaxTimeouts := 1 } }]
    let send : OrderedStep := .send near far {} .unreliable accepts
    let silence : List OrderedStep :=
      [.wait near 5000, .wait far 5000, .send far near {} .unreliable accepts, .lose far near,
        .wait near 5000, .wait far 5000]
    let steps := [send, .arrive near far accepts] ++ silence ++
      [.timeoutSweep near accepts, .timeoutSweep far accepts, send]
    ((OrderedFleet.ofSpecs specs).run steps).link near far = [[0, 0, 0, 0, 0, 0, 0]] ∧
      (OrderedFleet.ofSpecs specs).MissesRestart near far steps (some 0) ∧
      (((OrderedFleet.ofSpecs specs).run steps).step (.arrive near far accepts)).arrivals =
        ((OrderedFleet.ofSpecs specs).run steps).arrivals := by
  intro near far accepts specs send silence steps
  have hne : far ≠ near := by decide
  have hlink : ((OrderedFleet.ofSpecs specs).run steps).link near far = [[0, 0, 0, 0, 0, 0, 0]] := by
    decide +kernel
  have htracks : (OrderedFleet.ofSpecs specs).StillTracks near far steps 0 0 := by
    refine ⟨[send], .arrive near far accepts, silence ++
      [.timeoutSweep near accepts, .timeoutSweep far accepts, send], rfl, by decide +kernel,
      by decide +kernel, ?_⟩
    intro between accepts' later hsplit
    have honly : silence ++ [.timeoutSweep near accepts] ++ .timeoutSweep far accepts :: [send] =
      between ++ .timeoutSweep far accepts' :: later := by simpa using hsplit
    obtain ⟨rfl, -⟩ := (List.append_cons_inj_of_notMem (by simp [silence, hne])
      (by simp [send])).1 honly
    exact OrderedFleet.isAwakeAt_of_all (by decide +kernel) near
  have hrestarts : (OrderedFleet.ofSpecs specs).RestartsAt near far steps 1 :=
    ⟨[send, .arrive near far accepts] ++ silence, accepts, [.timeoutSweep far accepts, send],
      by simp [steps], by decide +kernel, by decide +kernel⟩
  have hmissed : (OrderedFleet.ofSpecs specs).MissesRestart near far steps (some 0) :=
    ⟨0, 0, 1, htracks, by decide, hrestarts, by decide, by decide +kernel⟩
  have halong : OrderedFleet.Along (OrderedFleet.AvoidsLast · near far)
      (OrderedFleet.ofSpecs specs) steps := by decide +kernel
  have hframe : Frame.decode [0, 0, 0, 0, 0, 0, 0] = .ok
      { header := { flags := .ofByte 0, messageId := none }, kind := .plain, timestamp := some 0,
        fields := {} } := by
    decide +kernel
  obtain ⟨-, hdropped⟩ := plain_delivered_unless_restart_missed specs hne.symm steps
    (fun _ _ _ => halong.split) (by decide +kernel) (by rw [hlink]; rfl) hframe rfl accepts
  exact ⟨hlink, hmissed, hdropped hmissed⟩

lemma OrderedFleet.arrivals_step_of_silent {fleet : OrderedFleet} (h : InTransit fleet)
    {step : OrderedStep} (hsilent : fleet.effects step = []) :
    (fleet.step step).arrivals = fleet.arrivals := by
  have hmove := ordered_move h step
  generalize fleet.step step = after at hmove ⊢
  cases hmove with
  | unchanged idle => rfl
  | waited there duration is => rfl
  | lost link is => rfl
  | acted given acts =>
    rw [effects_of_task? given] at hsilent
    rw [acts.arrivals, hsilent]
    exact List.append_nil _

/-- The clock of a host advances by no more than the interval from one of its sweeps to the next. So
much time has passed since the last one. -/
def sweepsWithin (host : Address) (interval : Nat) : Nat → List OrderedStep → Bool
  | _, [] => true
  | elapsed, .wait other duration :: rest =>
    if other = host then
      decide (elapsed + duration ≤ interval) && sweepsWithin host interval (elapsed + duration) rest
    else sweepsWithin host interval elapsed rest
  | elapsed, .timeoutSweep other _ :: rest =>
    sweepsWithin host interval (if other = host then 0 else elapsed) rest
  | elapsed, _ :: rest => sweepsWithin host interval elapsed rest

/-- Two hosts with the default configuration. The first one hears nothing for two minutes and evicts
the second one, which sends every five seconds. Then the first one begins again with the timestamp 0,
and its frame is dropped. -/
theorem restarted_counter_taken_for_replay :
    let near : Config := { selfAddress := .loopback 9001 }
    let far : Config := { selfAddress := .loopback 9002 }
    let accepts : Address → Bytes → Bool := fun _ _ => true
    let start := OrderedFleet.ofSpecs [{ config := near }, { config := far }]
    let send : OrderedStep := .send near.selfAddress far.selfAddress {} .unreliable accepts
    let chat : List OrderedStep :=
      [.send far.selfAddress near.selfAddress {} .unreliable accepts,
        .lose far.selfAddress near.selfAddress]
    let rounds := OrderedFleet.sweepRounds [near.selfAddress, far.selfAddress]
      near.timeoutSweepInterval accepts
    let spell := rounds 50 ++ chat ++ rounds 49 ++ rounds 1 ++ chat
    let steps := [send, .arrive near.selfAddress far.selfAddress accepts] ++
      (List.replicate 12 spell).flatten ++ [send]
    let bytes : Bytes := [0, 0, 0, 0, 0, 0, 0]
    sweepsWithin near.selfAddress near.timeoutSweepInterval 0 steps ∧
      sweepsWithin far.selfAddress far.timeoutSweepInterval 0 steps ∧
      (∀ earlier step later, steps = earlier ++ step :: later →
        (start.run earlier).AvoidsLast near.selfAddress far.selfAddress step) ∧
      (start.run steps).link near.selfAddress far.selfAddress = [bytes] ∧
      (∃ frame, Frame.decode bytes = .ok frame ∧ frame.kind = .plain) ∧
      ((start.run steps).step (.arrive near.selfAddress far.selfAddress accepts)).arrivals =
        (start.run steps).arrivals := by
  intro near far accepts start send chat rounds spell steps bytes
  let pace : OrderedFleet.Pace :=
    { hosts := [near.selfAddress, far.selfAddress], interval := near.timeoutSweepInterval, accepts }
  -- a quiet stretch ends where the next sweep finds the second host idle
  let stretches : List OrderedFleet.Stretch :=
    .busy [send, .arrive near.selfAddress far.selfAddress accepts] ::
      (List.replicate 12 [.quiet 50, .busy chat, .quiet 49, .busy (rounds 1 ++ chat)]).flatten ++
      [.busy [send]]
  have hsteps : steps = stretches.flatMap pace.steps := by
    simp only [steps, stretches, List.flatMap_append, List.flatMap_cons, List.flatMap_nil]
    simp [spell, OrderedFleet.Pace.steps, rounds, pace, List.flatMap_def]
  have hfits : pace.Fits near.selfAddress far.selfAddress start stretches := by decide +kernel
  have htransit : OrderedFleet.InTransit start := (OrderedFleet.isOrderly_ofSpecs _).transit
  obtain ⟨halong, hend⟩ := hfits.follows (by decide) (.refl start) htransit htransit
  rw [← hsteps] at halong hend
  refine ⟨by decide +kernel, by decide +kernel, fun _ _ _ => halong.split, ?_, ?_, ?_⟩
  · rw [hend.link]
    decide +kernel
  · have hframe : Frame.decode bytes = .ok
        { header := { flags := .ofByte 0, messageId := none }, kind := .plain, timestamp := some 0,
          fields := {} } := by
      decide +kernel
    exact ⟨_, hframe, rfl⟩
  · apply OrderedFleet.arrivals_step_of_silent (htransit.run steps)
    rw [hend.effects]
    decide +kernel

end ReliableDatagrams.Proofs
