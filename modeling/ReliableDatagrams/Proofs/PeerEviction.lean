import ReliableDatagrams.Proofs.PeerSteps

/-!
# Peers are evicted after silence

A sweep that finds a peer idle takes it one timeout closer to its eviction, and the idle time starts
anew. Every interaction takes all of that back. So a peer is evicted by the sweep that is the last
one of its bound to find it idle since the last interaction, `idleTimes` being the times of such
sweeps, and by no other step. Until then the counter of its numbers goes on, whatever timeouts there
are.
-/

namespace ReliableDatagrams.Proofs

/-- Which of some times come so long after the one before, or after the beginning. -/
def idleTimes (timeout : Nat) : (since : Nat) → List Nat → List Nat
  | _, [] => []
  | since, time :: rest =>
    if timeout ≤ time - since then time :: idleTimes timeout time rest
    else idleTimes timeout since rest

/-- The last time of idleness, from which idle time is counted anew. -/
def lastIdle (timeout since : Nat) (times : List Nat) : Nat :=
  (idleTimes timeout since times).getLastD since

section IdleTimes

variable {timeout since : Nat} {times : List Nat}

lemma idleTimes_concat (timeout since : Nat) (times : List Nat) (time : Nat) :
    idleTimes timeout since (times ++ [time]) = idleTimes timeout since times ++
      if timeout ≤ time - lastIdle timeout since times then [time] else [] := by
  induction times generalizing since with
  | nil => rfl
  | cons first rest ih =>
    simp only [List.cons_append, idleTimes, lastIdle]
    split
    · rw [ih, List.cons_append, lastIdle, List.getLastD_cons]
    · rw [ih, lastIdle]

lemma idleTimes_of_idle {time : Nat} (h : timeout ≤ time - lastIdle timeout since times) :
    idleTimes timeout since (times ++ [time]) = idleTimes timeout since times ++ [time] := by
  rw [idleTimes_concat, if_pos h]

lemma idleTimes_of_awake {time : Nat} (h : time - lastIdle timeout since times < timeout) :
    idleTimes timeout since (times ++ [time]) = idleTimes timeout since times := by
  rw [idleTimes_concat, if_neg (Nat.not_le.2 h), List.append_nil]

lemma lastIdle_of_idle {time : Nat} (h : timeout ≤ time - lastIdle timeout since times) :
    lastIdle timeout since (times ++ [time]) = time := by
  rw [lastIdle, idleTimes_of_idle h, List.getLastD_concat]

/-- Each of them takes a whole timeout. -/
lemma le_lastIdle (hpos : 0 < timeout) (since : Nat) (times : List Nat) :
    since + (idleTimes timeout since times).length * timeout ≤ lastIdle timeout since times := by
  induction times using List.reverseRecOn with
  | nil => exact Nat.le_of_eq (Nat.add_eq_left.2 (Nat.zero_mul _))
  | append_singleton times time ih =>
    by_cases hidle : timeout ≤ time - lastIdle timeout since times
    · rw [lastIdle_of_idle hidle, idleTimes_of_idle hidle, List.length_append, Nat.add_mul]
      simp only [List.length_singleton, Nat.one_mul]
      omega
    · have hawake := idleTimes_of_awake (Nat.lt_of_not_le hidle)
      rw [lastIdle, hawake]
      exact ih

end IdleTimes

/-- Something holds of every step of a run. -/
def Along (P : History → EngineStep → Prop) : History → List EngineStep → Prop
  | _, [] => True
  | history, step :: rest => P history step ∧ Along P (history.step step) rest

def sweepTimes (steps : List EngineStep) : List Nat :=
  steps.filterMap fun step => match step with
    | .work occasion .timeoutSweep => some occasion.now
    | _ => none

/-- How many numbers a run takes from the counter of a peer. -/
def drawsAlong (peer : Address) : History → List EngineStep → Nat
  | _, [] => 0
  | history, step :: rest =>
    drawsBy history.engine peer step + drawsAlong peer (history.step step) rest

/-- A run consists of what comes before the last interaction with a peer, of this, and of
silence. -/
structure LastInteraction (start : History) (peer : Address) (steps before : List EngineStep)
    (touch : EngineStep) (silence : List EngineStep) : Prop where
  split : steps = before ++ touch :: silence
  interacts : Interacts (start.run before).engine peer touch
  silent : Along (fun history step => ¬ Interacts history.engine peer step)
    ((start.run before).step touch) silence

def Evicts (engine : Engine) (peer : Address) (after : Engine) : Prop :=
  ∃ record, engine.store.peers[peer]? = some record ∧
    ∀ later, after.store.peers[peer]? = some later → later.serial ≠ record.serial

section Runs

variable {start : History} {peer : Address} {steps before silence : List EngineStep}
variable {touch : EngineStep}

lemma along_concat {P : History → EngineStep → Prop} {history : History} {step : EngineStep} :
    Along P history (steps ++ [step]) ↔ Along P history steps ∧ P (history.run steps) step := by
  induction steps generalizing history with
  | nil => exact ⟨fun h => ⟨trivial, h.1⟩, fun h => ⟨h.2, trivial⟩⟩
  | cons first rest ih =>
    exact (and_congr_right fun _ => ih).trans and_assoc.symm

lemma sweepTimes_concat (steps : List EngineStep) (step : EngineStep) :
    sweepTimes (steps ++ [step]) = sweepTimes steps ++ sweepTimes [step] :=
  List.filterMap_append

lemma run_of_split (h : steps = before ++ touch :: silence) :
    start.run steps = ((start.run before).step touch).run silence := by
  rw [h, History.run_append]
  rfl

lemma LastInteraction.concat (h : LastInteraction start peer steps before touch silence)
    {step : EngineStep} (hsilent : ¬ Interacts (start.run steps).engine peer step) :
    LastInteraction start peer (steps ++ [step]) before touch (silence ++ [step]) where
  split := by rw [h.split, List.append_assoc, List.cons_append]
  interacts := h.interacts
  silent := along_concat.2 ⟨h.silent, by rwa [← run_of_split h.split]⟩

end Runs

/-- A peer of which nothing is heard after some time, when sweeps have come at some times. -/
structure Fades (timeout : Nat) (most : UInt32) (since : Nat) (times : List Nat)
    (found : Option PeerRecord) : Prop where
  kept : (idleTimes timeout since times).length < most.toNat → ∃ record, found = some record ∧
    record.timeouts.toNat = (idleTimes timeout since times).length ∧
    record.lastInteraction = lastIdle timeout since times
  gone : most.toNat ≤ (idleTimes timeout since times).length → found = none

section Fading

variable {timeout since : Nat} {most : UInt32} {times : List Nat} {found : Option PeerRecord}

lemma sweptPeer?_kept {now : Nat} {record kept : PeerRecord}
    (h : sweptPeer? now record = some kept) :
    kept.serial = record.serial ∧ kept.nextTimestamp = record.nextTimestamp := by
  unfold sweptPeer? at h
  split at h
  · cases h
    exact ⟨rfl, rfl⟩
  · split at h
    · cases h
    · cases h
      exact ⟨rfl, rfl⟩

/-- One sweep more. -/
lemma Fades.sweep (h : Fades timeout most since times found)
    (hbounds : ∀ record, found = some record →
      record.timeout = timeout ∧ record.maxTimeouts = most) (time : Nat) :
    Fades timeout most since (times ++ [time]) (found.bind (sweptPeer? time)) := by
  by_cases hfew : (idleTimes timeout since times).length < most.toNat
  · obtain ⟨record, rfl, htimeouts, hlast⟩ := h.kept hfew
    obtain ⟨htimeout, hmost⟩ := hbounds record rfl
    have hcount : (record.timeouts + 1).toNat = (idleTimes timeout since times).length + 1 := by
      rw [← htimeouts] at hfew ⊢
      exact toNat_succ_of_lt (UInt32.lt_iff_toNat_lt.2 hfew)
    have hfull : most ≤ record.timeouts + 1 ↔
        most.toNat ≤ (idleTimes timeout since times).length + 1 := by
      rw [UInt32.le_iff_toNat_le, hcount]
    rw [Option.bind_some, sweptPeer?, PeerRecord.idleTime, hlast, htimeout, hmost]
    by_cases hidle : timeout ≤ time - lastIdle timeout since times
    · have hlength : (idleTimes timeout since (times ++ [time])).length =
          (idleTimes timeout since times).length + 1 := by
        rw [idleTimes_of_idle hidle, List.length_append, List.length_singleton]
      rw [if_neg (Nat.not_lt.2 hidle)]
      constructor
      · intro hkept
        rw [hlength] at hkept ⊢
        rw [if_neg fun hmost => Nat.not_le.2 hkept (hfull.1 hmost)]
        exact ⟨_, rfl, hcount, (lastIdle_of_idle hidle).symm⟩
      · intro hgone
        rw [hlength] at hgone
        exact if_pos (hfull.2 hgone)
    · have hawake := idleTimes_of_awake (Nat.lt_of_not_le hidle)
      rw [if_pos (Nat.lt_of_not_le hidle)]
      refine ⟨fun _ => ⟨record, rfl, ?_, ?_⟩, fun hgone => ?_⟩
      · rw [hawake, htimeouts]
      · rw [lastIdle, hawake, hlast, lastIdle]
      · rw [hawake] at hgone
        exact absurd hfew (Nat.not_lt.2 hgone)
  · have hmost := Nat.le_of_not_lt hfew
    have hmore : most.toNat ≤ (idleTimes timeout since (times ++ [time])).length := by
      rw [idleTimes_concat, List.length_append]
      exact Nat.le_add_right_of_le hmost
    rw [h.gone hmost]
    exact ⟨fun hkept => absurd hkept (Nat.not_lt.2 hmore), fun _ => rfl⟩

end Fading

section Steps

variable {engine after : Engine} {peer : Address} {step : EngineStep}

/-- Until the interactions of a step begin, a record that stays keeps its counter. -/
lemma kept_of_knownBy {kept : PeerRecord} (h : knownBy engine peer step = some kept) :
    ∃ record, engine.store.peers[peer]? = some record ∧ kept.serial = record.serial ∧
      kept.nextTimestamp = record.nextTimestamp := by
  unfold knownBy at h
  split at h
  · obtain ⟨record, hrecord, hswept⟩ := Option.bind_eq_some_iff.1 h
    exact ⟨record, hrecord, sweptPeer?_kept hswept⟩
  · exact ⟨kept, h, rfl, rfl⟩

/-- A record leaves the store if there is nothing left of it when the interactions of a step
begin. -/
lemma PeerStep.evicts_iff (h : PeerStep engine peer step after) (hs : OwnSerials engine.store) :
    Evicts engine peer after ↔
      engine.store.peers[peer]? ≠ none ∧ knownBy engine peer step = none := by
  constructor
  · rintro ⟨record, hrecord, hgone⟩
    refine ⟨by rw [hrecord]; exact Option.some_ne_none _, ?_⟩
    cases hknown : knownBy engine peer step with
    | none => rfl
    | some kept =>
      obtain ⟨same, hsame, hserial, -⟩ := kept_of_knownBy hknown
      cases hrecord.symm.trans hsame
      by_cases hheard : Interacts engine peer step
      · obtain ⟨serial, -, later, hlater, htouched⟩ := h.heard hheard
        rw [hknown] at htouched
        exact absurd ((congrArg PeerRecord.serial htouched).trans hserial) (hgone later hlater)
      · exact absurd hserial (hgone kept ((h.silent hheard).trans hknown))
  · rintro ⟨hsome, hknown⟩
    obtain ⟨record, hrecord⟩ := Option.ne_none_iff_exists'.1 hsome
    refine ⟨record, hrecord, fun later hlater hserial => ?_⟩
    by_cases hheard : Interacts engine peer step
    · obtain ⟨serial, hfresh, found, hfound, htouched⟩ := h.heard hheard
      rw [hknown] at htouched
      cases hlater.symm.trans hfound
      have hnew : later.serial = serial := congrArg PeerRecord.serial htouched
      have hused := hs.used (.peer peer) record.serial (by rw [filedSerial?, hrecord]; rfl)
      omega
    · rw [h.silent hheard, hknown] at hlater
      cases hlater

/-- The counter of a record that stays goes on by the numbers that are taken. -/
lemma PeerStep.counter (h : PeerStep engine peer step after) (hs : OwnSerials engine.store)
    {record : PeerRecord} (hrecord : engine.store.peers[peer]? = some record)
    (hstays : ¬ Evicts engine peer after) :
    ∃ later, after.store.peers[peer]? = some later ∧ later.serial = record.serial ∧
      later.nextTimestamp = record.nextTimestamp + .ofNat (drawsBy engine peer step) := by
  have hknown : knownBy engine peer step ≠ none := fun hnone =>
    hstays ((h.evicts_iff hs).2 ⟨by rw [hrecord]; exact Option.some_ne_none _, hnone⟩)
  obtain ⟨kept, hkept⟩ := Option.ne_none_iff_exists'.1 hknown
  obtain ⟨same, hsame, hserial, hnext⟩ := kept_of_knownBy hkept
  cases hrecord.symm.trans hsame
  by_cases hheard : Interacts engine peer step
  · obtain ⟨serial, -, later, hlater, htouched⟩ := h.heard hheard
    rw [hkept] at htouched
    refine ⟨later, hlater, (congrArg PeerRecord.serial htouched).trans hserial, ?_⟩
    rw [← hnext]
    exact congrArg PeerRecord.nextTimestamp htouched
  · rw [drawsBy_of_not_interacts hheard, h.silent hheard]
    refine ⟨kept, hkept, hserial, hnext.trans (UInt16.add_zero _).symm⟩

end Steps

section FromStart

variable {config : Config} {firstId : UInt32} {steps before silence : List EngineStep}
variable {touch step : EngineStep} {peer : Address}

lemma peerTimeout_pos (h : config.validate = .ok ()) : 0 < config.peerTimeout := by
  by_contra hzero
  have hnone : config.peerTimeout = 0 ∨ config.connectionTimeout = 0 := by omega
  unfold Config.validate at h
  rw [if_pos hnone] at h
  repeat (split at h; · cases h)
  cases h

lemma peerStep_run (config : Config) (firstId : UInt32) (steps : List EngineStep)
    (step : EngineStep) (peer : Address) :
    PeerStep ((History.starting config firstId).run steps).engine peer step
      (((History.starting config firstId).run steps).step step).engine :=
  peerStep (isProper_run config firstId steps) (History.keepsFaith_run config firstId steps).senders
    step peer

lemma LastInteraction.fades (hmost : 0 < config.peerMaxTimeouts)
    (h : LastInteraction (.starting config firstId) peer steps before touch silence) :
    Fades config.peerTimeout config.peerMaxTimeouts touch.time (sweepTimes silence)
      ((History.starting config firstId).run steps).engine.store.peers[peer]? := by
  obtain ⟨rfl, hinteracts, hsilent⟩ := h
  induction silence using List.reverseRecOn with
  | nil =>
    have hstep := peerStep_run config firstId before touch peer
    obtain ⟨serial, -, record, hrecord, htouched⟩ := hstep.heard hinteracts
    rw [History.run_concat]
    refine ⟨fun _ => ⟨record, hrecord, ?_, ?_⟩, fun hnone => ?_⟩
    · exact congrArg (fun record => record.timeouts.toNat) htouched
    · exact congrArg PeerRecord.lastInteraction htouched
    · exact absurd (UInt32.lt_iff_toNat_lt.1 hmost) (Nat.not_lt.2 hnone)
  | append_singleton silence step ih =>
    obtain ⟨hearlier, hlast⟩ := along_concat.1 hsilent
    have hfades := ih hearlier
    rw [← run_of_split rfl] at hlast
    have hstep := peerStep_run config firstId (before ++ touch :: silence) step peer
    have hconfigured := isConfigured_run config firstId (before ++ touch :: silence)
    rw [← List.cons_append, ← List.append_assoc, History.run_concat, sweepTimes_concat,
      hstep.silent hlast]
    cases step with
    | send occasion target fields delivery => simpa [sweepTimes, knownBy] using hfades
    | work occasion task =>
      cases task with
      | receive source datagram => simpa [sweepTimes, knownBy] using hfades
      | deleteSweep => simpa [sweepTimes, knownBy] using hfades
      | timeoutSweep => exact hfades.sweep (hconfigured.peers peer) occasion.now

lemma exists_lastInteraction
    (h : ((History.starting config firstId).run steps).engine.store.peers[peer]? ≠ none) :
    ∃ before touch silence,
      LastInteraction (.starting config firstId) peer steps before touch silence := by
  induction steps using List.reverseRecOn with
  | nil =>
    refine absurd ?_ h
    exact Std.ExtTreeMap.getElem?_empty
  | append_singleton steps step ih =>
    have hstep := peerStep_run config firstId steps step peer
    rw [History.run_concat] at h
    by_cases hheard : Interacts ((History.starting config firstId).run steps).engine peer step
    · exact ⟨steps, step, [], rfl, hheard, trivial⟩
    · rw [hstep.silent hheard] at h
      obtain ⟨kept, hkept⟩ := Option.ne_none_iff_exists'.1 h
      obtain ⟨record, hrecord, -⟩ := kept_of_knownBy hkept
      obtain ⟨before, touch, silence, hlast⟩ :=
        ih (by rw [hrecord]; exact Option.some_ne_none _)
      exact ⟨before, touch, _, hlast.concat hheard⟩

/-- A sweep leaves nothing of a peer if it is the last one of its bound to find it idle. -/
lemma LastInteraction.swept_iff (hmost : 0 < config.peerMaxTimeouts)
    (h : LastInteraction (.starting config firstId) peer steps before touch silence)
    (occasion : Occasion) :
    Evicts ((History.starting config firstId).run steps).engine peer
        (((History.starting config firstId).run steps).step (.work occasion .timeoutSweep)).engine ↔
      (idleTimes config.peerTimeout touch.time (sweepTimes silence)).length <
          config.peerMaxTimeouts.toNat ∧
        (idleTimes config.peerTimeout touch.time (sweepTimes silence ++ [occasion.now])).length =
          config.peerMaxTimeouts.toNat := by
  have hstep := peerStep_run config firstId steps (.work occasion .timeoutSweep) peer
  have hbounds := (isConfigured_run config firstId steps).peers peer
  have hbefore := h.fades hmost
  have hafter := hbefore.sweep hbounds occasion.now
  rw [hstep.evicts_iff (isProper_run config firstId steps).serials]
  have hlength : (idleTimes config.peerTimeout touch.time
      (sweepTimes silence ++ [occasion.now])).length ≤
        (idleTimes config.peerTimeout touch.time (sweepTimes silence)).length + 1 := by
    rw [idleTimes_concat, List.length_append]
    split <;> simp
  constructor
  · rintro ⟨hsome, hnone⟩
    have hfew := Nat.lt_of_not_le fun hmany => hsome (hbefore.gone hmany)
    refine ⟨hfew, Nat.le_antisymm (by omega) (Nat.le_of_not_lt fun hkept => ?_)⟩
    obtain ⟨record, hrecord, -⟩ := hafter.kept hkept
    exact Option.some_ne_none _ (hrecord.symm.trans hnone)
  · rintro ⟨hfew, hmany⟩
    obtain ⟨record, hrecord, -⟩ := hbefore.kept hfew
    exact ⟨by rw [hrecord]; exact Option.some_ne_none _, hafter.gone (Nat.le_of_eq hmany.symm)⟩

lemma exists_sweep_of_evicts
    (h : Evicts ((History.starting config firstId).run steps).engine peer
      (((History.starting config firstId).run steps).step step).engine) :
    ∃ occasion, step = .work occasion .timeoutSweep := by
  have hstep := peerStep_run config firstId steps step peer
  obtain ⟨hsome, hnone⟩ := (hstep.evicts_iff (isProper_run config firstId steps).serials).1 h
  unfold knownBy at hnone
  split at hnone
  · exact ⟨_, rfl⟩
  · exact absurd hnone hsome

lemma counter_run {record : PeerRecord} (more : List EngineStep)
    (hrecord : ((History.starting config firstId).run steps).engine.store.peers[peer]? =
      some record)
    (hstays : Along (fun history step => ¬ Evicts history.engine peer (history.step step).engine)
      ((History.starting config firstId).run steps) more) :
    ∃ later, (((History.starting config firstId).run steps).run more).engine.store.peers[peer]? =
        some later ∧ later.serial = record.serial ∧
      later.nextTimestamp = record.nextTimestamp +
        .ofNat (drawsAlong peer ((History.starting config firstId).run steps) more) := by
  induction more generalizing steps record with
  | nil => exact ⟨record, hrecord, rfl, (UInt16.add_zero _).symm⟩
  | cons step rest ih =>
    obtain ⟨hfirst, hrest⟩ := hstays
    have hstep := peerStep_run config firstId steps step peer
    obtain ⟨between, hbetween, hserial, hnext⟩ :=
      hstep.counter (isProper_run config firstId steps).serials hrecord hfirst
    rw [← History.run_concat] at hbetween hrest
    obtain ⟨later, hlater, hsame, hcounter⟩ := ih hbetween hrest
    rw [History.run_concat] at hlater hcounter
    refine ⟨later, hlater, hsame.trans hserial, ?_⟩
    rw [hcounter, hnext, UInt16.add_assoc, ← UInt16.ofNat_add]
    rfl

end FromStart

/-- An engine with a valid configuration, after any run. A step evicts a peer if and only if it is a
sweep, there was an interaction with the peer, and since the last one this sweep is the last of the
peer's bound to find it idle, where idle time is counted anew after each sweep that does. So the
last interaction is at least as many timeouts ago as the bound says. And through any further steps
of which none evicts the peer, its record stays the same, and its counter goes on by exactly the
numbers that are taken. -/
theorem evicted_iff_silent {config : Config} (hvalid : config.validate = .ok ()) (firstId : UInt32)
    (steps : List EngineStep) (peer : Address) :
    let start := History.starting config firstId
    let history := start.run steps
    (∀ step, Evicts history.engine peer (history.step step).engine ↔
      ∃ occasion before touch silence, step = .work occasion .timeoutSweep ∧
        LastInteraction start peer steps before touch silence ∧
        (idleTimes config.peerTimeout touch.time (sweepTimes silence)).length <
          config.peerMaxTimeouts.toNat ∧
        (idleTimes config.peerTimeout touch.time (sweepTimes silence ++ [occasion.now])).length =
          config.peerMaxTimeouts.toNat) ∧
    (∀ step before touch silence, Evicts history.engine peer (history.step step).engine →
      LastInteraction start peer steps before touch silence →
        touch.time + config.peerMaxTimeouts.toNat * config.peerTimeout ≤ step.time) ∧
    ∀ more record, history.engine.store.peers[peer]? = some record →
      Along (fun history step => ¬ Evicts history.engine peer (history.step step).engine) history
        more →
      ∃ later, (history.run more).engine.store.peers[peer]? = some later ∧
        later.serial = record.serial ∧
        later.nextTimestamp = record.nextTimestamp + .ofNat (drawsAlong peer history more) := by
  intro start history
  have hmost := peerMaxTimeouts_pos hvalid
  refine ⟨fun step => ⟨fun hevicts => ?_, ?_⟩, ?_, fun more record => counter_run more⟩
  · obtain ⟨occasion, rfl⟩ := exists_sweep_of_evicts hevicts
    have hstep := peerStep_run config firstId steps (.work occasion .timeoutSweep) peer
    have hknown := ((hstep.evicts_iff (isProper_run config firstId steps).serials).1 hevicts).1
    obtain ⟨before, touch, silence, hlast⟩ := exists_lastInteraction hknown
    exact ⟨occasion, before, touch, silence, rfl, hlast,
      (hlast.swept_iff hmost occasion).1 hevicts⟩
  · rintro ⟨occasion, before, touch, silence, rfl, hlast, hidle⟩
    exact (hlast.swept_iff hmost occasion).2 hidle
  · intro step before touch silence hevicts hlast
    obtain ⟨occasion, rfl⟩ := exists_sweep_of_evicts hevicts
    obtain ⟨hfew, hmany⟩ := (hlast.swept_iff hmost occasion).1 hevicts
    have hspaced := le_lastIdle (peerTimeout_pos hvalid) touch.time
      (sweepTimes silence ++ [occasion.now])
    have hidle : config.peerTimeout ≤
        occasion.now - lastIdle config.peerTimeout touch.time (sweepTimes silence) := by
      by_contra hawake
      rw [idleTimes_of_awake (Nat.lt_of_not_le hawake)] at hmany
      omega
    rwa [hmany, lastIdle_of_idle hidle] at hspaced

/-- A message is sent to a peer, and nothing more is heard. The first sweep finds it idle, the
second comes too early to find it idle again, and the third evicts it. Until then its counter is
what the message has left. -/
theorem evicted_after_two_timeouts :
    let config : Config :=
      { selfAddress := .loopback 9001, peerTimeout := 1000, peerMaxTimeouts := 2 }
    let target : Address := .loopback 9002
    let occasion (now : Nat) : Occasion := ⟨now, fun _ _ => true⟩
    let start := History.starting config 1
    let touch : EngineStep := .send (occasion 5) target {} .unreliable
    let silence : List EngineStep := [.work (occasion 1200) .timeoutSweep,
      .work (occasion 2100) .timeoutSweep]
    let last : EngineStep := .work (occasion 2200) .timeoutSweep
    let history := start.run (touch :: silence)
    config.validate = .ok () ∧ LastInteraction start target (touch :: silence) [] touch silence ∧
      outgoingTimestamp history.engine target = 1 ∧
      Evicts history.engine target (history.step last).engine := by
  intro config target occasion start touch silence last history
  have hvalid : config.validate = .ok () := by decide
  have hlast : LastInteraction start target (touch :: silence) [] touch silence := by
    refine ⟨rfl, rfl, ?_, ?_, trivial⟩ <;> (change ¬ 0 < repeatsTo _ _ _ _; decide +kernel)
  obtain ⟨hiff, -⟩ := evicted_iff_silent hvalid 1 (touch :: silence) target
  refine ⟨hvalid, hlast, by decide +kernel, (hiff last).2 ?_⟩
  exact ⟨occasion 2200, [], touch, silence, rfl, hlast, by decide, by decide⟩

end ReliableDatagrams.Proofs
