import ReliableDatagrams.Proofs.ReplayRejection

/-!
# Counters that restart

A host that evicts the record of a peer forgets its counter of timestamps with it: the next frame to
the peer carries 0 again. It evicts the peer after silence in both directions, as far as it can tell.
The peer goes by a clock of its own. What it sends itself counts as interaction, too, and if all of it
is lost, then the peer never finds the host idle and goes on to track the timestamps from before the
restart.

Frames are counted here in the order in which they were written. A restart is known by how many frames
were written before it, and whatever the target tracks by the number of the frame that brought it. So
of two frames, the later one has the greater timestamp unless there is a restart between them.
-/

namespace ReliableDatagrams.Proofs

/-- Of two timestamps, and the next one is among them, the later one is greater, unless there is a
restart between them. A restart is given by how many timestamps come before it. -/
structure RisesBetween (restarts : Nat → Prop) (stamps : List (Option UInt16)) (next : UInt16) :
    Prop where
  numbered : none ∉ stamps
  rise : ∀ first second earlier later, first < second →
    stamps[first]? = some (some earlier) → stamps[second]? = some (some later) →
      earlier < later ∨ ∃ mark, restarts mark ∧ first < mark ∧ mark ≤ second
  last : ∀ first earlier, stamps[first]? = some (some earlier) →
    earlier < next ∨ ∃ mark, restarts mark ∧ first < mark ∧ mark ≤ stamps.length

section Rising

variable {restarts : Nat → Prop} {stamps : List (Option UInt16)} {next : UInt16}

lemma risesBetween_nil : RisesBetween restarts [] next where
  numbered := List.not_mem_nil
  rise first second earlier later _ hfirst := by cases hfirst
  last first earlier hfirst := by cases hfirst

lemma RisesBetween.mono (h : RisesBetween restarts stamps next) {more : Nat → Prop}
    (hmore : ∀ mark, restarts mark → more mark) : RisesBetween more stamps next where
  numbered := h.numbered
  rise first second earlier later hlt hfirst hsecond :=
    (h.rise first second earlier later hlt hfirst hsecond).imp_right
      fun ⟨mark, hmark, hbetween⟩ => ⟨mark, hmore mark hmark, hbetween⟩
  last first earlier hfirst :=
    (h.last first earlier hfirst).imp_right
      fun ⟨mark, hmark, hbetween⟩ => ⟨mark, hmore mark hmark, hbetween⟩

lemma RisesBetween.spend (h : RisesBetween restarts stamps next)
    (hearly : next ≠ wraparoundTimestamp) : RisesBetween restarts stamps (next + 1) where
  numbered := h.numbered
  rise := h.rise
  last first earlier hfirst :=
    (h.last first earlier hfirst).imp_left fun hlt =>
      UInt16.lt_trans hlt (lt_add_one_of_ne hearly)

lemma getElem?_concat_some {α : Type} {values : List α} {last found : α} {index : Nat}
    (h : (values ++ [last])[index]? = some found) :
    values[index]? = some found ∨ index = values.length ∧ found = last := by
  rcases Nat.lt_or_ge index values.length with hinside | hbeyond
  · rw [List.getElem?_append_left hinside] at h
    exact Or.inl h
  · rw [List.getElem?_append_right hbeyond, List.getElem?_singleton] at h
    split at h
    · exact Or.inr ⟨by omega, (Option.some.inj h).symm⟩
    · cases h

lemma RisesBetween.write (h : RisesBetween restarts stamps next)
    (hearly : next ≠ wraparoundTimestamp) :
    RisesBetween restarts (stamps ++ [some next]) (next + 1) where
  numbered := by simp [h.numbered]
  rise first second earlier later hlt hfirst hsecond := by
    rcases getElem?_concat_some hsecond with hold | ⟨rfl, hnew⟩
    · have hinside := (List.getElem?_eq_some_iff.1 hold).1
      rw [List.getElem?_append_left (by omega)] at hfirst
      exact h.rise first second earlier later hlt hfirst hold
    · rw [List.getElem?_append_left hlt] at hfirst
      rw [Option.some.inj hnew]
      exact h.last first earlier hfirst
  last first earlier hfirst := by
    have hup := lt_add_one_of_ne hearly
    rcases getElem?_concat_some hfirst with hold | ⟨rfl, hnew⟩
    · rcases h.last first earlier hold with hlt | ⟨mark, hmark, hafter, hbefore⟩
      · exact Or.inl (UInt16.lt_trans hlt hup)
      · exact Or.inr ⟨mark, hmark, hafter, by rw [List.length_append]; omega⟩
    · rw [Option.some.inj hnew]
      exact Or.inl hup

lemma RisesBetween.restart (h : RisesBetween restarts stamps next)
    (hmark : restarts stamps.length) (other : UInt16) : RisesBetween restarts stamps other where
  numbered := h.numbered
  rise := h.rise
  last _ _ hfirst :=
    Or.inr ⟨stamps.length, hmark, (List.getElem?_eq_some_iff.1 hfirst).1, Nat.le_refl _⟩

end Rising

/-- What an engine hands to its socket for a peer, be it accepted or not. -/
def handedTo (peer : Address) (effects : List Effect) : List Bytes :=
  effects.filterMap fun effect => match effect with
    | .sent target bytes _ => if target = peer then some bytes else none
    | .delivered _ => none

/-- No frame is written to a peer by which it would track timestamps from 0 again. -/
def SendsNoReset (peer : Address) (effects : List Effect) : Prop :=
  ∀ bytes ∈ handedTo peer effects, stamp? bytes ≠ some none

instance (peer : Address) (effects : List Effect) : Decidable (SendsNoReset peer effects) :=
  inferInstanceAs (Decidable (∀ bytes ∈ handedTo peer effects, stamp? bytes ≠ some none))

section Sender

variable {engine after : Engine} {effects : List Effect} {peer : Address}
variable {restarts : Nat → Prop} {stamps : List (Option UInt16)}

lemma mem_handedTo {bytes : Bytes} {accepted : Bool} (h : .sent peer bytes accepted ∈ effects) :
    bytes ∈ handedTo peer effects :=
  List.mem_filterMap.2 ⟨_, h, if_pos rfl⟩

lemma handedTo_append (more : List Effect) :
    handedTo peer (effects ++ more) = handedTo peer effects ++ handedTo peer more :=
  List.filterMap_append

lemma none_notMem_stampsTo (h : SendsNoReset peer effects) : none ∉ stampsTo peer effects := by
  intro hmem
  obtain ⟨effect, heffect, hstamp⟩ := List.mem_filterMap.1 hmem
  cases effect with
  | delivered message => cases hstamp
  | sent target bytes accepted =>
    cases accepted with
    | false => cases hstamp
    | true =>
      dsimp only at hstamp
      split at hstamp
      · rename_i htarget
        subst htarget
        exact h bytes (mem_handedTo heffect) hstamp
      · cases hstamp

lemma RisesBetween.draws (h : RisesBetween restarts stamps (outgoingTimestamp engine peer))
    (hdraws : Draws engine peer after effects) (hnone : SendsNoReset peer effects) :
    RisesBetween restarts (stamps ++ stampsTo peer effects) (outgoingTimestamp after peer) := by
  cases hdraws with
  | refused reset =>
    obtain ⟨bytes, hmem, hunstamped⟩ := reset
    exact absurd hunstamped (hnone bytes (mem_handedTo hmem))
  | kept counter silent =>
    rw [counter, silent, List.append_nil]
    exact h
  | spent counter early silent =>
    rw [counter, silent, List.append_nil]
    exact h.spend early
  | written counter written =>
    have hnumbered := none_notMem_stampsTo hnone
    rw [written, stampOf] at hnumbered
    rw [counter, written, stampOf]
    split at hnumbered
    · exact absurd (List.mem_singleton_self none) hnumbered
    · rename_i hearly
      rw [if_neg hearly]
      exact h.write hearly

lemma RisesBetween.timeoutSweep
    (h : RisesBetween restarts stamps (outgoingTimestamp engine peer)) (hk : KeepsOwn engine)
    (occasion : Occasion)
    (hevicts : ∀ record, engine.store.peers[peer]? = some record →
      sweptPeer? occasion.now record = none → restarts stamps.length)
    (hnone : SendsNoReset peer (engine.timeoutSweep occasion).2) :
    RisesBetween restarts (stamps ++ stampsTo peer (engine.timeoutSweep occasion).2)
      (outgoingTimestamp (engine.timeoutSweep occasion).1 peer) := by
  have hvisited := @timeoutSweep_of_swept engine occasion peer hk.filed
    (fun between effects => KeepsOwn between ∧ (SendsNoReset peer effects →
      RisesBetween restarts (stamps ++ stampsTo peer effects) (outgoingTimestamp between peer))) ?_ ?_
  · exact hvisited.2 hnone
  · intro between hwell hpeer hconnections hconfig
    refine ⟨⟨hwell, by rw [hconnections, hconfig]; exact hk.buffers⟩, fun _ => ?_⟩
    have hnothing : stampsTo peer [] = [] := rfl
    rw [hnothing, List.append_nil, outgoingTimestamp, hpeer]
    unfold outgoingTimestamp at h
    cases hrecord : engine.store.peers[peer]? with
    | none => rwa [hrecord] at h
    | some record =>
      cases hswept : sweptPeer? occasion.now record with
      | none => exact h.restart (hevicts record hrecord hswept) _
      | some left =>
        have hnext : left.nextTimestamp = record.nextTimestamp := by
          unfold sweptPeer? at hswept
          grind [PeerRecord.resetOrExpire]
        rw [hrecord] at h
        simpa [hswept, hnext] using h
  · intro between effects key hwell hinv
    have hmove := @EngineMove.visitedConnection between occasion key
    refine ⟨hinv.1.move hmove, fun hsilent => ?_⟩
    unfold SendsNoReset at hsilent
    rw [handedTo_append, List.forall_mem_append] at hsilent
    obtain ⟨hearlier, hlater⟩ := hsilent
    have hdraws := (sweepConnection_retries occasion hwell key).draws occasion hwell
      hinv.1.buffers peer
    rw [stampsTo_append, ← List.append_assoc]
    exact (hinv.2 hearlier).draws hdraws hlater

end Sender

section Receiver

variable {engine : Engine} {peer : Address}

lemma filterMap_arrivalOf? (host : Address) (effects : List Effect) :
    effects.filterMap (arrivalOf? host) = (deliveries effects).map (Arrival.mk host) := by
  unfold deliveries
  rw [List.map_filterMap]
  congr 1
  funext effect
  cases effect <;> rfl

/-- A sweep that finds a peer idle forgets what is tracked for it. -/
lemma tracked_timeoutSweep_of_idle (hk : KeepsOwn engine) (occasion : Occasion)
    (hidle : ¬ IsAwake engine peer occasion.now) :
    trackedTimestamp (engine.timeoutSweep occasion).1 peer = none := by
  have hvisited := @timeoutSweep_of_swept engine occasion peer hk.filed
    (fun between _ => KeepsOwn between ∧ trackedTimestamp between peer = none) ?_ ?_
  · exact hvisited.2
  · intro between hwell hpeer hconnections hconfig
    refine ⟨⟨hwell, by rw [hconnections, hconfig]; exact hk.buffers⟩, ?_⟩
    rw [trackedTimestamp, hpeer]
    simp only [IsAwake, Classical.not_forall] at hidle
    obtain ⟨record, hrecord, hlate⟩ := hidle
    rw [hrecord, Option.bind_some, sweptPeer?, if_neg hlate]
    split <;> rfl
  · intro between effects key hwell hinv
    have hmove := @EngineMove.visitedConnection between occasion key
    refine ⟨hinv.1.move hmove, ?_⟩
    rw [(sweepConnection_retries occasion hwell key).tracked occasion hwell hinv.1.buffers peer]
    exact hinv.2

/-- A frame whose timestamp is delivered has a part in the tracking. -/
lemma stamp?_of_deliveredStamp? (hw : WellFiled engine.store) {source : Address} {datagram : Bytes}
    {occasion : Occasion} {latest : UInt16}
    (h : deliveredStamp? engine peer (.work occasion (.receive source datagram)) = some latest) :
    source = peer ∧ stamp? datagram = some (some latest) := by
  have hdelivered : (if source = peer ∧
      deliveries (engine.receive occasion source datagram).2 ≠ [] then timestamp? datagram
        else none) = some latest := h
  split at hdelivered
  · rename_i hthere
    obtain ⟨rfl, -⟩ := hthere
    refine ⟨rfl, ?_⟩
    cases hpart : stamp? datagram with
    | none =>
      rw [deliveredStamp?_of_stamp? hw occasion hpart] at h
      cases h
    | some stamp =>
      obtain ⟨frame, hd, rfl, -⟩ := frame_of_stamp? hpart
      rw [← timestamp?_of_decode hd, hdelivered]
  · cases hdelivered

end Receiver

namespace OrderedFleet

/-- The timestamps of the frames that a host has written to a peer, in their order. -/
def written (fleet : OrderedFleet) (source target : Address) : List (Option UInt16) :=
  (linkOf source target fleet.wire).filterMap stamp?

def underway (fleet : OrderedFleet) (source target : Address) : List (Option UInt16) :=
  (fleet.link source target).filterMap stamp?

def taken (fleet : OrderedFleet) (source target : Address) : Nat :=
  (fleet.written source target).length - (fleet.underway source target).length

/-- Some frames leave a row at its front, and some are new at its end. -/
structure RowMove (fleet after : OrderedFleet) (source target : Address)
    (gone new : List (Option UInt16)) : Prop where
  underway : ∃ rest, fleet.underway source target = gone ++ rest ∧
    after.underway source target = rest ++ new
  written : after.written source target = fleet.written source target ++ new

section Rows

variable {fleet after : OrderedFleet} {source target : Address} {step : OrderedStep}
variable {gone new : List (Option UInt16)}

lemma rowMove_same (hlink : after.link source target = fleet.link source target)
    (hwire : linkOf source target after.wire = linkOf source target fleet.wire) :
    RowMove fleet after source target [] [] where
  underway := by
    refine ⟨fleet.underway source target, rfl, ?_⟩
    rw [OrderedFleet.underway, hlink, List.append_nil, OrderedFleet.underway]
  written := by rw [OrderedFleet.written, hwire, List.append_nil, OrderedFleet.written]

/-- The engine of a host takes what arrives, and writes to the end of its own rows. -/
lemma Acts.rowMove {host : Address} {station : Station} {task : EngineStep}
    (acts : Acts fleet (fleet.remaining step) host station task after)
    (hremaining : fleet.underway source target =
      gone ++ (linkOf source target (fleet.remaining step)).filterMap stamp?) :
    RowMove fleet after source target gone
      (if host = source then
        stampsTo target (({ engine := station.engine } : History).step task).effects else []) := by
  refine ⟨⟨_, hremaining, ?_⟩, ?_⟩
  · split
    · rename_i hsource
      subst hsource
      rw [underway, acts.link_own, List.filterMap_append, ← stampsTo_eq]
    · rename_i hsource
      rw [underway, acts.link_of_ne hsource, List.append_nil]
  · rw [written, acts.wire, linkOf_append, linkOf_effects, List.filterMap_append, written]
    congr 1
    split
    · rw [stampsTo_eq]
    · rfl

lemma Acts.rowMove_arrive {host : Address} {station : Station} {task : EngineStep} {bytes : Bytes}
    {rest : List Bytes} {accepts : Address → Bytes → Bool}
    (acts : Acts fleet (fleet.remaining (.arrive source target accepts)) host station task after)
    (hlink : fleet.link source target = bytes :: rest) :
    RowMove fleet after source target (stamp? bytes).toList
      (if host = source then
        stampsTo target (({ engine := station.engine } : History).step task).effects else []) := by
  apply acts.rowMove
  rw [linkOf_remaining_arrive hlink, underway, hlink, List.filterMap_cons]
  cases stamp? bytes <;> rfl

/-- What leaves a row in a step is the first frame of it, or nothing. -/
lemma exists_rowMove (ho : IsOrderly fleet) (source target : Address) (step : OrderedStep) :
    ∃ gone new, RowMove fleet (fleet.step step) source target gone new := by
  have hmove := ordered_move ho.transit step
  generalize fleet.step step = after at hmove ⊢
  cases hmove with
  | unchanged idle => exact ⟨[], [], rowMove_same rfl rfl⟩
  | waited there duration is => exact ⟨[], [], rowMove_same rfl rfl⟩
  | @lost origin goal bytes rest hlink is =>
    by_cases hends : origin = source ∧ goal = target
    · obtain ⟨rfl, rfl⟩ := hends
      refine ⟨(stamp? bytes).toList, [], ⟨rest.filterMap stamp?, ?_, ?_⟩, ?_⟩
      · rw [underway, hlink, List.filterMap_cons]
        cases stamp? bytes <;> rfl
      · rw [underway, link, linkOf_erase hlink, List.append_nil]
      · rw [List.append_nil]
        rfl
    · exact ⟨[], [], rowMove_same (linkOf_erase_of_ne hends) rfl⟩
  | @acted host station task _ given acts =>
    by_cases harrives : ∃ accepts, step = .arrive source target accepts
    · obtain ⟨accepts, rfl⟩ := harrives
      cases given_of_task? given with
      | arrive hlink accepts => exact ⟨_, _, acts.rowMove_arrive hlink⟩
    · refine ⟨[], _, acts.rowMove ?_⟩
      rw [linkOf_remaining (given_of_task? given) fun accepts hstep => harrives ⟨accepts, hstep⟩]
      rfl

lemma RowMove.suffix (h : RowMove fleet after source target gone new)
    (hrow : fleet.underway source target <:+ fleet.written source target) :
    after.underway source target <:+ after.written source target := by
  obtain ⟨rest, hbefore, hafter⟩ := h.underway
  obtain ⟨front, hfront⟩ := hrow
  refine ⟨front ++ gone, ?_⟩
  rw [h.written, ← hfront, hbefore, hafter]
  simp only [List.append_assoc]

lemma RowMove.taken (h : RowMove fleet after source target gone new)
    (hrow : fleet.underway source target <:+ fleet.written source target) :
    after.taken source target = fleet.taken source target + gone.length := by
  obtain ⟨rest, hbefore, hafter⟩ := h.underway
  have hle := hrow.length_le
  unfold OrderedFleet.taken
  rw [h.written, hafter, List.length_append, List.length_append]
  rw [hbefore, List.length_append] at hle ⊢
  omega

/-- The next frame to arrive has the number of those that were taken. -/
lemma getElem?_written_taken
    (hrow : fleet.underway source target <:+ fleet.written source target) {bytes : Bytes}
    (hnext : (fleet.link source target).head? = some bytes) {stamp : Option UInt16}
    (hstamp : stamp? bytes = some stamp) :
    (fleet.written source target)[fleet.taken source target]? = some stamp := by
  obtain ⟨rest, hlink⟩ := List.head?_eq_some_iff.1 hnext
  obtain ⟨front, hfront⟩ := hrow
  have hunderway : fleet.underway source target = stamp :: rest.filterMap stamp? := by
    rw [underway, hlink, List.filterMap_cons_some hstamp]
  have htaken : fleet.taken source target = front.length := by
    rw [taken, ← hfront, List.length_append]
    omega
  rw [htaken, ← hfront, hunderway, List.getElem?_append_right (Nat.le_refl _), Nat.sub_self]
  rfl

lemma underway_suffix_run (specs : List HostSpec) (source target : Address)
    (steps : List OrderedStep) :
    ((ofSpecs specs).run steps).underway source target <:+
      ((ofSpecs specs).run steps).written source target := by
  induction steps using List.reverseRecOn with
  | nil => exact List.suffix_rfl
  | append_singleton steps step ih =>
    rw [run_snoc]
    have ho := (isOrderly_ofSpecs specs).run steps
    obtain ⟨gone, new, hrow⟩ := exists_rowMove ho source target step
    exact hrow.suffix ih

end Rows

/-- A sweep of a host at this time gives up the record of a peer, and the counter with it. -/
def Evicts (fleet : OrderedFleet) (host peer : Address) : Prop :=
  ∃ station ∈ fleet.stations.get? host, ∃ record ∈ station.engine.store.peers[peer]?,
    sweptPeer? station.now record = none

instance (fleet : OrderedFleet) (host peer : Address) : Decidable (fleet.Evicts host peer) :=
  inferInstanceAs (Decidable (∃ station ∈ fleet.stations.get? host,
    ∃ record ∈ station.engine.store.peers[peer]?, sweptPeer? station.now record = none))

/-- The counter of the source for the target does not come to its last number: it is not there before
the step, and if the source draws several numbers in the step, then it is not one of them. -/
structure AvoidsLast (fleet : OrderedFleet) (source target : Address) (step : OrderedStep) : Prop where
  counter : fleet.outgoing source target ≠ wraparoundTimestamp
  drawn : ∀ station task, fleet.task? step = some (source, station, task) →
    SendsNoReset target (fleet.effects step)

/-- In a run, a sweep of the source evicts the target when this many frames were written to it. -/
def RestartsAt (start : OrderedFleet) (source target : Address) (steps : List OrderedStep)
    (mark : Nat) : Prop :=
  ∃ before accepts since, steps = before ++ .timeoutSweep source accepts :: since ∧
    (start.run before).Evicts source target ∧
    ((start.run before).written source target).length = mark

section Sending

variable {fleet start : OrderedFleet} {source target : Address} {steps : List OrderedStep}
variable {restarts : Nat → Prop}

lemma RestartsAt.snoc {mark : Nat} (h : start.RestartsAt source target steps mark)
    (step : OrderedStep) : start.RestartsAt source target (steps ++ [step]) mark := by
  obtain ⟨before, accepts, since, rfl, hevicts, hmark⟩ := h
  exact ⟨before, accepts, since ++ [step], by simp, hevicts, hmark⟩

/-- What the source writes in a step rises further, unless the step is a restart. -/
lemma RisesBetween.step (hne : source ≠ target) (ho : IsOrderly fleet) {step : OrderedStep}
    (havoids : fleet.AvoidsLast source target step)
    (hevicts : ∀ accepts, step = .timeoutSweep source accepts → fleet.Evicts source target →
      restarts (fleet.written source target).length)
    (h : RisesBetween restarts (fleet.written source target) (fleet.outgoing source target)) :
    RisesBetween restarts ((fleet.step step).written source target)
      ((fleet.step step).outgoing source target) := by
  have hmove := ordered_move ho.transit step
  generalize fleet.step step = after at hmove ⊢
  cases hmove with
  | unchanged idle => exact h
  | waited there duration is => rwa [outgoing_congr (map_engine_waited there duration source)]
  | lost link is => exact h
  | @acted host station task _ given acts =>
    have hgiven := given_of_task? given
    by_cases hsource : host = source
    · subst hsource
      have hk := ho.own host station acts.there
      have hsilent := havoids.drawn station task given
      rw [effects_of_task? given] at hsilent
      have hrow := @Acts.rowMove fleet after host target step [] host station task acts
        (by rw [linkOf_remaining_of_ne hgiven hne]; rfl)
      rw [hrow.written, if_pos rfl, outgoing_eq ((acts.stations host).trans (if_pos rfl))]
      rw [outgoing_eq acts.there] at h
      cases hgiven with
      | send other fields delivery accepts =>
        refine h.draws (draws_send _ other fields delivery hk.filed fun _ _ => ?_) hsilent
        rw [← outgoing_eq acts.there]
        exact havoids.counter
      | arrive link accepts => exact h.draws (draws_receive _ hk.filed hk.buffers target) hsilent
      | timeoutSweep accepts =>
        refine h.timeoutSweep hk _ (fun record hrecord hswept => ?_) hsilent
        exact hevicts accepts rfl ⟨station, acts.there, record, hrecord, hswept⟩
      | deleteSweep => exact h.draws (.kept rfl rfl) hsilent
    · have hwritten : after.written source target = fleet.written source target := by
        rw [written, acts.wire, linkOf_append, linkOf_effects, if_neg hsource, List.append_nil,
          written]
      rwa [hwritten, outgoing_congr (congrArg _ ((acts.stations source).trans (if_neg hsource)))]

/-- Of two frames, the later one has the greater timestamp, unless there is a restart between them. -/
lemma risesBetween_run (specs : List HostSpec) (hne : source ≠ target) (steps : List OrderedStep)
    (havoids : ∀ earlier step later, steps = earlier ++ step :: later →
      ((ofSpecs specs).run earlier).AvoidsLast source target step) :
    RisesBetween ((ofSpecs specs).RestartsAt source target steps)
      (((ofSpecs specs).run steps).written source target)
      (((ofSpecs specs).run steps).outgoing source target) := by
  induction steps using List.reverseRecOn with
  | nil => exact risesBetween_nil
  | append_singleton steps step ih =>
    rw [run_snoc]
    refine RisesBetween.step hne ((isOrderly_ofSpecs specs).run steps)
      (havoids steps step [] rfl) ?_ ?_
    · rintro accepts rfl hevicts
      exact ⟨steps, accepts, [], rfl, hevicts, rfl⟩
    · refine (ih ?_).mono fun mark hmark => hmark.snoc step
      rintro earlier other later rfl
      exact havoids earlier other (later ++ [step]) (by simp)

end Sending

/-- The last timestamp that a host has accepted from a peer, if it tracks any. -/
def tracked (fleet : OrderedFleet) (host peer : Address) : Option UInt16 :=
  (fleet.stations.get? host).bind fun station => trackedTimestamp station.engine peer

/-- The timestamp of the source's frame that is delivered to the target in a step. -/
def deliveredStamp? (fleet : OrderedFleet) (source target : Address) (step : OrderedStep) :
    Option UInt16 :=
  (fleet.task? step).bind fun (host, station, task) =>
    if host = target then Proofs.deliveredStamp? station.engine source task else none

/-- In a run, the frame of this number is delivered, with this timestamp, and no sweep of the target
finds the source idle after that. -/
def StillTracks (start : OrderedFleet) (source target : Address) (steps : List OrderedStep)
    (number : Nat) (latest : UInt16) : Prop :=
  ∃ before step since, steps = before ++ step :: since ∧
    (start.run before).deliveredStamp? source target step = some latest ∧
    (start.run before).taken source target = number ∧
    ∀ between accepts later, since = between ++ .timeoutSweep target accepts :: later →
      (start.run (before ++ step :: between)).IsAwakeAt target source

section Receiving

variable {fleet start : OrderedFleet} {source target : Address} {steps : List OrderedStep}
variable {step : OrderedStep}

lemma tracked_eq {station : Station} (there : fleet.stations.get? target = some station) :
    fleet.tracked target source = trackedTimestamp station.engine source := by
  rw [tracked, there]
  rfl

lemma tracked_congr {other : OrderedFleet}
    (h : (other.stations.get? target).map Station.engine =
      (fleet.stations.get? target).map Station.engine) :
    other.tracked target source = fleet.tracked target source := by
  have hmap : ∀ station? : Option Station,
      (station?.bind fun station => trackedTimestamp station.engine source) =
        (station?.map Station.engine).bind fun engine => trackedTimestamp engine source := by
    intro station?
    cases station? <;> rfl
  unfold tracked
  rw [hmap, hmap, h]

/-- Only frames with a timestamp that have a part in the tracking are counted. -/
lemma arrive_of_deliveredStamp? (ho : IsOrderly fleet) {latest : UInt16}
    (h : fleet.deliveredStamp? source target step = some latest) :
    ∃ accepts bytes, step = .arrive source target accepts ∧
      (fleet.link source target).head? = some bytes ∧ stamp? bytes = some (some latest) := by
  obtain ⟨⟨host, station, task⟩, hgiven, hstamp⟩ := Option.bind_eq_some_iff.1 h
  obtain ⟨there, hgiven⟩ := task?_eq_some hgiven
  dsimp only at hstamp
  split at hstamp
  · rename_i hhost
    subst hhost
    cases hgiven with
    | @arrive origin bytes rest hlink accepts =>
      obtain ⟨rfl, hpart⟩ := stamp?_of_deliveredStamp? (ho.own host station there).filed hstamp
      exact ⟨accepts, bytes, rfl, by rw [hlink]; rfl, hpart⟩
    | _ => cases hstamp
  · cases hstamp

lemma taken_lt_of_deliveredStamp? (ho : IsOrderly fleet)
    (hrow : fleet.underway source target <:+ fleet.written source target) {latest : UInt16}
    (h : fleet.deliveredStamp? source target step = some latest) :
    fleet.taken source target < (fleet.step step).taken source target := by
  obtain ⟨⟨host, station, task⟩, hgiven, -⟩ := Option.bind_eq_some_iff.1 h
  have acts := acts_of_task? ho.transit hgiven
  obtain ⟨accepts, bytes, rfl, hhead, hstamp⟩ := arrive_of_deliveredStamp? ho h
  obtain ⟨rest, hlink⟩ := List.head?_eq_some_iff.1 hhead
  rw [(acts.rowMove_arrive hlink).taken hrow, hstamp]
  exact Nat.lt_succ_self _

lemma StillTracks.snoc {number : Nat} {latest : UInt16}
    (h : start.StillTracks source target steps number latest)
    (hawake : ∀ accepts, step = .timeoutSweep target accepts →
      (start.run steps).IsAwakeAt target source) :
    start.StillTracks source target (steps ++ [step]) number latest := by
  obtain ⟨before, first, since, rfl, hdelivered, hnumber, hearlier⟩ := h
  refine ⟨before, first, since ++ [step], by simp, hdelivered, hnumber, ?_⟩
  intro between accepts later hsplit
  rcases List.append_eq_append_iff.1 hsplit with ⟨more, rfl, hmore⟩ | ⟨more, rfl, hmore⟩
  · cases more with
    | nil =>
      rw [List.append_nil]
      exact hawake accepts (List.cons.inj hmore).1
    | cons other rest => simp at hmore
  · cases more with
    | nil =>
      rw [List.append_nil] at hawake
      exact hawake accepts (List.cons.inj hmore).1.symm
    | cons other rest =>
      obtain ⟨rfl, -⟩ := List.cons.inj hmore
      exact hearlier between accepts rest rfl

lemma tracked_of_idle (ho : IsOrderly fleet) (h : fleet.task? step = none) :
    (fleet.step step).tracked target source = fleet.tracked target source := by
  have hmove := ordered_move ho.transit step
  generalize fleet.step step = after at hmove ⊢
  cases hmove with
  | unchanged idle => rfl
  | waited there duration is => exact tracked_congr (map_engine_waited there duration target)
  | lost link is => rfl
  | acted given acts =>
    rw [h] at given
    cases given

/-- While the target finds the source awake, it tracks what is delivered to it, and that is fresh. -/
lemma tracked_step (ho : IsOrderly fleet)
    (hnumbered : none ∉ fleet.underway source target)
    (hawake : ∀ accepts, step = .timeoutSweep target accepts → fleet.IsAwakeAt target source) :
    (fleet.step step).tracked target source =
        (fleet.deliveredStamp? source target step).or (fleet.tracked target source) ∧
      ∀ latest, fleet.deliveredStamp? source target step = some latest →
        isFreshAfter (fleet.tracked target source) (some latest) = true := by
  cases hgiven : fleet.task? step with
  | none =>
    have hnothing : fleet.deliveredStamp? source target step = none := by
      rw [OrderedFleet.deliveredStamp?, hgiven]
      rfl
    rw [hnothing, tracked_of_idle ho hgiven]
    exact ⟨rfl, nofun⟩
  | some found =>
    obtain ⟨host, station, task⟩ := found
    have acts := acts_of_task? ho.transit hgiven
    have hdelivered : fleet.deliveredStamp? source target step =
        if host = target then Proofs.deliveredStamp? station.engine source task else none := by
      rw [OrderedFleet.deliveredStamp?, hgiven]
      rfl
    by_cases htarget : host = target
    · subst htarget
      rw [if_pos rfl] at hdelivered
      rw [tracked_eq acts.there, tracked_eq ((acts.stations host).trans (if_pos rfl)), hdelivered]
      have hkeeps : Proofs.KeepsTracking station.engine source task := by
        cases given_of_task? hgiven with
        | send other fields delivery accepts => trivial
        | @arrive origin bytes rest hlink accepts =>
          by_cases horigin : origin = source
          · subst horigin
            apply keepsTracking_receive
            intro hreset
            apply hnumbered
            rw [underway, hlink, List.filterMap_cons_some hreset]
            exact List.mem_cons_self
          · exact fun hsource => absurd hsource horigin
        | timeoutSweep accepts => exact hawake accepts rfl station acts.there
        | deleteSweep => trivial
      obtain ⟨htracked, hfresh⟩ := @tracks_step source { engine := station.engine }
        (ho.own host station acts.there) task hkeeps
      exact ⟨htracked, hfresh⟩
    · rw [if_neg htarget] at hdelivered
      rw [hdelivered, tracked_congr (congrArg _ ((acts.stations target).trans (if_neg htarget)))]
      exact ⟨rfl, nofun⟩

/-- A sweep of the target that finds the source idle forgets what is tracked. -/
lemma tracked_step_of_idle (ho : IsOrderly fleet) {accepts : Address → Bytes → Bool}
    (hidle : ¬ fleet.IsAwakeAt target source) :
    (fleet.step (.timeoutSweep target accepts)).tracked target source = none := by
  simp only [IsAwakeAt, Classical.not_forall] at hidle
  obtain ⟨station, there, hidle⟩ := hidle
  have hgiven : fleet.task? (.timeoutSweep target accepts) =
      some (target, station, .work ⟨station.now, accepts⟩ .timeoutSweep) := by
    rw [task?, there]
    rfl
  have acts := acts_of_task? ho.transit hgiven
  rw [tracked_eq ((acts.stations target).trans (if_pos rfl))]
  exact tracked_timeoutSweep_of_idle (ho.own target station there) ⟨station.now, accepts⟩ hidle

/-- What is tracked after a run was delivered in it, and the source was awake since. -/
lemma exists_stillTracks (specs : List HostSpec) (steps : List OrderedStep)
    (hnumbered : ∀ earlier, earlier <+: steps →
      none ∉ ((ofSpecs specs).run earlier).underway source target) {latest : UInt16}
    (htracked : ((ofSpecs specs).run steps).tracked target source = some latest) :
    ∃ number, (ofSpecs specs).StillTracks source target steps number latest ∧
      number < ((ofSpecs specs).run steps).taken source target ∧
      (((ofSpecs specs).run steps).written source target)[number]? = some (some latest) := by
  induction steps using List.reverseRecOn with
  | nil =>
    obtain ⟨station, hstation, htracks⟩ := Option.bind_eq_some_iff.1 htracked
    obtain ⟨spec, -, rfl⟩ := station_ofSpecs hstation
    simp [trackedTimestamp, Engine.starting] at htracks
  | append_singleton steps step ih =>
    have ho := (isOrderly_ofSpecs specs).run steps
    have hrow := underway_suffix_run specs source target steps
    rw [run_snoc] at htracked ⊢
    obtain ⟨gone, new, hmove⟩ := exists_rowMove ho source target step
    by_cases hawake : ∀ accepts, step = .timeoutSweep target accepts →
        ((ofSpecs specs).run steps).IsAwakeAt target source
    · obtain ⟨hnext, -⟩ := tracked_step ho (hnumbered steps (List.prefix_append _ _)) hawake
      rw [htracked] at hnext
      cases hdelivered : ((ofSpecs specs).run steps).deliveredStamp? source target step with
      | none =>
        rw [hdelivered, Option.none_or] at hnext
        obtain ⟨number, hstill, htaken, hwritten⟩ := ih
          (fun earlier hearlier => hnumbered earlier (hearlier.trans (List.prefix_append _ _)))
          hnext.symm
        refine ⟨number, hstill.snoc hawake, ?_, ?_⟩
        · rw [hmove.taken hrow]
          omega
        · rw [hmove.written, List.getElem?_append_left (List.getElem?_eq_some_iff.1 hwritten).1]
          exact hwritten
      | some stamp =>
        rw [hdelivered, Option.some_or] at hnext
        cases hnext
        have htaken := taken_lt_of_deliveredStamp? ho hrow hdelivered
        obtain ⟨accepts, bytes, rfl, hhead, hstamp⟩ := arrive_of_deliveredStamp? ho hdelivered
        have hwritten := getElem?_written_taken hrow hhead hstamp
        refine ⟨_, ⟨steps, _, [], rfl, hdelivered, rfl, by simp⟩, htaken, ?_⟩
        rw [hmove.written, List.getElem?_append_left (List.getElem?_eq_some_iff.1 hwritten).1]
        exact hwritten
    · simp only [Classical.not_forall] at hawake
      obtain ⟨accepts, rfl, hidle⟩ := hawake
      rw [tracked_step_of_idle ho hidle] at htracked
      cases htracked

/-- As long as the source is awake, nothing older is tracked than what was delivered. -/
lemma tracked_of_stillTracks (specs : List HostSpec) (steps : List OrderedStep)
    (hnumbered : ∀ earlier, earlier <+: steps →
      none ∉ ((ofSpecs specs).run earlier).underway source target) {number : Nat} {latest : UInt16}
    (h : (ofSpecs specs).StillTracks source target steps number latest) :
    ∃ newest, ((ofSpecs specs).run steps).tracked target source = some newest ∧
      latest ≤ newest := by
  obtain ⟨before, step, since, rfl, hdelivered, -, hawake⟩ := h
  induction since using List.reverseRecOn with
  | nil =>
    have ho := (isOrderly_ofSpecs specs).run before
    rw [run_snoc]
    obtain ⟨htracked, -⟩ := @tracked_step _ source target step ho
      (hnumbered before (List.prefix_append _ _)) (by
        obtain ⟨accepts, bytes, rfl, -⟩ := arrive_of_deliveredStamp? ho hdelivered
        exact nofun)
    rw [hdelivered, Option.some_or] at htracked
    exact ⟨latest, htracked, UInt16.le_refl _⟩
  | append_singleton since last ih =>
    have hsplit : before ++ step :: (since ++ [last]) = (before ++ step :: since) ++ [last] := by simp
    rw [hsplit] at hnumbered ⊢
    have ho := (isOrderly_ofSpecs specs).run (before ++ step :: since)
    obtain ⟨newest, hnewest, hle⟩ := ih
      (fun earlier hearlier => hnumbered earlier (hearlier.trans (List.prefix_append _ _)))
      (by
        rintro between accepts later rfl
        exact hawake between accepts (later ++ [last]) (by simp))
    rw [run_snoc]
    obtain ⟨htracked, hfresh⟩ := @tracked_step _ source target last ho
      (hnumbered _ (List.prefix_append _ _)) (by
        rintro accepts rfl
        exact hawake since accepts [] rfl)
    rw [htracked, hnewest]
    rw [hnewest] at hfresh
    cases hstamp : ((ofSpecs specs).run (before ++ step :: since)).deliveredStamp? source target
        last with
    | none => exact ⟨newest, rfl, hle⟩
    | some stamp =>
      have hnewer := hfresh stamp hstamp
      simp only [isFreshAfter, Option.all_some, decide_eq_true_eq] at hnewer
      exact ⟨stamp, rfl, UInt16.le_trans hle (UInt16.le_of_lt hnewer)⟩

end Receiving

end OrderedFleet

end ReliableDatagrams.Proofs
