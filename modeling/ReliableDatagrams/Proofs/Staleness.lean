import ReliableDatagrams.Proofs.OrderedFleet
import ReliableDatagrams.Proofs.Redelivery

/-!
# When a first frame is stale

On a network that keeps the order, the frames on their way from a host to a peer carry timestamps that
the peer will find fresh, one after the other, whichever of them are lost: they only grow, until a
first frame without timestamp starts them again from 0. That frame is the weak point. If it is lost,
if the socket refuses it, or if it repeats a message that the peer has accepted before, then the peer
goes on to track the timestamps of the last cycle, and rejects frames of the next one as stale. As
long as none of this happens, every first frame is answered with a success.
-/

namespace ReliableDatagrams.Proofs

/-- Frames with these timestamps are fresh, one after the other, and so is a frame with the next
number. -/
def InOrder : Option UInt16 → List (Option UInt16) → UInt16 → Prop
  | tracked, [], next => isFreshAfter tracked (some next) = true
  | tracked, stamp :: rest, next => isFreshAfter tracked stamp = true ∧ InOrder stamp rest next

section Order

variable {tracked : Option UInt16} {stamps : List (Option UInt16)} {next : UInt16}

lemma lt_add_one_of_ne {number : UInt16} (h : number ≠ wraparoundTimestamp) :
    number < number + 1 := by
  have hne : number.toNat ≠ 65535 := fun heq => h (UInt16.toNat_inj.1 heq)
  have hlt := number.toNat_lt
  rw [UInt16.lt_iff_toNat_lt, UInt16.toNat_add]
  have hone : (1 : UInt16).toNat = 1 := rfl
  omega

/-- A frame that stays away makes no difference to those behind it. -/
lemma isFreshAfter_trans {last stamp : UInt16} {later : Option UInt16}
    (h : isFreshAfter (some last) (some stamp) = true) (h' : isFreshAfter (some stamp) later = true) :
    isFreshAfter (some last) later = true := by
  cases later with
  | none => rfl
  | some later =>
    simp only [isFreshAfter, Option.all_some, decide_eq_true_eq] at h h' ⊢
    rw [UInt16.lt_iff_toNat_lt] at h h' ⊢
    omega

lemma InOrder.skip {stamp : UInt16} (h : InOrder tracked (some stamp :: stamps) next) :
    InOrder tracked stamps next := by
  cases tracked with
  | none =>
    cases stamps with
    | nil => rfl
    | cons later rest =>
      refine ⟨?_, h.2.2⟩
      cases later <;> rfl
  | some last =>
    cases stamps with
    | nil => exact isFreshAfter_trans h.1 h.2
    | cons later rest => exact ⟨isFreshAfter_trans h.1 h.2.1, h.2.2⟩

lemma InOrder.spend (h : InOrder tracked stamps next) (hearly : next ≠ wraparoundTimestamp) :
    InOrder tracked stamps (next + 1) := by
  induction stamps generalizing tracked with
  | nil =>
    cases tracked with
    | none => rfl
    | some last =>
      refine isFreshAfter_trans h ?_
      simpa [isFreshAfter] using lt_add_one_of_ne hearly
  | cons stamp rest ih => exact ⟨h.1, ih h.2⟩

lemma InOrder.write (h : InOrder tracked stamps next) :
    InOrder tracked (stamps ++ [stampOf next]) (next + 1) := by
  induction stamps generalizing tracked with
  | nil =>
    unfold stampOf
    by_cases hwrap : next = wraparoundTimestamp
    · rw [if_pos hwrap]
      exact ⟨rfl, rfl⟩
    · rw [if_neg hwrap]
      refine ⟨h, ?_⟩
      simpa [InOrder, isFreshAfter] using lt_add_one_of_ne hwrap
  | cons stamp rest ih => exact ⟨h.1, ih h.2⟩

end Order

section Sender

variable {engine after : Engine} {effects : List Effect} {peer : Address}
variable {tracked : Option UInt16} {stamps : List (Option UInt16)}

lemma InOrder.draws (h : InOrder tracked stamps (outgoingTimestamp engine peer))
    (hdraws : Draws engine peer after effects) :
    RefusesReset peer effects ∨
      InOrder tracked (stamps ++ stampsTo peer effects) (outgoingTimestamp after peer) := by
  cases hdraws with
  | refused reset => exact Or.inl reset
  | kept counter silent =>
    rw [counter, silent, List.append_nil]
    exact Or.inr h
  | spent counter early silent =>
    rw [counter, silent, List.append_nil]
    exact Or.inr (h.spend early)
  | written counter written =>
    rw [counter, written]
    exact Or.inr h.write

lemma RefusesReset.append_left (h : RefusesReset peer effects) (more : List Effect) :
    RefusesReset peer (effects ++ more) := by
  obtain ⟨bytes, hmem, hunstamped⟩ := h
  exact ⟨bytes, List.mem_append_left _ hmem, hunstamped⟩

lemma RefusesReset.append_right (h : RefusesReset peer effects) (earlier : List Effect) :
    RefusesReset peer (earlier ++ effects) := by
  obtain ⟨bytes, hmem, hunstamped⟩ := h
  exact ⟨bytes, List.mem_append_right _ hmem, hunstamped⟩

lemma InOrder.timeoutSweep (h : InOrder tracked stamps (outgoingTimestamp engine peer))
    (hk : KeepsOwn engine) (occasion : Occasion) (hawake : IsAwake engine peer occasion.now) :
    RefusesReset peer (engine.timeoutSweep occasion).2 ∨
      InOrder tracked (stamps ++ stampsTo peer (engine.timeoutSweep occasion).2)
        (outgoingTimestamp (engine.timeoutSweep occasion).1 peer) := by
  have hvisited := @timeoutSweep_of_awake engine occasion peer hk.filed hawake
    (fun between effects => KeepsOwn between ∧ (RefusesReset peer effects ∨
      InOrder tracked (stamps ++ stampsTo peer effects) (outgoingTimestamp between peer))) ?_ ?_
  · exact hvisited.2
  · intro between hwell hpeer hconnections hconfig
    refine ⟨⟨hwell, by rw [hconnections, hconfig]; exact hk.buffers⟩, Or.inr ?_⟩
    have hsame : outgoingTimestamp between peer = outgoingTimestamp engine peer := by
      rw [outgoingTimestamp, hpeer, outgoingTimestamp]
    rw [hsame]
    simpa [stampsTo] using h
  · intro between effects key hwell hinv
    have hmove := @EngineMove.visitedConnection between occasion key
    refine ⟨hinv.1.move hmove, ?_⟩
    rcases hinv.2 with hrefused | hordered
    · exact Or.inl (hrefused.append_left _)
    · have hdraws := (sweepConnection_retries occasion hwell key).draws occasion hwell
        hinv.1.buffers peer
      rcases hordered.draws hdraws with hrefused | hlater
      · exact Or.inl (hrefused.append_right _)
      · rw [List.append_assoc, ← stampsTo_append] at hlater
        exact Or.inr hlater

lemma tracked_timeoutSweep (hk : KeepsOwn engine) (occasion : Occasion)
    (hawake : IsAwake engine peer occasion.now) :
    trackedTimestamp (engine.timeoutSweep occasion).1 peer = trackedTimestamp engine peer := by
  have hvisited := @timeoutSweep_of_awake engine occasion peer hk.filed hawake
    (fun between _ => KeepsOwn between ∧
      trackedTimestamp between peer = trackedTimestamp engine peer) ?_ ?_
  · exact hvisited.2
  · intro between hwell hpeer hconnections hconfig
    refine ⟨⟨hwell, by rw [hconnections, hconfig]; exact hk.buffers⟩, ?_⟩
    rw [trackedTimestamp, hpeer, trackedTimestamp]
  · intro between effects key hwell hinv
    have hmove := @EngineMove.visitedConnection between occasion key
    refine ⟨hinv.1.move hmove, ?_⟩
    rw [(sweepConnection_retries occasion hwell key).tracked occasion hwell hinv.1.buffers peer]
    exact hinv.2

end Sender

section Receiver

variable {engine : Engine} (occasion : Occasion) {source : Address} {datagram : Bytes}

lemma frame_of_stamp? {stamp : Option UInt16} (h : stamp? datagram = some stamp) :
    ∃ frame, Frame.decode datagram = .ok frame ∧ frame.timestamp = stamp ∧
      ((frame.kind = .plain ∧ ∃ timestamp, stamp = some timestamp) ∨
        ∃ id, Reads datagram .syn id frame) := by
  unfold stamp? at h
  cases hd : Frame.decode datagram with
  | error error => simp [hd] at h
  | ok frame =>
    simp only [hd] at h
    refine ⟨frame, rfl, ?_⟩
    split at h
    · rename_i id hkind hid
      exact ⟨Option.some.inj h, Or.inr ⟨id, hd, hkind, hid⟩⟩
    · rename_i hkind
      obtain ⟨timestamp, htimestamp, rfl⟩ := Option.map_eq_some_iff.1 h
      exact ⟨htimestamp, Or.inl ⟨hkind, timestamp, rfl⟩⟩
    · cases h

/-- A first frame of a message that was accepted before is confirmed again, and not tracked. -/
lemma receive_of_held (hw : WellFiled engine.store) {id : UInt32} {frame : Frame}
    (hr : Reads datagram .syn id frame) (hheld : HoldsAccepted engine source id) :
    (engine.receive occasion source datagram).2 =
        [.sent source (encodeControl .synSuccess id)
          (occasion.accepts source (encodeControl .synSuccess id))] ∧
      trackedTimestamp (engine.receive occasion source datagram).1 source =
        trackedTimestamp engine source := by
  obtain ⟨connection, hconnection, hopen⟩ := hheld
  rw [connection?_eq hw] at hconnection
  have hkey := (hw.connection _ _ hconnection).1
  have htouched := wellFiled_touchPeer hw occasion.now source
  have hfiled : (engine.touchPeer occasion.now source).store.connections[
      (⟨source, id, .receiver⟩ : ConnectionKey)]? = some connection := by
    rw [connections_touchPeer, hconnection]
  have hrecord := snd_connectionOrInsert (engine.touchPeer occasion.now source).store occasion.now
    ⟨source, id, .receiver⟩
  rw [connectionOrNew, hfiled, Option.getD_some] at hrecord
  have hpeers : (engine.receive occasion source datagram).1.store.peers =
      (engine.touchPeer occasion.now source).store.peers := by
    rw [receive_of_decode occasion hr.decoded, receiveFrame_of_reads occasion hr]
    unfold Engine.receiveSyn
    simp only [hrecord, if_pos hopen, Engine.acknowledge, peers_transmit, peers_connectionOrInsert]
  refine ⟨?_, ?_⟩
  · rw [receive_of_decode occasion hr.decoded, receiveFrame_of_reads occasion hr]
    exact (receiveSyn_open occasion hfiled hkey hopen frame.fields).2
  · rw [(timestamps_of_peers hpeers source).1,
      (retracks_touchPeer hw occasion.now source).tracked source, if_pos rfl]

/-- A first frame that is stale, of a message that was not accepted before, is rejected. -/
lemma receive_of_stale (hw : WellFiled engine.store) {id : UInt32} {frame : Frame}
    (hr : Reads datagram .syn id frame) (hnew : ¬ HoldsAccepted engine source id)
    (hstale : isFreshAfter (trackedTimestamp engine source) frame.timestamp = false) :
    (engine.receive occasion source datagram).2 =
      [.sent source (encodeControl .synFailure id)
        (occasion.accepts source (encodeControl .synFailure id))] := by
  have htouched := wellFiled_touchPeer hw occasion.now source
  have hkey := connectionOrNew_key htouched occasion.now ⟨source, id, .receiver⟩
  have hwaiting : ¬ .synAckSent ≤ (connectionOrNew (engine.touchPeer occasion.now source).store
      occasion.now ⟨source, id, .receiver⟩).status := by
    intro hopen
    have hthere := connectionOrNew_of_status _ _ hopen
    rw [connections_touchPeer, ← connection?_eq hw] at hthere
    exact hnew ⟨_, hthere, hopen⟩
  have hbehind : isFreshFrom (engine.touchPeer occasion.now source) source frame.timestamp =
      false := by
    rw [isFreshFrom_touchPeer hw, isFreshFrom_eq, hstale]
  obtain ⟨tracked, hsame, hreject⟩ :=
    receiveSyn_stale occasion rfl hwaiting hbehind frame.fields
  rw [receive_of_decode occasion hr.decoded, receiveFrame_of_reads occasion hr]
  dsimp only
  rw [hreject]
  exact (rejectSyn_waiting occasion (connectionOrNew_of_opened hsame) hkey hwaiting).2

/-- A frame with a part in the tracking is tracked if it is fresh, unless it repeats a message that
was accepted before. -/
lemma tracked_receive_of_fresh (hw : WellFiled engine.store) {stamp : Option UInt16}
    (hstamp : stamp? datagram = some stamp)
    (hfresh : isFreshAfter (trackedTimestamp engine source) stamp = true) :
    trackedTimestamp (engine.receive occasion source datagram).1 source = stamp ∨
      trackedTimestamp (engine.receive occasion source datagram).1 source =
          trackedTimestamp engine source ∧
        ∃ id, synId? datagram = some id ∧ HoldsAccepted engine source id := by
  obtain ⟨frame, hd, rfl, ⟨hkind, timestamp, htimestamp⟩ | ⟨id, hr⟩⟩ := frame_of_stamp? hstamp
  · left
    rw [htimestamp] at hfresh
    obtain ⟨-, -, htracked⟩ := receive_plain occasion hw hd hkind htimestamp hfresh
    rw [htracked.tracked source, if_pos rfl, htimestamp]
  · by_cases hheld : HoldsAccepted engine source id
    · exact Or.inr ⟨(receive_of_held occasion hw hr hheld).2, id, synId?_of_reads hr, hheld⟩
    · left
      obtain ⟨-, -, htracked⟩ := receive_syn occasion hw hr
        (waiting_of_not_holdsAccepted hw hheld) hfresh
      rw [htracked.tracked source, if_pos rfl]

end Receiver

namespace OrderedFleet

/-- The number with which a host will write its next frame to a peer. -/
def outgoing (fleet : OrderedFleet) (source target : Address) : UInt16 :=
  ((fleet.stations.get? source).map fun station =>
    outgoingTimestamp station.engine target).getD 0

/-- A host has heard from a peer, or written to it, within the timeout of peers. -/
def IsAwakeAt (fleet : OrderedFleet) (host peer : Address) : Prop :=
  ∀ station, fleet.stations.get? host = some station → IsAwake station.engine peer station.now

/-- A first frame without timestamp, by which the target would track timestamps from 0 again, has no
effect. -/
inductive MissesReset (fleet : OrderedFleet) (source target : Address) : OrderedStep → Prop where
  | lost {bytes : Bytes} (next : (fleet.link source target).head? = some bytes)
      (unstamped : stamp? bytes = some none) : MissesReset fleet source target (.lose source target)
  | confirmed {bytes : Bytes} {id : UInt32} {station : Station}
      {accepts : Address → Bytes → Bool}
      (next : (fleet.link source target).head? = some bytes) (unstamped : stamp? bytes = some none)
      (first : synId? bytes = some id) (there : fleet.stations.get? target = some station)
      (held : HoldsAccepted station.engine source id) :
      MissesReset fleet source target (.arrive source target accepts)
  | refused {step : OrderedStep} {station : Station} {task : EngineStep}
      (given : fleet.task? step = some (source, station, task))
      (refused : RefusesReset target (fleet.effects step)) : MissesReset fleet source target step

/-- A step leaves the order of frames from the source to the target alone. -/
structure IsCalm (fleet : OrderedFleet) (source target : Address) (step : OrderedStep) : Prop where
  sender : ∀ accepts, step = .timeoutSweep source accepts → fleet.IsAwakeAt source target
  receiver : ∀ accepts, step = .timeoutSweep target accepts → fleet.IsAwakeAt target source
  written : ∀ fields delivery accepts, step = .send source target fields delivery accepts →
    fleet.effects step = [] → fleet.outgoing source target ≠ wraparoundTimestamp
  reset : ¬ fleet.MissesReset source target step

/-- The frames on their way are fresh for their target one after the other. -/
def KeepsOrder (fleet : OrderedFleet) (source target : Address) : Prop :=
  ∀ receiver, fleet.stations.get? target = some receiver →
    InOrder (trackedTimestamp receiver.engine source)
      ((fleet.link source target).filterMap stamp?) (fleet.outgoing source target)

section Fleets

variable {fleet : OrderedFleet} {source target : Address} {step : OrderedStep}

lemma effects_of_task? {host : Address} {station : Station} {task : EngineStep}
    (h : fleet.task? step = some (host, station, task)) :
    fleet.effects step = (({ engine := station.engine } : History).step task).effects := by
  rw [effects, h]
  rfl

lemma keepsOrder_ofSpecs (specs : List HostSpec) (source target : Address) :
    (ofSpecs specs).KeepsOrder source target := by
  intro receiver hreceiver
  obtain ⟨spec, -, rfl⟩ := station_ofSpecs hreceiver
  simp [trackedTimestamp, Engine.starting, ofSpecs, link, linkOf, InOrder, isFreshAfter]

lemma outgoing_eq {station : Station} (there : fleet.stations.get? source = some station) :
    fleet.outgoing source target = outgoingTimestamp station.engine target := by
  rw [outgoing, there]
  rfl

lemma outgoing_congr {other : OrderedFleet}
    (h : (other.stations.get? source).map Station.engine =
      (fleet.stations.get? source).map Station.engine) :
    other.outgoing source target = fleet.outgoing source target := by
  have hmap : ∀ station? : Option Station,
      station?.map (fun station => outgoingTimestamp station.engine target) =
        (station?.map Station.engine).map fun engine => outgoingTimestamp engine target := by
    intro station?
    cases station? <;> rfl
  unfold outgoing
  rw [hmap, hmap, h]

lemma map_engine_waited {host : Address} {station : Station}
    (there : fleet.stations.get? host = some station) (duration : Nat) (other : Address) :
    (Table.get? (fleet.stations.insert host { station with now := station.now + duration })
        other).map Station.engine =
      (fleet.stations.get? other).map Station.engine := by
  rw [Table.get?_insert]
  split
  · rename_i hhost
    rw [← hhost, there]
    rfl
  · rfl

lemma KeepsOrder.actsSource (hne : source ≠ target) (ho : IsOrderly fleet)
    (h : fleet.KeepsOrder source target) (hcalm : fleet.IsCalm source target step)
    {station : Station} {task : EngineStep} {after : OrderedFleet}
    (given : fleet.task? step = some (source, station, task))
    (acts : Acts fleet (fleet.remaining step) source station task after) :
    after.KeepsOrder source target := by
  intro receiver hreceiver
  have hafter := (acts.stations source).trans (if_pos rfl)
  rw [acts.stations, if_neg hne] at hreceiver
  have hold := h receiver hreceiver
  rw [outgoing_eq acts.there] at hold
  rw [outgoing_eq hafter]
  have hk := ho.own source station acts.there
  have hgiven := given_of_task? given
  have hunrefused : ¬ RefusesReset target (({ engine := station.engine } : History).step
      task).effects := by
    intro hrefused
    rw [← effects_of_task? given] at hrefused
    exact hcalm.reset (.refused given hrefused)
  rw [acts.link_own, linkOf_remaining_of_ne hgiven hne, List.filterMap_append, ← stampsTo_eq]
  refine Or.resolve_left ?_ hunrefused
  cases hgiven with
  | send other fields delivery accepts =>
    refine hold.draws (draws_send _ other fields delivery hk.filed ?_)
    rintro rfl hsilent
    have hearly := hcalm.written fields delivery accepts rfl (by
      rw [effects_of_task? given]
      exact hsilent)
    rwa [outgoing_eq acts.there] at hearly
  | arrive link accepts => exact hold.draws (draws_receive _ hk.filed hk.buffers target)
  | timeoutSweep accepts =>
    exact hold.timeoutSweep hk _ (hcalm.sender accepts rfl station acts.there)
  | deleteSweep => exact hold.draws (.kept rfl rfl)

/-- The target acts: it takes the first frame out of the row, or its tracking does not change. -/
lemma KeepsOrder.actsTarget (hne : source ≠ target) (ho : IsOrderly fleet)
    (h : fleet.KeepsOrder source target) (hcalm : fleet.IsCalm source target step)
    {station : Station} {task : EngineStep} {after : OrderedFleet}
    (given : fleet.task? step = some (target, station, task))
    (acts : Acts fleet (fleet.remaining step) target station task after) :
    after.KeepsOrder source target := by
  intro receiver hreceiver
  have hsender := (acts.stations source).trans (if_neg hne.symm)
  rw [acts.stations, if_pos rfl] at hreceiver
  cases hreceiver
  have hold := h station acts.there
  rw [outgoing_congr (congrArg _ hsender)]
  have hk := ho.own target station acts.there
  have hgiven := given_of_task? given
  rw [acts.link_of_ne hne.symm]
  -- unless a frame of the source arrives, the row and the tracking are what they were
  have hsame : (∀ accepts, step ≠ .arrive source target accepts) →
      trackedTimestamp (({ engine := station.engine } : History).step task).engine source =
        trackedTimestamp station.engine source →
      InOrder (trackedTimestamp (({ engine := station.engine } : History).step task).engine source)
        ((linkOf source target (fleet.remaining step)).filterMap stamp?)
        (fleet.outgoing source target) := by
    intro hother htracked
    rw [linkOf_remaining hgiven hother, htracked]
    exact hold
  cases hgiven with
  | send other fields delivery accepts =>
    exact hsame nofun (timestamps_send hk.filed _ other fields delivery source).1
  | timeoutSweep accepts =>
    exact hsame nofun (tracked_timeoutSweep hk _ (hcalm.receiver accepts rfl station acts.there))
  | deleteSweep => exact hsame nofun rfl
  | @arrive origin bytes rest hlink accepts =>
    by_cases horigin : origin = source
    · subst horigin
      rw [linkOf_remaining_arrive hlink]
      rw [hlink] at hold
      cases hstamp : stamp? bytes with
      | none =>
        rw [List.filterMap_cons_none hstamp] at hold
        have htracked := @tracked_receive _ ⟨station.now, accepts⟩ origin origin bytes hk.filed
          hk.buffers fun _ => hstamp
        have hengine : (({ engine := station.engine } : History).step
          (.work ⟨station.now, accepts⟩ (.receive origin bytes))).engine =
            (station.engine.receive ⟨station.now, accepts⟩ origin bytes).1 := rfl
        rwa [hengine, htracked]
      | some stamp =>
        rw [List.filterMap_cons_some hstamp] at hold
        have hengine : (({ engine := station.engine } : History).step
          (.work ⟨station.now, accepts⟩ (.receive origin bytes))).engine =
            (station.engine.receive ⟨station.now, accepts⟩ origin bytes).1 := rfl
        rw [hengine]
        rcases tracked_receive_of_fresh ⟨station.now, accepts⟩ hk.filed hstamp hold.1 with
          htracked | ⟨htracked, id, hfirst, hheld⟩
        · rw [htracked]
          exact hold.2
        · rw [htracked]
          cases stamp with
          | some timestamp => exact hold.skip
          | none =>
            exact absurd (.confirmed (by rw [hlink]; rfl) hstamp hfirst acts.there hheld)
              hcalm.reset
    · refine hsame ?_ (tracked_receive _ hk.filed hk.buffers fun hsource => absurd hsource horigin)
      rintro _ hstep
      cases hstep
      exact horigin rfl

theorem keepsOrder_step (hne : source ≠ target) (ho : IsOrderly fleet)
    (h : fleet.KeepsOrder source target) (hcalm : fleet.IsCalm source target step) :
    (fleet.step step).KeepsOrder source target := by
  have hmove := ordered_move ho.transit step
  generalize fleet.step step = after at hmove ⊢
  cases hmove with
  | unchanged idle => exact h
  | @waited host station there duration is =>
    intro receiver hreceiver
    have hengine := map_engine_waited there duration
    have hreceives := (hengine target).symm.trans (congrArg _ hreceiver)
    obtain ⟨earlier, hearlier, hsame⟩ := Option.map_eq_some_iff.1 hreceives
    rw [outgoing_congr (hengine source), ← hsame]
    exact h earlier hearlier
  | @lost origin goal bytes rest hlink is =>
    intro receiver hreceiver
    have hold := h receiver hreceiver
    by_cases hends : origin = source ∧ goal = target
    · obtain ⟨rfl, rfl⟩ := hends
      rw [link, linkOf_erase hlink]
      rw [hlink] at hold
      rcases is with rfl | hnobody
      · cases hstamp : stamp? bytes with
        | none => rwa [List.filterMap_cons_none hstamp] at hold
        | some stamp =>
          rw [List.filterMap_cons_some hstamp] at hold
          cases stamp with
          | some timestamp => exact hold.skip
          | none => exact absurd (.lost (by rw [hlink]; rfl) hstamp) hcalm.reset
      · have hthere : fleet.stations.get? goal = some receiver := hreceiver
        rw [hnobody] at hthere
        cases hthere
    · rw [link, linkOf_erase_of_ne hends]
      exact hold
  | @acted host station task _ given acts =>
    by_cases hsource : host = source
    · subst hsource
      exact h.actsSource hne ho hcalm given acts
    · by_cases htarget : host = target
      · subst htarget
        exact h.actsTarget hne ho hcalm given acts
      · intro receiver hreceiver
        have hsender := (acts.stations source).trans (if_neg hsource)
        rw [acts.stations, if_neg htarget] at hreceiver
        rw [outgoing_congr (congrArg _ hsender), acts.link_of_ne hsource,
          linkOf_remaining_of_ne (given_of_task? given) htarget]
        exact h receiver hreceiver

/-- A call that puts nothing out has failed, and the ledger knows it. -/
lemma exists_failed_call {fields : FieldMap} {delivery : Delivery}
    {accepts : Address → Bytes → Bool} {station : Station}
    (there : fleet.stations.get? source = some station) (ho : IsOrderly fleet)
    (hsilent : fleet.effects (.send source target fields delivery accepts) = []) :
    ∃ call ∈ (fleet.step (.send source target fields delivery accepts)).calls,
      call.source = source ∧ ∃ error, call.result = .error error := by
  have hnone : (station.engine.send ⟨station.now, accepts⟩ target fields delivery).2.1 = [] := by
    rw [effects, task?, there] at hsilent
    exact hsilent
  have hfailed : ∃ error,
      (station.engine.send ⟨station.now, accepts⟩ target fields delivery).2.2 = .error error := by
    have hmove :=
      send_move ⟨station.now, accepts⟩ (ho.own _ _ there).filed target fields delivery
    rw [hnone] at hmove
    generalize (station.engine.send ⟨station.now, accepts⟩ target fields delivery).1 = after
      at hmove
    generalize (station.engine.send ⟨station.now, accepts⟩ target fields delivery).2.2 = result
      at hmove ⊢
    cases hmove with
    | failed ids same => exact ⟨_, rfl⟩
  rw [calls_step, called, there]
  exact ⟨_, List.mem_append_right _ (List.mem_singleton_self _), rfl, hfailed⟩

lemma run_snoc (fleet : OrderedFleet) (steps : List OrderedStep) (step : OrderedStep) :
    fleet.run (steps ++ [step]) = (fleet.run steps).step step := by
  rw [run_append]
  rfl

/-- While calls succeed and no peer times out, frames keep their order as long as no reset is
missed. -/
lemma keepsOrder_run (specs : List HostSpec) (hne : source ≠ target) (steps : List OrderedStep)
    (hsends : ∀ call ∈ ((ofSpecs specs).run steps).calls, call.source = source →
      ∃ id, call.result = .ok id)
    (hpeers : ∀ earlier host accepts later, steps = earlier ++ .timeoutSweep host accepts :: later →
      ∀ peer, ((ofSpecs specs).run earlier).IsAwakeAt host peer) :
    (∃ earlier step later, steps = earlier ++ step :: later ∧
        ((ofSpecs specs).run earlier).MissesReset source target step) ∨
      ((ofSpecs specs).run steps).KeepsOrder source target := by
  induction steps using List.reverseRecOn with
  | nil => exact Or.inr (keepsOrder_ofSpecs specs source target)
  | append_singleton steps step ih =>
    have ho : IsOrderly ((ofSpecs specs).run steps) := (isOrderly_ofSpecs specs).run steps
    rw [run_snoc] at hsends ⊢
    have hearlier := (fleetMove_step ((ofSpecs specs).run steps) step).extends
    rcases ih (fun call hcall => hsends call (hearlier.calls hcall)) (by
        rintro earlier host accepts later rfl
        exact hpeers earlier host accepts (later ++ [step]) (by simp)) with
      ⟨earlier, other, later, rfl, hmissed⟩ | horder
    · exact Or.inl ⟨earlier, other, later ++ [step], by simp, hmissed⟩
    · by_cases hmissed : ((ofSpecs specs).run steps).MissesReset source target step
      · exact Or.inl ⟨steps, step, [], rfl, hmissed⟩
      · refine Or.inr (keepsOrder_step hne ho horder ⟨?_, ?_, ?_, hmissed⟩)
        · rintro accepts rfl
          exact hpeers steps _ accepts [] rfl target
        · rintro accepts rfl
          exact hpeers steps _ accepts [] rfl source
        · rintro fields delivery accepts rfl hsilent
          unfold outgoing
          cases there : ((ofSpecs specs).run steps).stations.get? source with
          | none => exact nofun
          | some station =>
            obtain ⟨call, hcall, hsource, error, hfailed⟩ := exists_failed_call there ho hsilent
            obtain ⟨id, hok⟩ := hsends call hcall hsource
            rw [hfailed] at hok
            cases hok

lemma succeeded_of_results {calls : List SendCall}
    {results : List (Except SendError (Option UInt32))} (h : calls.map SendCall.result = results)
    (hsucceeded : ∀ result ∈ results, ∃ id, result = .ok id) :
    ∀ call ∈ calls, ∃ id, call.result = .ok id := by
  intro call hcall
  apply hsucceeded
  rw [← h]
  exact List.mem_map_of_mem hcall

lemma isAwakeAt_of_all {fleet : OrderedFleet} {host : Address}
    (h : (fleet.stations.get? host).all (fun station =>
      station.engine.store.peers.toList.all fun filed =>
        decide (filed.2.idleTime station.now < filed.2.timeout)) = true) (peer : Address) :
    fleet.IsAwakeAt host peer := by
  intro station there
  rw [there, Option.all_some] at h
  exact isAwake_of_all h peer

lemma isAwakeAt_of_last {fleet : OrderedFleet} {before : List OrderedStep} {host : Address}
    {accepts : Address → Bytes → Bool}
    (honly : ∀ other ∈ before, ∀ host accepts, other ≠ .timeoutSweep host accepts)
    (hawake : ∀ peer, (fleet.run before).IsAwakeAt host peer) :
    ∀ earlier host' accepts' later,
      before ++ [.timeoutSweep host accepts] = earlier ++ .timeoutSweep host' accepts' :: later →
        ∀ peer, (fleet.run earlier).IsAwakeAt host' peer := by
  intro earlier host' accepts' later hsplit
  rcases List.append_eq_append_iff.1 hsplit with ⟨more, rfl, hmore⟩ | ⟨more, rfl, hmore⟩
  · cases more with
    | nil =>
      cases hmore
      rw [List.append_nil]
      exact hawake
    | cons first rest => simp at hmore
  · cases more with
    | nil =>
      cases hmore
      rwa [List.append_nil] at hawake
    | cons first rest =>
      have hfirst := (List.cons.inj hmore).1
      exact absurd hfirst.symm (honly first (by simp) host' accepts')

def replies (fleet : OrderedFleet) (step : OrderedStep) : List Bytes :=
  (fleet.effects step).filterMap fun effect => match effect with
    | .sent _ bytes _ => some bytes
    | .delivered _ => none

lemma replies_arrive {station : Station} {bytes : Bytes} {id : UInt32}
    (there : fleet.stations.get? target = some station) (ho : IsOrderly fleet)
    (hnext : (fleet.link source target).head? = some bytes) (hfirst : synId? bytes = some id)
    (accepts : Address → Bytes → Bool) :
    fleet.replies (.arrive source target accepts) = [encodeControl .synSuccess id] ∨
      fleet.replies (.arrive source target accepts) = [encodeControl .synFailure id] ∧
        ∃ stamp, stamp? bytes = some stamp ∧
          isFreshAfter (trackedTimestamp station.engine source) stamp = false := by
  have heffects : fleet.effects (.arrive source target accepts) =
      (station.engine.receive ⟨station.now, accepts⟩ source bytes).2 := by
    rw [effects, task?, hnext, there]
    rfl
  have hw := (ho.own _ _ there).filed
  obtain ⟨frame, hr⟩ := reads_of_synId? hfirst
  unfold replies
  rw [heffects]
  by_cases hheld : HoldsAccepted station.engine source id
  · rw [(receive_of_held _ hw hr hheld).1]
    exact Or.inl rfl
  · cases hfresh : isFreshAfter (trackedTimestamp station.engine source) frame.timestamp with
    | true =>
      obtain ⟨-, hanswer, -⟩ := receive_syn ⟨station.now, accepts⟩ hw hr
        (waiting_of_not_holdsAccepted hw hheld) hfresh
      rw [hanswer]
      exact Or.inl rfl
    | false =>
      rw [receive_of_stale _ hw hr hheld hfresh]
      refine Or.inr ⟨rfl, frame.timestamp, ?_, hfresh⟩
      simp [stamp?, hr.decoded, hr.kind, hr.id]

end Fleets

end OrderedFleet

/-- On a network that loses datagrams and keeps their order, while the calls of a host succeed and no
peer times out, every first frame that arrives is answered with a success, be it sent for the first
time or repeated, unless a first frame without timestamp has failed to reset the receiver before. -/
theorem first_frame_confirmed_or_reset_missed (specs : List HostSpec) {source target : Address}
    (hne : source ≠ target) (steps : List OrderedStep)
    (hsends : ∀ call ∈ ((OrderedFleet.ofSpecs specs).run steps).calls, call.source = source →
      ∃ id, call.result = .ok id)
    (hpeers : ∀ earlier host accepts later, steps = earlier ++ .timeoutSweep host accepts :: later →
      ∀ peer, ((OrderedFleet.ofSpecs specs).run earlier).IsAwakeAt host peer)
    {station : Station}
    (there : ((OrderedFleet.ofSpecs specs).run steps).stations.get? target = some station)
    {bytes : Bytes} {id : UInt32}
    (hnext : (((OrderedFleet.ofSpecs specs).run steps).link source target).head? = some bytes)
    (hfirst : synId? bytes = some id) (accepts : Address → Bytes → Bool) :
    ((OrderedFleet.ofSpecs specs).run steps).replies (.arrive source target accepts) =
        [encodeControl .synSuccess id] ∨
      ((OrderedFleet.ofSpecs specs).run steps).replies (.arrive source target accepts) =
          [encodeControl .synFailure id] ∧
        ∃ earlier step later, steps = earlier ++ step :: later ∧
          ((OrderedFleet.ofSpecs specs).run earlier).MissesReset source target step := by
  have ho := (OrderedFleet.isOrderly_ofSpecs specs).run steps
  rcases OrderedFleet.replies_arrive there ho hnext hfirst accepts with
    hsuccess | ⟨hfailure, stamp, hstamp, hstale⟩
  · exact Or.inl hsuccess
  · refine Or.inr ⟨hfailure, ?_⟩
    rcases OrderedFleet.keepsOrder_run specs hne steps hsends hpeers with hmissed | horder
    · exact hmissed
    · obtain ⟨rest, hrest⟩ := List.head?_eq_some_iff.1 hnext
      have hordered := horder station there
      rw [hrest, List.filterMap_cons_some hstamp] at hordered
      have hfresh := hordered.1
      rw [hstale] at hfresh
      cases hfresh

/-- A first frame is lost, and a plain one that comes after it arrives. The first frame is repeated
with a newer timestamp. -/
theorem first_frame_confirmed_or_reset_missed_overtaken :
    let near : Address := .loopback 9001
    let far : Address := .loopback 9002
    let accepts : Address → Bytes → Bool := fun _ _ => true
    let specs : List HostSpec :=
      [{ config := { selfAddress := near } }, { config := { selfAddress := far } }]
    let steps : List OrderedStep :=
      [.send near far {} .reliable accepts, .lose near far, .send near far {} .unreliable accepts,
        .arrive near far accepts, .wait near 1000, .timeoutSweep near accepts]
    let syn : Bytes := [1, 1, 0, 0, 0, 2, 0, 0, 0, 2, 0]
    ((OrderedFleet.ofSpecs specs).run steps).calls.map SendCall.result =
        [.ok (some 1), .ok none] ∧
      ((OrderedFleet.ofSpecs specs).run steps).link near far = [syn] ∧ synId? syn = some 1 ∧
      ((OrderedFleet.ofSpecs specs).run steps).replies (.arrive near far accepts) =
        [encodeControl .synSuccess 1] := by
  intro near far accepts specs steps syn
  let before : List OrderedStep :=
    [.send near far {} .reliable accepts, .lose near far, .send near far {} .unreliable accepts,
      .arrive near far accepts, .wait near 1000]
  have hpeers : ∀ earlier host accepts' later,
      steps = earlier ++ .timeoutSweep host accepts' :: later →
        ∀ peer, ((OrderedFleet.ofSpecs specs).run earlier).IsAwakeAt host peer :=
    @OrderedFleet.isAwakeAt_of_last _ before near accepts (by simp [before])
      (OrderedFleet.isAwakeAt_of_all (by decide +kernel))
  have hthere : ((((OrderedFleet.ofSpecs specs).run steps).stations.get? far).isSome) = true := by
    decide +kernel
  obtain ⟨station, there⟩ := Option.isSome_iff_exists.1 hthere
  have hresults : ((OrderedFleet.ofSpecs specs).run steps).calls.map SendCall.result =
      [.ok (some 1), .ok none] := by decide +kernel
  have hsends : ∀ call ∈ ((OrderedFleet.ofSpecs specs).run steps).calls, call.source = near →
      ∃ id, call.result = .ok id := by
    intro call hcall _
    exact OrderedFleet.succeeded_of_results hresults (by simp) call hcall
  have hlink : ((OrderedFleet.ofSpecs specs).run steps).link near far = [syn] := by decide +kernel
  have hfirst : synId? syn = some 1 := by decide +kernel
  have hnever : ((OrderedFleet.ofSpecs specs).run steps).replies (.arrive near far accepts) ≠
    [encodeControl .synFailure 1] := by decide +kernel
  rcases first_frame_confirmed_or_reset_missed specs (by decide) steps hsends hpeers there
    (congrArg List.head? hlink) hfirst accepts with hsuccess | hfailure
  · exact ⟨hresults, hlink, hfirst, hsuccess⟩
  · exact absurd hfailure.1 hnever

def numbered (engine : Engine) (record : PeerRecord) (number : UInt16) : Engine :=
  { engine with store := engine.store.putPeer { record with nextTimestamp := number } }

lemma ofNat_ne_wraparoundTimestamp {number : Nat} (h : number < 65535) :
    UInt16.ofNat number ≠ wraparoundTimestamp := by
  intro hwrap
  have hnat := congrArg UInt16.toNat hwrap
  rw [UInt16.toNat_ofNat'] at hnat
  have hlast : wraparoundTimestamp.toNat = 65535 := rfl
  omega

section Numbered

variable {engine : Engine} {record : PeerRecord} {number : UInt16}

lemma encode_empty (hearly : number ≠ wraparoundTimestamp) :
    ∃ frame, encode [] { timestamp := some number } = .ok frame ∧ frame.length = 7 := by
  have hvalid : AreValid { timestamp := some number } :=
    ⟨(Option.some_ne_none _).symm, fun hlast => absurd (Option.some.inj hlast) hearly⟩
  refine ⟨_, (encode_eq_ok_iff _ _).2 ⟨hvalid, [], rfl, rfl⟩, ?_⟩
  rw [length_frameAround, @length_writtenTimestamp _ number rfl, stampLength, if_neg hearly]
  rfl

lemma drawTimestamp_numbered {now : Nat} (htouched : record.touch now = record) :
    (numbered engine record number).drawTimestamp now record.address =
      (numbered engine record (number + 1), number) := by
  have hpeer : (numbered engine record number).store.peer now record.address =
      ((numbered engine record number).store, { record with nextTimestamp := number }) := by
    unfold Store.peer
    rw [show (numbered engine record number).store.peers[record.address]? =
      some { record with nextTimestamp := number } from Std.ExtTreeMap.getElem?_insert_self]
  have htouch : ({ record with nextTimestamp := number } : PeerRecord).touch now =
      { record with nextTimestamp := number } := by
    rw [← htouched]
    rfl
  unfold Engine.drawTimestamp Engine.withPeer
  rw [hpeer]
  simp only [htouch, PeerRecord.drawTimestamp]
  have hagain : (engine.store.peers.insert record.address
      { record with nextTimestamp := number }).insert record.address
        { record with nextTimestamp := number + 1 } =
      engine.store.peers.insert record.address { record with nextTimestamp := number + 1 } := by
    refine Std.ExtTreeMap.ext_getElem? fun address => ?_
    grind
  simp only [numbered, Store.putPeer, hagain]

lemma send_numbered {occasion : Occasion}
    (hearly : number ≠ wraparoundTimestamp) (htouched : record.touch occasion.now = record)
    (hroom : 7 ≤ engine.config.maxDatagramSize)
    (haccepts : ∀ target bytes, occasion.accepts target bytes = true) :
    ∃ frame, (numbered engine record number).send occasion record.address {} .unreliable =
      (numbered engine record (number + 1), [.sent record.address frame true], .ok none) := by
  obtain ⟨frame, hframe, hlength⟩ := encode_empty hearly
  refine ⟨frame, ?_⟩
  have hwritten : (numbered engine record (number + 1)).writeFrame record.address {}
      { timestamp := some number } = .ok frame := by
    unfold Engine.writeFrame
    have hlist : FieldMap.toList {} = [] := rfl
    rw [hlist, hframe]
    have hsmall : ¬ (numbered engine record (number + 1)).config.maxDatagramSize < frame.length := by
      have hconfig : (numbered engine record (number + 1)).config = engine.config := rfl
      rw [hconfig]
      omega
    exact if_neg hsmall
  unfold Engine.send
  rw [drawTimestamp_numbered htouched]
  simp only [Engine.drawMessageId, hearly, reduceCtorEq, false_or, decide_false, Bool.false_eq_true,
    if_false]
  have hdouble : FieldMap.needsDoubleCount {} = false := rfl
  rw [hdouble, hwritten]
  simp only [Engine.sendFrame, haccepts, if_true]

end Numbered

lemma numbered_self {engine : Engine} {record : PeerRecord}
    (h : engine.store.peers[record.address]? = some record) :
    numbered engine record record.nextTimestamp = engine := by
  have hsame : engine.store.peers.insert record.address record = engine.store.peers := by
    refine Std.ExtTreeMap.ext_getElem? fun address => ?_
    grind
  simp only [numbered, Store.putPeer, hsame]

namespace OrderedFleet

/-- No datagram is on its way, and a host draws a number next for a peer. -/
def numbering (fleet : OrderedFleet) (host : Address) (station : Station) (record : PeerRecord)
    (number : Nat) : OrderedFleet where
  stations := fleet.stations.insert host
    { station with engine := numbered station.engine record (.ofNat number) }
  queue := []

section Numbering

variable {fleet : OrderedFleet} {host : Address} {station : Station} {record : PeerRecord}
variable {number : Nat}

lemma get?_numbering (other : Address) :
    (fleet.numbering host station record number).stations.get? other =
      if host = other then
        some { station with engine := numbered station.engine record (.ofNat number) }
      else fleet.stations.get? other :=
  Table.get?_insert _ _ _ _

lemma inTransit_numbering : InTransit (fleet.numbering host station record number) :=
  fun _ hmem => absurd hmem List.not_mem_nil

lemma mirrors_numbering (there : fleet.stations.get? host = some station)
    (filed : station.engine.store.peers[record.address]? = some record)
    (next : record.nextTimestamp = .ofNat number) (quiet : fleet.queue = [])
    (succeeded : ∀ call ∈ fleet.calls, ∃ id, call.result = .ok id) :
    Mirrors fleet (fleet.numbering host station record number) := by
  refine ⟨fun other => ?_, quiet, fleet.calls, (List.append_nil _).symm, succeeded⟩
  rw [get?_numbering, ← next, numbered_self filed]
  split
  · rename_i hhost
    rw [← hhost, there]
  · rfl

/-- A plain frame that is lost makes no difference but to the counter. -/
lemma mirrors_lostSend {accepts : Address → Bytes → Bool}
    (haccepts : ∀ target bytes, accepts target bytes = true)
    (htouched : record.touch station.now = record)
    (hroom : 7 ≤ station.engine.config.maxDatagramSize) (hearly : number < 65535) :
    Mirrors ((fleet.numbering host station record number).run
        [.send host record.address {} .unreliable accepts, .lose host record.address])
      (fleet.numbering host station record (number + 1)) := by
  have hnumber := ofNat_ne_wraparoundTimestamp hearly
  have hnext : UInt16.ofNat (number + 1) = UInt16.ofNat number + 1 := UInt16.ofNat_add _ _
  obtain ⟨frame, hsend⟩ := @send_numbered station.engine record _ ⟨station.now, accepts⟩ hnumber
    htouched hroom haccepts
  have there := (@get?_numbering fleet host station record number host).trans (if_pos rfl)
  have hgiven : (fleet.numbering host station record number).task?
      (.send host record.address {} .unreliable accepts) = some (host,
        { station with engine := numbered station.engine record (.ofNat number) },
        .send ⟨station.now, accepts⟩ record.address {} .unreliable) := by
    rw [task?, there]
    rfl
  have hacts := acts_of_task? inTransit_numbering hgiven
  have hengine : (({ engine := numbered station.engine record (.ofNat number) } : History).step
      (.send ⟨station.now, accepts⟩ record.address {} .unreliable)).engine =
        numbered station.engine record (.ofNat (number + 1)) := by
    rw [hnext]
    exact congrArg Prod.fst hsend
  have heffects : (({ engine := numbered station.engine record (.ofNat number) } : History).step
      (.send ⟨station.now, accepts⟩ record.address {} .unreliable)).effects =
        [.sent record.address frame true] :=
    (List.nil_append _).trans (congrArg (·.2.1) hsend)
  have hqueue : ((fleet.numbering host station record number).step
      (.send host record.address {} .unreliable accepts)).queue = [⟨host, record.address, frame⟩] := by
    rw [hacts.queue, heffects]
    rfl
  have hcalled : ∀ call ∈ (fleet.numbering host station record number).called
      (.send host record.address {} .unreliable accepts), call.result = .ok none := by
    rw [called, there]
    intro call hcall
    rw [Option.elim_some, hsend] at hcall
    rw [List.mem_singleton.1 hcall]
  have hcalls := calls_step (fleet.numbering host station record number)
    (.send host record.address {} .unreliable accepts)
  rw [run, List.foldl_cons, List.foldl_cons, List.foldl_nil]
  generalize (fleet.numbering host station record number).step
    (.send host record.address {} .unreliable accepts) = sent at hacts hqueue hcalls ⊢
  have hlink : sent.link host record.address = [frame] := by
    rw [link, hqueue, linkOf, List.filterMap_cons, if_pos ⟨rfl, rfl⟩]
    rfl
  have hlose : sent.step (.lose host record.address) = { sent with
      queue := [], lost := sent.lost ++ [⟨host, record.address, frame⟩] } := by
    rw [OrderedFleet.step, lose, hlink]
    simp [hqueue]
  rw [hlose]
  refine ⟨fun other => ?_, rfl, _, hcalls.trans (List.append_nil _).symm, ?_⟩
  · rw [get?_numbering]
    refine (hacts.stations other).trans ?_
    rw [get?_numbering, hengine]
    split <;> rfl
  · intro call hcall
    exact ⟨none, hcalled call hcall⟩

lemma mirrors_lostSends {accepts : Address → Bytes → Bool}
    (haccepts : ∀ target bytes, accepts target bytes = true)
    (htouched : record.touch station.now = record)
    (hroom : 7 ≤ station.engine.config.maxDatagramSize) (count : Nat)
    (hearly : number + count ≤ 65535) :
    Mirrors ((fleet.numbering host station record number).run (List.replicate count
        [.send host record.address {} .unreliable accepts, .lose host record.address]).flatten)
      (fleet.numbering host station record (number + count)) := by
  induction count generalizing number with
  | zero => exact .refl _
  | succ count ih =>
    rw [List.replicate_succ, List.flatten_cons, run_append]
    have hfirst := @mirrors_lostSend fleet host station record number accepts haccepts htouched
      hroom (by omega)
    have hrest := hfirst.run (inTransit_numbering.run _) inTransit_numbering
      (List.replicate count [.send host record.address {} .unreliable accepts,
        .lose host record.address]).flatten
    have hmore := @ih (number + 1) (by omega)
    rw [Nat.add_assoc, Nat.add_comm 1] at hmore
    exact hrest.trans hmore

end Numbering

end OrderedFleet

/-- The numbers of a host wrap around with a first frame that is lost. Its repetition, which comes with
the number 0, is rejected. -/
theorem first_frame_rejected_after_lost_reset :
    let near : Address := .loopback 9001
    let far : Address := .loopback 9002
    let accepts : Address → Bytes → Bool := fun _ _ => true
    let specs : List HostSpec :=
      [{ config := { selfAddress := near } }, { config := { selfAddress := far } }]
    let plain : OrderedStep := .send near far {} .unreliable accepts
    let before : List OrderedStep :=
      [plain, .arrive near far accepts] ++ (List.replicate 65534 [plain, .lose near far]).flatten ++
        [.send near far {} .reliable accepts, .lose near far, .wait near 1000]
    let steps : List OrderedStep := before ++ [.timeoutSweep near accepts]
    let syn : Bytes := [1, 1, 0, 0, 0, 0, 0, 0, 0, 0, 0]
    (∀ call ∈ ((OrderedFleet.ofSpecs specs).run steps).calls, ∃ id, call.result = .ok id) ∧
      (∀ earlier host accepts later, steps = earlier ++ .timeoutSweep host accepts :: later →
        ∀ peer, ((OrderedFleet.ofSpecs specs).run earlier).IsAwakeAt host peer) ∧
      ((OrderedFleet.ofSpecs specs).run steps).link near far = [syn] ∧ synId? syn = some 1 ∧
      ((OrderedFleet.ofSpecs specs).run steps).replies (.arrive near far accepts) =
        [encodeControl .synFailure 1] := by
  intro near far accepts specs plain before steps syn
  let first : List OrderedStep := [plain, .arrive near far accepts]
  let last : List OrderedStep :=
    [.send near far {} .reliable accepts, .lose near far, .wait near 1000]
  let fleet := (OrderedFleet.ofSpecs specs).run first
  let engine : Engine :=
    { Engine.starting { selfAddress := near } 1 with
      store := { config := { selfAddress := near }, nextSerial := 1 } }
  let record : PeerRecord :=
    { (({ config := { selfAddress := near } } : Store).newPeer 0 far) with nextTimestamp := 1 }
  let station : Station := { engine := numbered engine record 1 }
  let wrapping := fleet.numbering near station record 65535
  have hstart : fleet.Mirrors (fleet.numbering near station record 1) := by
    apply OrderedFleet.mirrors_numbering
    · have hengine : (fleet.stations.get? near).map (fun found => (found.engine, found.now)) =
          some (station.engine, 0) := by decide +kernel
      obtain ⟨⟨found, now⟩, hfound, hsame⟩ := Option.map_eq_some_iff.1 hengine
      obtain ⟨rfl, rfl⟩ := Prod.mk.inj hsame
      exact hfound
    · exact Std.ExtTreeMap.getElem?_insert_self
    · rfl
    · decide +kernel
    · have hresults : fleet.calls.map SendCall.result = [.ok none] := by decide +kernel
      exact OrderedFleet.succeeded_of_results hresults (by simp)
  have htransit := (OrderedFleet.isOrderly_ofSpecs specs).transit.run first
  have hwraps : (fleet.run (List.replicate 65534 [plain, .lose near far]).flatten).Mirrors
      wrapping :=
    (hstart.run htransit OrderedFleet.inTransit_numbering _).trans
      (OrderedFleet.mirrors_lostSends (fun _ _ => rfl) rfl (by decide) 65534 (by decide))
  have hmirrors : ((OrderedFleet.ofSpecs specs).run before).Mirrors (wrapping.run last) := by
    rw [OrderedFleet.run_append, OrderedFleet.run_append]
    exact hwraps.run (htransit.run _) OrderedFleet.inTransit_numbering last
  have hend : ((OrderedFleet.ofSpecs specs).run steps).Mirrors
      ((wrapping.run last).step (.timeoutSweep near accepts)) := by
    rw [OrderedFleet.run_snoc]
    exact hmirrors.step ((OrderedFleet.isOrderly_ofSpecs specs).transit.run _)
      (OrderedFleet.inTransit_numbering.run _) _
  refine ⟨?_, OrderedFleet.isAwakeAt_of_last ?_ ?_, ?_, by decide +kernel, ?_⟩
  · have hresults : ((wrapping.run last).step (.timeoutSweep near accepts)).calls.map
        SendCall.result = [.ok (some 1)] := by decide +kernel
    obtain ⟨earlier, hcalls, hsucceeded⟩ := hend.calls
    intro call hcall
    rw [hcalls] at hcall
    rcases List.mem_append.1 hcall with hcall | hcall
    · exact hsucceeded call hcall
    · exact OrderedFleet.succeeded_of_results hresults (by simp) call hcall
  · intro other hother
    rcases List.mem_append.1 hother with hother | hother
    · rcases List.mem_append.1 hother with hother | hother
      · simp only [plain, List.mem_pair] at hother
        rcases hother with rfl | rfl <;> exact nofun
      · obtain ⟨pair, hpair, hother⟩ := List.mem_flatten.1 hother
        rw [List.eq_of_mem_replicate hpair] at hother
        simp only [plain, List.mem_pair] at hother
        rcases hother with rfl | rfl <;> exact nofun
    · simp only [List.mem_cons, List.not_mem_nil, or_false] at hother
      rcases hother with rfl | rfl | rfl <;> exact nofun
  · have hawake := @OrderedFleet.isAwakeAt_of_all (wrapping.run last) near (by decide +kernel)
    intro peer found hfound
    exact hawake peer found ((hmirrors.stations near).symm.trans hfound)
  · rw [hend.link]
    decide +kernel
  · rw [OrderedFleet.replies, hend.effects]
    have hrejected : ((wrapping.run last).step (.timeoutSweep near accepts)).replies
        (.arrive near far accepts) = [encodeControl .synFailure 1] := by decide +kernel
    exact hrejected

end ReliableDatagrams.Proofs
