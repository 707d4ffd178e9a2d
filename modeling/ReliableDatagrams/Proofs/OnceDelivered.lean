import ReliableDatagrams.Proofs.Repetition
import ReliableDatagrams.Proofs.Staleness

/-!
# Messages that were delivered once

Between two hosts on a network that keeps the order, no first frame is rejected as long as the
timestamps of the sender do not start over and nobody forgets a peer. Then a message that was delivered
is not delivered again: its receiver remembers it until it is told that its success was seen, and by
then the sender waits no longer, so that all copies of the first frame are ahead of what tells the
receiver so.
-/

namespace ReliableDatagrams.Proofs

section Effects

variable {engine after : Engine} {occasion : Occasion} {effects : List Effect}
variable {host peer : Address} {datagram : Datagram} {bytes : Bytes} {id : UInt32}

lemma mem_filterMap_datagramOf? :
    datagram ∈ effects.filterMap (datagramOf? host) ↔
      datagram.source = host ∧ Effect.sent datagram.target datagram.bytes true ∈ effects := by
  rw [List.mem_filterMap]
  constructor
  · rintro ⟨effect, hmem, hsent⟩
    cases effect with
    | delivered message => cases hsent
    | sent target bytes accepted =>
      cases accepted with
      | false => cases hsent
      | true =>
        cases hsent
        exact ⟨rfl, hmem⟩
  · rintro ⟨rfl, hmem⟩
    exact ⟨_, hmem, rfl⟩

lemma mem_sentTo : bytes ∈ sentTo peer effects ↔ Effect.sent peer bytes true ∈ effects := by
  unfold sentTo
  rw [List.mem_filterMap]
  constructor
  · rintro ⟨effect, hmem, hsent⟩
    cases effect with
    | delivered message => cases hsent
    | sent target found accepted =>
      cases accepted with
      | false => cases hsent
      | true =>
        dsimp only at hsent
        split at hsent
        · rename_i htarget
          cases hsent
          rwa [← htarget]
        · cases hsent
  · intro hmem
    exact ⟨_, hmem, if_pos rfl⟩

lemma synId?_of_mem_sentTo (h : effects.countP (isSynFor peer id) = 0)
    (hmem : bytes ∈ sentTo peer effects) : synId? bytes ≠ some id := by
  intro hsyn
  rw [List.countP_eq_zero] at h
  exact h _ (mem_sentTo.1 hmem) (by simp [isSynFor, hsyn])

def AllTaken (effects : List Effect) : Prop :=
  ∀ target bytes, Effect.sent target bytes false ∉ effects

lemma allTaken_of_accepts (haccepts : ∀ target bytes, occasion.accepts target bytes = true)
    (target : Address) (bytes : Bytes) :
    AllTaken [.sent target bytes (occasion.accepts target bytes)] := by
  intro other found hmem
  have hsame := List.mem_singleton.1 hmem
  rw [haccepts] at hsame
  cases hsame

lemma RetryMove.allTaken {connection : ConnectionRecord}
    (h : RetryMove engine occasion connection after effects)
    (haccepts : ∀ target bytes, occasion.accepts target bytes = true) : AllTaken effects := by
  cases h with
  | repeated role status buffered written bound filed => exact allTaken_of_accepts haccepts _ _
  | givenUp filed => exact fun _ _ => List.not_mem_nil

lemma timeoutSweep_allTaken (hw : WellFiled engine.store)
    (haccepts : ∀ target bytes, occasion.accepts target bytes = true) :
    AllTaken (engine.timeoutSweep occasion).2 := by
  have hall := @timeoutSweep_induction engine occasion (fun _ => True)
    (fun effect => ∀ target bytes, effect ≠ .sent target bytes false) (by
      rintro engine after effects - hmove -
      refine ⟨trivial, fun effect hmem target bytes hrefused => ?_⟩
      rw [hrefused] at hmem
      cases hmove with
      | kept same => cases hmem
      | retried record retry => exact retry.allTaken haccepts _ _ hmem
      | expired filed => cases hmem) hw trivial
  exact fun target bytes hmem => hall.2 _ hmem target bytes rfl

lemma SendMove.allTaken {target : Address} {fields : FieldMap}
    {result : Except SendError (Option UInt32)}
    (h : SendMove engine occasion target fields after effects result)
    (haccepts : ∀ target bytes, occasion.accepts target bytes = true) : AllTaken effects := by
  cases h with
  | failed ids same => exact fun _ _ => List.not_mem_nil
  | plain drawn unforced written ids same => exact allTaken_of_accepts haccepts _ _
  | first drawn written record ids filed => exact allTaken_of_accepts haccepts _ _

lemma ReceiveMove.allTaken {source : Address} {datagram : Bytes}
    (h : ReceiveMove engine occasion source datagram after effects)
    (haccepts : ∀ target bytes, occasion.accepts target bytes = true) : AllTaken effects := by
  cases h with
  | ignored same => exact fun _ _ => List.not_mem_nil
  | plain decoded kind fresh same => simp [AllTaken]
  | accepted reads record waiting fresh filed => simp [AllTaken, haccepts]
  | retried reads record retry => exact retry.allTaken haccepts
  | finished reads record status filed => exact fun _ _ => List.not_mem_nil
  | _ => exact allTaken_of_accepts haccepts _ _

end Effects

def OrderedStep.AcceptsAll : OrderedStep → Prop
  | .send _ _ _ _ accepts | .arrive _ _ accepts | .timeoutSweep _ accepts =>
    ∀ target bytes, accepts target bytes = true
  | .lose _ _ | .deleteSweep _ | .wait _ _ => True

namespace OrderedFleet

section Tidy

variable {fleet : OrderedFleet} {host : Address} {station : Station} {task : EngineStep}

lemma allTaken_of_given {step : OrderedStep} (hw : WellFiled station.engine.store)
    (h : Given fleet host station step task) (haccepts : step.AcceptsAll) :
    AllTaken (({ engine := station.engine } : History).step task).effects := by
  cases h with
  | send target fields delivery accepts => exact (send_move _ hw _ _ _).allTaken haccepts
  | arrive link accepts => exact (receive_move _ hw _ _).allTaken haccepts
  | timeoutSweep accepts => exact timeoutSweep_allTaken hw haccepts
  | deleteSweep => exact fun _ _ => List.not_mem_nil

lemma isFrame_of_given {step : OrderedStep} (hw : WellFiled station.engine.store)
    (h : Given fleet host station step task) {target : Address} {bytes : Bytes} {accepted : Bool}
    (hmem : Effect.sent target bytes accepted ∈
      (({ engine := station.engine } : History).step task).effects) : IsFrame bytes := by
  cases h with
  | send other fields delivery accepts =>
    obtain ⟨fields, options, written⟩ := (send_move _ hw _ _ _).onlyData _ _ _ hmem
    exact .data written
  | arrive link accepts => exact (receive_move _ hw _ _).frames hmem
  | timeoutSweep accepts =>
    obtain ⟨fields, options, written⟩ := timeoutSweep_onlyData hw _ _ _ hmem
    exact .data written
  | deleteSweep => cases hmem

lemma arrive_of_control {step : OrderedStep} (hw : WellFiled station.engine.store)
    (h : Given fleet host station step task) {target : Address} {bytes : Bytes} {accepted : Bool}
    (hmem : Effect.sent target bytes accepted ∈
      (({ engine := station.engine } : History).step task).effects) {kind : FrameKind} {id : UInt32}
    {frame : Frame} (hr : Reads bytes kind id frame) (hkind : kind.isControl = true) :
    ∃ origin datagram rest accepts, fleet.link origin host = datagram :: rest ∧
      step = .arrive origin host accepts ∧
      task = .work ⟨station.now, accepts⟩ (.receive origin datagram) := by
  have hdata : ∀ {fields options}, encode fields options = .ok bytes → False := by
    intro fields options written
    rw [(reads_of_data written hr).1] at hkind
    cases hkind
  cases h with
  | send other fields delivery accepts =>
    obtain ⟨fields, options, written⟩ := (send_move _ hw _ _ _).onlyData _ _ _ hmem
    exact (hdata written).elim
  | arrive link accepts => exact ⟨_, _, _, accepts, link, rfl, rfl⟩
  | timeoutSweep accepts =>
    obtain ⟨fields, options, written⟩ := timeoutSweep_onlyData hw _ _ _ hmem
    exact (hdata written).elim
  | deleteSweep => cases hmem

lemma posted_of_record (hs : SoundFleet fleet.toFleet)
    (there : fleet.stations.get? host = some station) {target : Address} {id : UInt32}
    {record : ConnectionRecord} (hrecord :
      station.engine.store.connections[(⟨target, id, .sender⟩ : ConnectionKey)]? = some record)
    (hstatus : record.status = .synSent ∨ record.status = .ackSent) :
    ∃ fields, Posted fleet.toLedger host target (some id) fields := by
  have hsound := hs.records host station there _ record hrecord
  have hkey := ((hs.filed host station there).connection _ _ hrecord).1
  rcases hstatus with hwaiting | hseen
  · obtain ⟨syn, found, -, -, hposted⟩ := hsound.waiting (by rw [hkey]) hwaiting
    rw [hkey] at hposted
    exact ⟨_, hposted⟩
  · obtain ⟨fields, harrival⟩ := hsound.acknowledged (by rw [hkey]) (by rw [hseen]; decide)
    rw [hkey] at harrival
    exact ⟨fields, hs.arrivals _ harrival⟩

lemma posted_of_closing {step : OrderedStep} (hs : SoundFleet fleet.toFleet)
    (there : fleet.stations.get? host = some station) (h : Given fleet host station step task)
    {target : Address} {bytes : Bytes} {accepted : Bool} {id : UInt32} {frame : Frame}
    (hmem : Effect.sent target bytes accepted ∈
      (({ engine := station.engine } : History).step task).effects)
    (hr : Reads bytes .synAckSuccess id frame) :
    ∃ fields, Posted fleet.toLedger host target (some id) fields := by
  have hw := hs.filed host station there
  obtain ⟨origin, datagram, rest, accepts, -, -, rfl⟩ := arrive_of_control hw h hmem hr rfl
  obtain ⟨⟨record, hrecord, hstatus⟩, -⟩ := (receive_move _ hw _ _).closes hw.connection hmem hr
  exact posted_of_record hs there hrecord hstatus

/-- What is on its way is as engines write it, and answers to successes are by senders. -/
structure IsTidy (fleet : OrderedFleet) : Prop where
  frames : ∀ datagram ∈ fleet.queue, IsFrame datagram.bytes
  closings : ∀ datagram ∈ fleet.queue, ∀ id frame,
    Reads datagram.bytes .synAckSuccess id frame →
      ∃ fields, Posted fleet.toLedger datagram.source datagram.target (some id) fields

lemma isTidy_ofSpecs (specs : List HostSpec) : IsTidy (ofSpecs specs) where
  frames := by simp [ofSpecs]
  closings := by simp [ofSpecs]

lemma IsTidy.step (ho : IsOrderly fleet) (h : IsTidy fleet) (step : OrderedStep) :
    IsTidy (fleet.step step) := by
  have hextends := (fleetMove_step fleet step).extends
  have hmove := ordered_move ho.transit step
  generalize fleet.step step = after at hextends hmove ⊢
  cases hmove with
  | unchanged idle => exact h
  | waited there duration is => exact ⟨h.frames, h.closings⟩
  | lost hlink is =>
    exact ⟨fun datagram hmem => h.frames datagram (List.mem_of_mem_erase hmem),
      fun datagram hmem => h.closings datagram (List.mem_of_mem_erase hmem)⟩
  | @acted host station task _ given acts =>
    have hgiven := given_of_task? given
    have hw := (ho.own host station acts.there).filed
    refine ⟨fun datagram hmem => ?_, fun datagram hmem id frame hr => ?_⟩
    · rw [acts.queue] at hmem
      rcases List.mem_append.1 hmem with hold | hnew
      · exact h.frames datagram (mem_remaining hold)
      · exact isFrame_of_given hw hgiven (mem_filterMap_datagramOf?.1 hnew).2
    · rw [acts.queue] at hmem
      rcases List.mem_append.1 hmem with hold | hnew
      · obtain ⟨fields, hposted⟩ := h.closings datagram (mem_remaining hold) id frame hr
        exact ⟨fields, hposted.mono hextends⟩
      · obtain ⟨hsource, hsent⟩ := mem_filterMap_datagramOf?.1 hnew
        obtain ⟨fields, hposted⟩ := posted_of_closing ho.sound acts.there hgiven hsent hr
        rw [hsource]
        exact ⟨fields, hposted.mono hextends⟩

end Tidy

/-- The source has numbers left for the target: its counter is not at the last one, and no first frame
has gone out with that one, which is written without timestamp. -/
structure HasNumbers (source target : Address) (fleet : OrderedFleet) : Prop where
  counter : fleet.outgoing source target ≠ wraparoundTimestamp
  stamped : ∀ datagram ∈ fleet.wire, datagram.source = source → datagram.target = target →
    stamp? datagram.bytes ≠ some none

instance (source target : Address) (fleet : OrderedFleet) :
    Decidable (HasNumbers source target fleet) :=
  decidable_of_iff (fleet.outgoing source target ≠ wraparoundTimestamp ∧
      ∀ datagram ∈ fleet.wire, datagram.source = source → datagram.target = target →
        stamp? datagram.bytes ≠ some none)
    ⟨fun h => ⟨h.1, h.2⟩, fun h => ⟨h.counter, h.stamped⟩⟩

/-- A step that may be taken at any time: no sweep of the target, and none of the source that might
forget the target. -/
structure IsHarmless (source target : Address) (fleet : OrderedFleet) (step : OrderedStep) : Prop where
  accepts : step.AcceptsAll
  sender : ∀ accepts, step = .timeoutSweep source accepts → fleet.IsAwakeAt source target
  receiver : ∀ accepts, step ≠ .timeoutSweep target accepts

/-- Frames from the source are fresh for the target, so that it sends no failure. -/
structure IsIntact (source target : Address) (fleet : OrderedFleet) : Prop where
  tidy : IsTidy fleet
  order : fleet.KeepsOrder source target
  unfailed : ∀ bytes ∈ fleet.link target source, ∀ seen frame, ¬ Reads bytes .synFailure seen frame

section Intact

variable {fleet : OrderedFleet} {source target : Address} {id : UInt32} {step : OrderedStep}

lemma isIntact_ofSpecs (specs : List HostSpec) : IsIntact source target (ofSpecs specs) where
  tidy := isTidy_ofSpecs specs
  order := keepsOrder_ofSpecs specs source target
  unfailed := by simp [ofSpecs, link, linkOf]

lemma isCalm_of_isHarmless (ho : IsOrderly fleet) (hnumbers : HasNumbers source target fleet)
    (h : IsHarmless source target fleet step) : fleet.IsCalm source target step where
  sender := h.sender
  receiver accepts hstep := absurd hstep (h.receiver accepts)
  written _ _ _ _ _ := hnumbers.counter
  reset hmissed := by
    cases hmissed with
    | lost next unstamped =>
      exact hnumbers.stamped _ (ho.transit _ (mem_of_head?_link next)) rfl rfl unstamped
    | confirmed next unstamped first there held =>
      exact hnumbers.stamped _ (ho.transit _ (mem_of_head?_link next)) rfl rfl unstamped
    | refused given refused =>
      obtain ⟨bytes, hmem, -⟩ := refused
      rw [effects_of_task? given] at hmem
      exact allTaken_of_given (ho.own _ _ (task?_eq_some given).1).filed (given_of_task? given)
        h.accepts _ _ hmem

lemma isFreshAfter_of_order (h : fleet.KeepsOrder source target) {station : Station}
    (there : fleet.stations.get? target = some station) {bytes : Bytes} {rest : List Bytes}
    (hlink : fleet.link source target = bytes :: rest) {frame : Frame}
    (hr : Reads bytes .syn id frame) :
    isFreshAfter (trackedTimestamp station.engine source) frame.timestamp = true := by
  have hstamp : stamp? bytes = some frame.timestamp := by
    simp [stamp?, hr.decoded, hr.kind, hr.id]
  have hordered := h station there
  rw [hlink, List.filterMap_cons_some hstamp] at hordered
  exact hordered.1

lemma IsIntact.accepts (h : IsIntact source target fleet) {station : Station}
    (there : fleet.stations.get? target = some station) {bytes : Bytes} {rest : List Bytes}
    (hlink : fleet.link source target = bytes :: rest) :
    ¬ IsRejectedSyn station.engine source bytes id := by
  rintro (⟨header, expected, actual, hdamaged, -⟩ | ⟨frame, hr, hstale⟩)
  · have hmem := mem_of_head?_link (congrArg List.head? hlink)
    exact (h.tidy.frames _ hmem).undamaged _ _ _ hdamaged
  · rw [isFreshFrom_eq, isFreshAfter_of_order h.order there hlink hr] at hstale
    cases hstale

lemma IsIntact.next (hne : source ≠ target) (ho : IsOrderly fleet)
    (h : IsIntact source target fleet) (hnumbers : HasNumbers source target fleet)
    (hharmless : IsHarmless source target fleet step) :
    IsIntact source target (fleet.step step) := by
  refine ⟨h.tidy.step ho step, keepsOrder_step hne ho h.order
    (isCalm_of_isHarmless ho hnumbers hharmless), ?_⟩
  have hmove := ordered_move ho.transit step
  generalize fleet.step step = after at hmove ⊢
  cases hmove with
  | unchanged idle => exact h.unfailed
  | waited there duration is => exact h.unfailed
  | lost hlink is =>
    intro bytes hmem
    exact h.unfailed bytes (mem_linkOf.2 (List.mem_of_mem_erase (mem_linkOf.1 hmem)))
  | @acted host station task _ given acts =>
    intro bytes hmem seen frame hr
    by_cases hhost : host = target
    · subst hhost
      rw [acts.link_own, List.mem_append] at hmem
      rcases hmem with hold | hnew
      · exact h.unfailed bytes (mem_link_of_remaining hold) seen frame hr
      · have hw := (ho.own _ _ acts.there).filed
        have hsent := mem_sentTo.1 hnew
        obtain ⟨origin, datagram, rest, accepts, hlink, -, rfl⟩ :=
          arrive_of_control hw (given_of_task? given) hsent hr rfl
        obtain ⟨rfl, hrejected⟩ := (receive_move _ hw _ _).rejects hsent hr
        exact h.accepts acts.there hlink hrejected
    · rw [acts.link_of_ne hhost] at hmem
      exact h.unfailed bytes (mem_link_of_remaining hmem) seen frame hr

end Intact

section Calls

variable {fleet : OrderedFleet} {source target : Address} {id : UInt32} {station : Station}

lemma sendsOf_step (fleet : OrderedFleet) (step : OrderedStep) (host : Address) (id : UInt32) :
    (fleet.step step).sendsOf host id = fleet.sendsOf host id ++
      (fleet.called step).filter fun call => call.source = host ∧ call.result = .ok (some id) := by
  unfold Fleet.sendsOf
  rw [calls_step, List.filter_append]

lemma send_result_ne {fields : FieldMap} {peer : Address} {delivery : Delivery}
    {accepts : Address → Bytes → Bool}
    (hunique : ((fleet.step (.send source peer fields delivery accepts)).sendsOf source id).length ≤
      1) (hposted : ∃ target fields, Posted fleet.toLedger source target (some id) fields)
    (there : fleet.stations.get? source = some station) :
    (station.engine.send ⟨station.now, accepts⟩ peer fields delivery).2.2 ≠ .ok (some id) := by
  intro hresult
  obtain ⟨other, given, call, hcall, hsource, -, -, hid⟩ := hposted
  have hearlier : 0 < (fleet.sendsOf source id).length :=
    List.length_pos_of_mem (List.mem_filter.2 ⟨hcall, by simp [hsource, hid]⟩)
  rw [sendsOf_step, called, there, List.length_append] at hunique
  simp only [Option.elim_some, hresult, and_self, decide_true, List.filter_cons_of_pos,
    List.length_cons] at hunique
  omega

end Calls

section Tasks

variable {fleet : OrderedFleet} {source target : Address} {id : UInt32} {station : Station}
variable {config : Config} {since : Nat}

lemma senderEngine_of_given {step : OrderedStep} {task : EngineStep}
    (h : SenderEngine config target since station.engine) (hsince : since ≤ station.now)
    (hgiven : Given fleet source station step task) :
    SenderEngine config target since (({ engine := station.engine } : History).step task).engine := by
  cases hgiven with
  | send peer fields delivery accepts => exact h.send ⟨station.now, accepts⟩ hsince _ _ _
  | arrive link accepts => exact h.receive ⟨station.now, accepts⟩ hsince _ _
  | timeoutSweep accepts => exact h.timeoutSweep ⟨station.now, accepts⟩ hsince
  | deleteSweep => exact h.deleteSweep station.now

/-- The sender does not repeat the first frame of a message for which it does not wait. -/
lemma settled_of_given {step : OrderedStep} {task : EngineStep}
    (h : SenderEngine config target since station.engine)
    (there : fleet.stations.get? source = some station) (haccepts : step.AcceptsAll)
    (hunique : ((fleet.step step).sendsOf source id).length ≤ 1)
    (hposted : ∃ target fields, Posted fleet.toLedger source target (some id) fields)
    (hsettled : Settled station.engine.store.connections[(⟨target, id, .sender⟩ : ConnectionKey)]?)
    (hgiven : Given fleet source station step task) :
    Settled (({ engine := station.engine } : History).step task).engine.store.connections[
        (⟨target, id, .sender⟩ : ConnectionKey)]? ∧
      ∀ bytes ∈ sentTo target (({ engine := station.engine } : History).step task).effects,
        synId? bytes ≠ some id := by
  have hw := h.own.filed
  cases hgiven with
  | send peer fields delivery accepts =>
    obtain ⟨hsame, hnone⟩ := (send_move ⟨station.now, accepts⟩ hw peer fields delivery).aside
      hw.connection haccepts fun _ => send_result_ne hunique hposted there
    refine ⟨?_, fun bytes hmem => synId?_of_mem_sentTo hnone hmem⟩
    have hafter : Settled (station.engine.send ⟨station.now, accepts⟩ peer fields
        delivery).1.store.connections[(⟨target, id, .sender⟩ : ConnectionKey)]? := by
      rwa [hsame]
    exact hafter
  | @arrive origin bytes rest link accepts =>
    obtain ⟨hafter, hnone⟩ := hsettled.change (@ReceiveMove.senderChange _ _ _ _ _ target id _ _
      hw.connection h.senders (receive_move ⟨station.now, accepts⟩ hw origin bytes))
    exact ⟨hafter, fun bytes hmem => synId?_of_mem_sentTo hnone hmem⟩
  | timeoutSweep accepts =>
    obtain ⟨hafter, hnone⟩ := timeoutSweep_settled h ⟨station.now, accepts⟩ hsettled
    exact ⟨hafter, fun bytes hmem => synId?_of_mem_sentTo hnone hmem⟩
  | deleteSweep => exact ⟨hsettled, fun bytes hmem => absurd hmem List.not_mem_nil⟩

lemma closing_of_given {step : OrderedStep} {task : EngineStep}
    (hw : WellFiled station.engine.store) (hgiven : Given fleet source station step task)
    {bytes : Bytes} {frame : Frame}
    (hmem : bytes ∈ sentTo target (({ engine := station.engine } : History).step task).effects)
    (hr : Reads bytes .synAckSuccess id frame) :
    Settled (({ engine := station.engine } : History).step task).engine.store.connections[
        (⟨target, id, .sender⟩ : ConnectionKey)]? ∧
      ∀ other ∈ sentTo target (({ engine := station.engine } : History).step task).effects,
        synId? other ≠ some id := by
  have hsent := mem_sentTo.1 hmem
  obtain ⟨origin, datagram, rest, accepts, -, -, rfl⟩ := arrive_of_control hw hgiven hsent hr rfl
  obtain ⟨-, hsettled, hnone⟩ := (receive_move _ hw _ _).closes hw.connection hsent hr
  exact ⟨hsettled, fun other hother => synId?_of_mem_sentTo hnone hother⟩

end Tasks

/-- Nobody waits for the message at its sender, and these frames do not repeat it. -/
structure IsOver (source target : Address) (id : UInt32) (fleet : OrderedFleet)
    (frames : List Bytes) : Prop where
  settled : ∀ station, fleet.stations.get? source = some station →
    Settled station.engine.store.connections[(⟨target, id, .sender⟩ : ConnectionKey)]?
  silent : ∀ bytes ∈ frames, synId? bytes ≠ some id

/-- The message was delivered and will not be delivered again: its receiver remembers it, or there is
nothing left that could repeat it. -/
structure IsDelivered (config : Config) (source target : Address) (id : UInt32)
    (fleet : OrderedFleet) : Prop where
  once : fleet.deliveries source target id = 1
  sender : ∃ station, fleet.stations.get? source = some station ∧
    SenderEngine config target 0 station.engine
  held : fleet.Remembers source target id ∨
    IsOver source target id fleet (fleet.link source target)
  /-- By what tells the receiver to forget the message, it is over. -/
  closing : ∀ before bytes later, fleet.link source target = before ++ bytes :: later →
    ∀ frame, Reads bytes .synAckSuccess id frame → IsOver source target id fleet later

lemma split_append {α : Type} {front back before later : List α} {entry : α}
    (h : front ++ back = before ++ entry :: later) :
    (∃ rest, front = before ++ entry :: rest ∧ later = rest ++ back) ∨
      ∃ earlier, back = earlier ++ entry :: later := by
  rcases List.append_eq_append_iff.1 h with ⟨more, -, hmore⟩ | ⟨more, hfront, hmore⟩
  · exact Or.inr ⟨more, hmore⟩
  · cases more with
    | nil => exact Or.inr ⟨[], hmore.symm⟩
    | cons first rest =>
      cases hmore
      exact Or.inl ⟨rest, hfront, rfl⟩

section Delivered

variable {fleet after : OrderedFleet} {source target : Address} {id : UInt32} {config : Config}

lemma deliveries_acts {queue : List Datagram} {host : Address} {station : Station}
    {task : EngineStep} (acts : Acts fleet queue host station task after) :
    after.deliveries source target id = fleet.deliveries source target id +
      if host = target then
        (({ engine := station.engine } : History).step task).effects.countP (delivers source id)
      else 0 := by
  rw [← deliveries_update host station]
  unfold Fleet.deliveries
  rw [acts.arrivals]
  rfl

lemma posted_of_deliveries (hs : SoundFleet fleet.toFleet)
    (h : 0 < fleet.deliveries source target id) :
    ∃ fields, Posted fleet.toLedger source target (some id) fields := by
  obtain ⟨arrival, hmem, harrival⟩ := List.countP_pos_iff.1 h
  rw [decide_eq_true_eq] at harrival
  obtain ⟨htarget, hsource, hid⟩ := harrival
  have hposted := hs.arrivals arrival hmem
  rw [hsource, htarget, hid] at hposted
  exact ⟨_, hposted⟩

lemma IsOver.congr {frames rest : List Bytes}
    (hstation : (after.stations.get? source).map Station.engine =
      (fleet.stations.get? source).map Station.engine)
    (hrest : ∀ bytes ∈ rest, bytes ∈ frames) (h : IsOver source target id fleet frames) :
    IsOver source target id after rest := by
  refine ⟨fun station there => ?_, fun bytes hmem => h.silent bytes (hrest bytes hmem)⟩
  rw [there] at hstation
  obtain ⟨earlier, hearlier, hsame⟩ := Option.map_eq_some_iff.1 hstation.symm
  rw [← hsame]
  exact h.settled earlier hearlier

/-- Nothing changes at the sender, and the row from there gets shorter at its front. -/
lemma IsDelivered.congr (h : IsDelivered config source target id fleet)
    (hsource : (after.stations.get? source).map Station.engine =
      (fleet.stations.get? source).map Station.engine)
    (hdeliveries : after.deliveries source target id = fleet.deliveries source target id)
    {gone : List Bytes} (hlink : fleet.link source target = gone ++ after.link source target)
    (hheld : fleet.Remembers source target id → after.Remembers source target id ∨
      IsOver source target id after (after.link source target)) :
    IsDelivered config source target id after := by
  refine ⟨hdeliveries.trans h.once, ?_, ?_, ?_⟩
  · obtain ⟨station, there, hengine⟩ := h.sender
    rw [there] at hsource
    obtain ⟨other, hother, hsame⟩ := Option.map_eq_some_iff.1 hsource
    exact ⟨other, hother, hsame ▸ hengine⟩
  · rcases h.held with hremembers | hover
    · exact hheld hremembers
    · refine Or.inr (hover.congr hsource fun bytes hmem => ?_)
      rw [hlink]
      exact List.mem_append_right _ hmem
  · intro before bytes later hsplit frame hr
    refine (h.closing (gone ++ before) bytes later ?_ frame hr).congr hsource fun _ hmem => hmem
    rw [hlink, hsplit, List.append_assoc]

lemma IsDelivered.actsSource (hne : source ≠ target) (ho : IsOrderly fleet)
    (h : IsDelivered config source target id fleet) {step : OrderedStep}
    (haccepts : step.AcceptsAll) (hunique : ((fleet.step step).sendsOf source id).length ≤ 1)
    {station : Station} {task : EngineStep}
    (given : fleet.task? step = some (source, station, task))
    (acts : Acts fleet (fleet.remaining step) source station task after) :
    IsDelivered config source target id after := by
  have hgiven := given_of_task? given
  have there := (acts.stations source).trans (if_pos rfl)
  have hlink : after.link source target = fleet.link source target ++
      sentTo target (({ engine := station.engine } : History).step task).effects := by
    rw [acts.link_own, linkOf_remaining_of_ne hgiven hne]
  obtain ⟨earlier, hearlier, hengine⟩ := h.sender
  cases hearlier.symm.trans acts.there
  have hposted := posted_of_deliveries ho.sound (by rw [h.once]; exact Nat.one_pos)
  have hsettled : ∀ {frames : List Bytes}, IsOver source target id fleet frames →
      ∀ {rest : List Bytes}, (∀ bytes ∈ rest, bytes ∈ frames ∨ bytes ∈ sentTo target
        (({ engine := station.engine } : History).step task).effects) →
          IsOver source target id after rest := by
    intro frames hover rest hrest
    obtain ⟨hafter, hsilent⟩ := settled_of_given hengine acts.there haccepts hunique ⟨target, hposted⟩
      (hover.settled station acts.there) hgiven
    refine ⟨fun found hfound => ?_, fun bytes hmem => ?_⟩
    · cases there.symm.trans hfound
      exact hafter
    · rcases hrest bytes hmem with hold | hnew
      · exact hover.silent bytes hold
      · exact hsilent bytes hnew
  refine ⟨?_, ⟨_, there, senderEngine_of_given hengine (Nat.zero_le _) hgiven⟩, ?_, ?_⟩
  · rw [deliveries_acts acts, if_neg hne, h.once]
  · rcases h.held with ⟨receiver, hreceiver, hholds⟩ | hover
    · exact Or.inl ⟨receiver, ((acts.stations target).trans (if_neg hne)).trans hreceiver, hholds⟩
    · refine Or.inr (hsettled hover fun bytes hmem => ?_)
      rw [hlink] at hmem
      exact List.mem_append.1 hmem
  · intro before bytes later hsplit frame hr
    rw [hlink] at hsplit
    rcases split_append hsplit with ⟨rest, hold, rfl⟩ | ⟨earlier, hnew⟩
    · refine hsettled (h.closing before bytes rest hold frame hr) fun other hother => ?_
      exact List.mem_append.1 hother
    · have hbytes : bytes ∈ sentTo target
          (({ engine := station.engine } : History).step task).effects := by
        rw [hnew]
        simp
      obtain ⟨hafter, hsilent⟩ := closing_of_given hengine.own.filed hgiven hbytes hr
      refine ⟨fun found hfound => ?_, fun other hother => hsilent other ?_⟩
      · cases there.symm.trans hfound
        exact hafter
      · rw [hnew]
        exact List.mem_append_right _ (List.mem_cons_of_mem _ hother)

lemma IsDelivered.actsTarget (hne : source ≠ target) (ho : IsOrderly fleet)
    (h : IsDelivered config source target id fleet) {step : OrderedStep}
    (haccepts : step.AcceptsAll) (hreceiver : ∀ accepts, step ≠ .timeoutSweep target accepts)
    {station : Station} {task : EngineStep}
    (given : fleet.task? step = some (target, station, task))
    (acts : Acts fleet (fleet.remaining step) target station task after) :
    IsDelivered config source target id after := by
  have hgiven := given_of_task? given
  have there := (acts.stations target).trans (if_pos rfl)
  have hsource := (acts.stations source).trans (if_neg hne.symm)
  have hw := (ho.own target station acts.there).filed
  have hlink := acts.link_of_ne hne.symm target
  have hdeliveries := @deliveries_acts _ _ source target id _ _ _ _ acts
  rw [if_pos rfl] at hdeliveries
  have hremembers : AcceptedIn (({ engine := station.engine } :
      History).step task).engine.store.connections source id → after.Remembers source target id :=
    fun haccepted => ⟨_, there, (holdsAccepted_iff
      ((ho.own target station acts.there).step task).filed source id).2 haccepted⟩
  have hholds : fleet.Remembers source target id →
      AcceptedIn station.engine.store.connections source id := by
    rintro ⟨found, hfound, hholds⟩
    cases acts.there.symm.trans hfound
    exact (holdsAccepted_iff hw source id).1 hholds
  cases hgiven with
  | send peer fields delivery accepts =>
    have hsame : fleet.link source target = [] ++ after.link source target := hlink.symm
    refine h.congr (congrArg _ hsource) (hdeliveries.trans ?_) hsame fun hheld => ?_
    · exact congrArg _ (countP_delivers_send ⟨station.now, accepts⟩ hw peer fields delivery)
    · exact Or.inl (hremembers
        ((send_move ⟨station.now, accepts⟩ hw peer fields delivery).acceptedIn hw.connection
          (hholds hheld)))
  | timeoutSweep accepts => exact absurd rfl (hreceiver accepts)
  | deleteSweep =>
    have hsame : fleet.link source target = [] ++ after.link source target := hlink.symm
    exact h.congr (congrArg _ hsource) hdeliveries hsame
      fun hheld => Or.inl (hremembers (hholds hheld))
  | @arrive origin bytes rest horigin accepts =>
    have hmove := receive_move ⟨station.now, accepts⟩ hw origin bytes
    have hrow : ∃ gone, fleet.link source target = gone ++ after.link source target ∧
        (origin = source → gone = [bytes]) := by
      by_cases hsame : origin = source
      · subst hsame
        rw [linkOf_remaining_arrive horigin] at hlink
        exact ⟨[bytes], by rw [hlink, horigin]; rfl, fun _ => rfl⟩
      · rw [linkOf_remaining (given_of_task? given) (by
          rintro _ hstep
          cases hstep
          exact hsame rfl)] at hlink
        exact ⟨[], hlink.symm, fun heq => absurd heq hsame⟩
    obtain ⟨gone, hgone, hfirst⟩ := hrow
    refine h.congr (congrArg _ hsource) (hdeliveries.trans ?_) hgone fun hheld => ?_
    · refine congrArg _ (countP_delivers_receive ⟨station.now, accepts⟩ hw ?_)
      rintro ⟨rfl, ⟨frame, hr, -⟩, hnew⟩
      rcases h.held with ⟨found, hfound, hfoundHolds⟩ | hover
      · cases acts.there.symm.trans hfound
        exact hnew hfoundHolds
      · refine hover.silent bytes ?_ (synId?_of_reads hr)
        rw [hgone, hfirst rfl]
        exact List.mem_cons_self
    · by_cases hclosing : origin = source ∧ ∃ frame, Reads bytes .synAckSuccess id frame
      · obtain ⟨rfl, frame, hr⟩ := hclosing
        rw [hfirst rfl] at hgone
        exact Or.inr ((h.closing [] bytes _ hgone frame hr).congr (congrArg _ hsource)
          fun _ hmem => hmem)
      · exact Or.inl (hremembers (hmove.acceptedIn hw.connection haccepts
          (fun horigin frame hr => hclosing ⟨horigin, frame, hr⟩) (hholds hheld)))

lemma remembers_congr
    (hengine : (after.stations.get? target).map Station.engine =
      (fleet.stations.get? target).map Station.engine)
    (h : fleet.Remembers source target id) : after.Remembers source target id := by
  obtain ⟨station, there, hholds⟩ := h
  rw [there] at hengine
  obtain ⟨other, hother, hsame⟩ := Option.map_eq_some_iff.1 hengine
  exact ⟨other, hother, hsame ▸ hholds⟩

/-- A message that was delivered stays delivered once, as long as its receiver is not swept. -/
lemma IsDelivered.next (hne : source ≠ target) (ho : IsOrderly fleet)
    (h : IsDelivered config source target id fleet) {step : OrderedStep}
    (haccepts : step.AcceptsAll) (hreceiver : ∀ accepts, step ≠ .timeoutSweep target accepts)
    (hunique : ((fleet.step step).sendsOf source id).length ≤ 1) :
    IsDelivered config source target id (fleet.step step) := by
  have hmove := ordered_move ho.transit step
  generalize hafter : fleet.step step = after at hmove ⊢
  cases hmove with
  | unchanged idle => exact h
  | @waited host station there duration is =>
    have hengine := map_engine_waited there duration
    have hsame : fleet.link source target = [] ++ fleet.link source target := rfl
    exact h.congr (hengine source) rfl hsame fun hheld =>
      Or.inl (remembers_congr (hengine target) hheld)
  | @lost origin goal bytes rest hlink is =>
    by_cases hends : origin = source ∧ goal = target
    · obtain ⟨rfl, rfl⟩ := hends
      have hrest : fleet.link origin goal =
          [bytes] ++ linkOf origin goal (fleet.queue.erase ⟨origin, goal, bytes⟩) := by
        rw [linkOf_erase hlink, hlink]
        rfl
      exact h.congr rfl rfl hrest Or.inl
    · have hrest : fleet.link source target =
          [] ++ linkOf source target (fleet.queue.erase ⟨origin, goal, bytes⟩) := by
        rw [linkOf_erase_of_ne hends]
        rfl
      exact h.congr rfl rfl hrest Or.inl
  | @acted host station task _ given acts =>
    by_cases hsource : host = source
    · subst hsource
      rw [← hafter] at acts ⊢
      exact h.actsSource hne ho haccepts hunique given acts
    · by_cases htarget : host = target
      · subst htarget
        exact h.actsTarget hne ho haccepts hreceiver given acts
      · have hrest : fleet.link source target = [] ++ after.link source target := by
          rw [acts.link_of_ne hsource, linkOf_remaining_of_ne (given_of_task? given) htarget,
            List.nil_append]
        have hdeliveries := @deliveries_acts _ _ source target id _ _ _ _ acts
        rw [if_neg htarget] at hdeliveries
        refine h.congr (congrArg _ ((acts.stations source).trans (if_neg hsource))) hdeliveries hrest
          fun hheld => Or.inl (remembers_congr ?_ hheld)
        exact congrArg _ ((acts.stations target).trans (if_neg htarget))

end Delivered

end OrderedFleet

end ReliableDatagrams.Proofs
