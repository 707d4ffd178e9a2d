import Mathlib.Data.List.Induction
import ReliableDatagrams.Proofs.Answers
import ReliableDatagrams.Proofs.FleetSoundness

/-!
# When a message is delivered again

A receiver delivers a message of a handshake when a fresh first frame finds no record that has
accepted it before. The record does not stay: it is removed when the handshake is closed, and when it
was idle for its timeout. A copy of the first frame with a fresh timestamp that comes later, because
it was repeated by the sender, is then delivered again. Nothing else ever leads to a second delivery.
-/

namespace ReliableDatagrams.Proofs

/-- An effect delivers the message with an id from an address. -/
def delivers (source : Address) (id : UInt32) : Effect → Bool
  | .delivered message => message.source = source ∧ message.id = some id
  | .sent _ _ _ => false

/-- The record of a message that the engine has accepted. -/
def HoldsAccepted (engine : Engine) (source : Address) (id : UInt32) : Prop :=
  ∃ connection, engine.store.connection? ⟨source, id, .receiver⟩ = some connection ∧
    .synAckSent ≤ connection.status

/-- A datagram is a fresh first frame, and the engine holds no record that has accepted it. -/
def AcceptsAnew (engine : Engine) (source : Address) (datagram : Bytes) (id : UInt32) : Prop :=
  (∃ frame, Reads datagram .syn id frame ∧ isFreshFrom engine source frame.timestamp = true) ∧
    ¬ HoldsAccepted engine source id

section Engines

variable {engine : Engine} (occasion : Occasion) {source : Address} {datagram : Bytes} {id : UInt32}

/-- Without a record that has accepted the message, the one that is filed still waits for it. -/
lemma waiting_of_not_holdsAccepted (hw : WellFiled engine.store)
    (h : ¬ HoldsAccepted engine source id) (connection : ConnectionRecord)
    (hconnection : engine.store.connections[(⟨source, id, .receiver⟩ : ConnectionKey)]? =
      some connection) : ¬ .synAckSent ≤ connection.status := by
  intro hopen
  rw [← connection?_eq hw] at hconnection
  exact h ⟨connection, hconnection, hopen⟩

lemma receive_of_acceptsAnew (hw : WellFiled engine.store)
    (h : AcceptsAnew engine source datagram id) :
    (∃ connection : ConnectionRecord, connection.key = ⟨source, id, .receiver⟩ ∧
        connection.status = .synAckSent ∧
        (engine.receive occasion source datagram).1.store.connections =
          afterTransmit engine.store.connections connection (encodeControl .synSuccess id)
            (occasion.accepts source (encodeControl .synSuccess id))) ∧
      (engine.receive occasion source datagram).2.countP (delivers source id) = 1 := by
  obtain ⟨⟨frame, hreads, hfresh⟩, hnew⟩ := h
  rw [isFreshFrom_eq] at hfresh
  obtain ⟨hopened, heffects, -⟩ := receive_syn occasion hw hreads
    (waiting_of_not_holdsAccepted hw hnew) hfresh
  refine ⟨hopened, ?_⟩
  rw [heffects]
  simp [delivers]

lemma not_holdsAccepted_of_waiting (hw : WellFiled engine.store) {record : ConnectionRecord}
    (hrecord : IsFiledOrNew engine.store ⟨source, id, .receiver⟩ record)
    (hwaiting : ¬ .synAckSent ≤ record.status) : ¬ HoldsAccepted engine source id := by
  rintro ⟨connection, hconnection, hopen⟩
  rw [connection?_eq hw] at hconnection
  rcases hrecord with hfiled | ⟨hnone, -⟩
  · rw [hfiled] at hconnection
    cases hconnection
    exact hwaiting hopen
  · rw [hnone] at hconnection
    cases hconnection

lemma countP_delivers_receive (hw : WellFiled engine.store) {peer : Address}
    (h : ¬ (peer = source ∧ AcceptsAnew engine source datagram id)) :
    (engine.receive occasion peer datagram).2.countP (delivers source id) = 0 := by
  have hmove := receive_move occasion hw peer datagram
  generalize (engine.receive occasion peer datagram).1 = after at hmove
  generalize (engine.receive occasion peer datagram).2 = effects at hmove ⊢
  cases hmove with
  | plain decoded kind fresh same => simp [delivers]
  | accepted reads record waiting fresh filed =>
    rw [List.countP_eq_zero]
    intro effect heffect hdelivers
    rcases List.mem_pair.1 heffect with rfl | rfl
    · simp [delivers] at hdelivers
    · simp only [delivers, decide_eq_true_eq, Option.some.injEq] at hdelivers
      obtain ⟨rfl, rfl⟩ := hdelivers
      exact h ⟨rfl, ⟨_, reads, fresh⟩, not_holdsAccepted_of_waiting hw record waiting⟩
  | retried reads record retry => cases retry <;> rfl
  | _ => rfl

lemma countP_delivers_send (hw : WellFiled engine.store) (target : Address) (fields : FieldMap)
    (delivery : Delivery) :
    (engine.send occasion target fields delivery).2.1.countP (delivers source id) = 0 := by
  have hmove := send_move occasion hw target fields delivery
  generalize (engine.send occasion target fields delivery).1 = after at hmove
  generalize (engine.send occasion target fields delivery).2.2 = result at hmove
  generalize (engine.send occasion target fields delivery).2.1 = effects at hmove ⊢
  cases hmove <;> rfl

lemma countP_delivers_timeoutSweep (hw : WellFiled engine.store) :
    (engine.timeoutSweep occasion).2.countP (delivers source id) = 0 := by
  obtain ⟨-, heffects⟩ := @timeoutSweep_induction engine occasion (fun _ => True)
    (fun effect => delivers source id effect = false) (by
      intro engine after effects _ hmove _
      refine ⟨trivial, ?_⟩
      intro effect heffect
      cases hmove with
      | kept same => cases heffect
      | expired filed => cases heffect
      | retried record retry =>
        cases retry with
        | repeated role status buffered written bound filed =>
          rw [List.mem_singleton.1 heffect]
          rfl
        | givenUp filed => cases heffect) hw trivial
  rw [List.countP_eq_zero]
  intro effect heffect hdelivers
  rw [heffects effect heffect] at hdelivers
  cases hdelivers

end Engines

/-- How often the target has delivered the message with an id from the source. -/
def Fleet.deliveries (fleet : Fleet) (source target : Address) (id : UInt32) : Nat :=
  fleet.arrivals.countP fun arrival => arrival.target = target ∧ arrival.message.source = source ∧
    arrival.message.id = some id

/-- The target holds the record of a message that it has accepted. -/
def Fleet.Remembers (fleet : Fleet) (source target : Address) (id : UInt32) : Prop :=
  ∃ station, fleet.stations.get? target = some station ∧ HoldsAccepted station.engine source id

/-- A fresh copy of the first frame arrives at the target, which does not hold the record of the
message. -/
def Fleet.AcceptsAnew (fleet : Fleet) (datagram : Datagram) (source target : Address)
    (id : UInt32) : Prop :=
  datagram ∈ fleet.wire ∧ datagram.source = source ∧ datagram.target = target ∧
    ∃ station, fleet.stations.get? target = some station ∧
      Proofs.AcceptsAnew station.engine source datagram.bytes id

def FleetStep.AcceptsAll : FleetStep → Prop
  | .send _ _ _ _ accepts | .receive _ accepts | .timeoutSweep _ accepts =>
    ∀ target bytes, accepts target bytes = true
  | .deleteSweep _ | .wait _ _ => True

section Fleets

variable {fleet : Fleet} {source target : Address} {id : UInt32}

lemma deliveries_update (host : Address) (station : Station) (effects : List Effect) :
    (fleet.update host station effects).deliveries source target id =
      fleet.deliveries source target id +
        if host = target then effects.countP (delivers source id) else 0 := by
  have hcount : (effects.filterMap (arrivalOf? host)).countP (fun arrival =>
      decide (arrival.target = target ∧ arrival.message.source = source ∧
        arrival.message.id = some id)) =
      if host = target then effects.countP (delivers source id) else 0 := by
    rw [List.countP_filterMap]
    split
    · rename_i hhost
      congr 1
      funext effect
      cases effect <;> simp [arrivalOf?, delivers, hhost]
    · rename_i hhost
      rw [List.countP_eq_zero]
      intro effect _
      cases effect <;> simp [arrivalOf?, hhost]
  unfold Fleet.deliveries Fleet.update Ledger.hear
  rw [List.countP_append, hcount]

lemma deliveries_runTask (host : Address) (station : Station) (task : EngineTask)
    (accepts : Address → Bytes → Bool) :
    (fleet.runTask host station task accepts).deliveries source target id =
      fleet.deliveries source target id + if host = target then
        (station.engine.run ⟨station.now, accepts⟩ task).2.countP (delivers source id) else 0 :=
  deliveries_update host _ _

lemma deliveries_step_of_acceptsAnew (hs : SoundFleet fleet) {datagram : Datagram}
    (accepts : Address → Bytes → Bool) (h : fleet.AcceptsAnew datagram source target id) :
    (fleet.step (.receive datagram accepts)).deliveries source target id =
      fleet.deliveries source target id + 1 := by
  obtain ⟨hwire, rfl, rfl, station, hthere, hanew⟩ := h
  rw [Fleet.step, if_pos hwire, hthere, Option.elim_some, deliveries_runTask, if_pos rfl,
    Engine.run, (receive_of_acceptsAnew _ (hs.filed _ _ hthere) hanew).2]

lemma deliveries_elim {host : Address} {act : Station → Fleet}
    (h : ∀ station, fleet.stations.get? host = some station →
      (act station).deliveries source target id = fleet.deliveries source target id) :
    ((fleet.stations.get? host).elim fleet act).deliveries source target id =
      fleet.deliveries source target id := by
  cases hthere : fleet.stations.get? host with
  | none => rfl
  | some station => exact h station hthere

lemma deliveries_step (hs : SoundFleet fleet) (step : FleetStep)
    (h : ∀ datagram accepts, step = .receive datagram accepts →
      ¬ fleet.AcceptsAnew datagram source target id) :
    (fleet.step step).deliveries source target id = fleet.deliveries source target id := by
  cases step with
  | send host peer fields delivery accepts =>
    apply deliveries_elim
    intro station hthere
    have hnone := @countP_delivers_send _ ⟨station.now, accepts⟩ source id
      (hs.filed _ _ hthere) peer fields delivery
    have hupdate := @deliveries_update fleet source target id host
      { station with
        engine := (station.engine.send ⟨station.now, accepts⟩ peer fields delivery).1 }
      (station.engine.send ⟨station.now, accepts⟩ peer fields delivery).2.1
    rw [hnone, ite_self, Nat.add_zero] at hupdate
    exact hupdate
  | receive datagram accepts =>
    unfold Fleet.step
    dsimp only
    split
    · rename_i hwire
      apply deliveries_elim
      intro station hthere
      rw [deliveries_runTask]
      split
      · rename_i htarget
        subst htarget
        rw [Engine.run, countP_delivers_receive _ (hs.filed _ _ hthere), Nat.add_zero]
        rintro ⟨rfl, hanew⟩
        exact h datagram accepts rfl ⟨hwire, rfl, rfl, station, hthere, hanew⟩
      · rfl
    · rfl
  | timeoutSweep host accepts =>
    apply deliveries_elim
    intro station hthere
    rw [deliveries_runTask, Engine.run, countP_delivers_timeoutSweep _ (hs.filed _ _ hthere),
      ite_self, Nat.add_zero]
  | deleteSweep host =>
    apply deliveries_elim
    intro station hthere
    rw [deliveries_runTask, Engine.run, List.countP_nil, ite_self, Nat.add_zero]
  | wait host duration =>
    apply deliveries_elim
    intro station hthere
    rw [deliveries_update, List.countP_nil, ite_self, Nat.add_zero]

/-- A step that delivers a message accepts it anew, and delivers it once. -/
lemma deliveries_step_cases (hs : SoundFleet fleet) (source target : Address) (id : UInt32)
    (step : FleetStep) :
    (fleet.step step).deliveries source target id = fleet.deliveries source target id ∨
      ∃ datagram accepts, step = .receive datagram accepts ∧
        fleet.AcceptsAnew datagram source target id ∧
        (fleet.step step).deliveries source target id =
          fleet.deliveries source target id + 1 := by
  by_cases hanew : ∃ datagram accepts, step = .receive datagram accepts ∧
      fleet.AcceptsAnew datagram source target id
  · obtain ⟨datagram, accepts, rfl, hanew⟩ := hanew
    exact Or.inr ⟨datagram, accepts, rfl, hanew, deliveries_step_of_acceptsAnew hs accepts hanew⟩
  · exact Or.inl (deliveries_step hs step fun datagram accepts hstep h =>
      hanew ⟨datagram, accepts, hstep, h⟩)

lemma deliveries_pos_of_remembers (hs : SoundFleet fleet)
    (h : fleet.Remembers source target id) : 0 < fleet.deliveries source target id := by
  obtain ⟨station, hthere, connection, hconnection, hstatus⟩ := h
  rw [connection?_eq (hs.filed _ _ hthere)] at hconnection
  have hkey := ((hs.filed _ _ hthere).connection _ _ hconnection).1
  have hheard := (hs.records _ _ hthere _ _ hconnection).accepted (by rw [hkey]) hstatus
  rw [hkey] at hheard
  obtain ⟨fields, harrival⟩ := hheard
  exact List.countP_pos_iff.2 ⟨_, harrival, by simp⟩

lemma remembers_of_acceptsAnew (hs : SoundFleet fleet) {datagram : Datagram}
    {accepts : Address → Bytes → Bool} (haccepts : ∀ target bytes, accepts target bytes = true)
    (h : fleet.AcceptsAnew datagram source target id) :
    (fleet.step (.receive datagram accepts)).Remembers source target id := by
  obtain ⟨hwire, rfl, rfl, station, hthere, hanew⟩ := h
  have hw := hs.filed _ _ hthere
  obtain ⟨⟨connection, hkey, hstatus, hconnections⟩, -⟩ :=
    receive_of_acceptsAnew ⟨station.now, accepts⟩ hw hanew
  have hafter := hw.receive ⟨station.now, accepts⟩ datagram.source datagram.bytes
  simp only [haccepts] at hconnections
  have hopen : HoldsAccepted
      (station.engine.receive ⟨station.now, accepts⟩ datagram.source datagram.bytes).1
      datagram.source id := by
    refine ⟨{ connection with lastSent := some (encodeControl .synSuccess id) }, ?_, ?_⟩
    · rw [connection?_eq hafter, hconnections, ← hkey]
      exact Std.ExtTreeMap.getElem?_insert_self
    · rw [hstatus]
      decide
  rw [Fleet.step, if_pos hwire, hthere, Option.elim_some]
  exact ⟨_, (Table.get?_insert _ _ _ _).trans (if_pos rfl), hopen⟩

lemma run_snoc (fleet : Fleet) (steps : List FleetStep) (step : FleetStep) :
    fleet.run (steps ++ [step]) = (fleet.run steps).step step := by
  rw [run_append]
  rfl

lemma soundFleet_run (specs : List HostSpec) (steps : List FleetStep) :
    SoundFleet ((Fleet.ofSpecs specs).run steps) :=
  (sound_and_counts_run specs steps).1

lemma remembers_of_deliveries_pos (specs : List HostSpec) (steps : List FleetStep)
    (hsockets : ∀ step ∈ steps, step.AcceptsAll)
    (h : 0 < ((Fleet.ofSpecs specs).run steps).deliveries source target id) :
    ∃ before between, steps = before ++ between ∧
      ((Fleet.ofSpecs specs).run before).Remembers source target id := by
  induction steps using List.reverseRecOn with
  | nil => simp [Fleet.run, Fleet.ofSpecs, Fleet.deliveries] at h
  | append_singleton steps step ih =>
    rw [run_snoc] at h
    rcases deliveries_step_cases (soundFleet_run specs steps) source target id step with
      hsame | ⟨datagram, accepts, rfl, hanew, -⟩
    · rw [hsame] at h
      obtain ⟨before, between, hsteps, hremembers⟩ := ih (fun other hother =>
        hsockets other (List.mem_append_left _ hother)) h
      exact ⟨before, between ++ [step], by rw [hsteps, List.append_assoc], hremembers⟩
    · have haccepts := hsockets _ (List.mem_append_right _ (List.mem_singleton_self _))
      refine ⟨steps ++ [.receive datagram accepts], [], (List.append_nil _).symm, ?_⟩
      rw [run_snoc]
      exact remembers_of_acceptsAnew (soundFleet_run specs steps) haccepts hanew

lemma acceptsAnew_of_deliveries (specs : List HostSpec) (steps : List FleetStep)
    (hsockets : ∀ step ∈ steps, step.AcceptsAll)
    (h : 1 < ((Fleet.ofSpecs specs).run steps).deliveries source target id) :
    ∃ before between after datagram accepts,
      steps = before ++ between ++ .receive datagram accepts :: after ∧
        ((Fleet.ofSpecs specs).run before).Remembers source target id ∧
        ((Fleet.ofSpecs specs).run (before ++ between)).AcceptsAnew datagram source target id := by
  induction steps using List.reverseRecOn with
  | nil => simp [Fleet.run, Fleet.ofSpecs, Fleet.deliveries] at h
  | append_singleton steps step ih =>
    have hearlier : ∀ other ∈ steps, other.AcceptsAll := fun other hother =>
      hsockets other (List.mem_append_left _ hother)
    rw [run_snoc] at h
    rcases deliveries_step_cases (soundFleet_run specs steps) source target id step with
      hsame | ⟨datagram, accepts, rfl, hanew, hmore⟩
    · rw [hsame] at h
      obtain ⟨before, between, after, datagram, accepts, rfl, hremembers, hanew⟩ := ih hearlier h
      exact ⟨before, between, after ++ [step], datagram, accepts, by simp, hremembers, hanew⟩
    · have hpos : 0 < ((Fleet.ofSpecs specs).run steps).deliveries source target id := by omega
      obtain ⟨before, between, rfl, hremembers⟩ :=
        remembers_of_deliveries_pos specs steps hearlier hpos
      exact ⟨before, between, [], datagram, accepts, rfl, hremembers, hanew⟩

lemma deliveries_mono (specs : List HostSpec) (before after : List FleetStep) :
    ((Fleet.ofSpecs specs).run before).deliveries source target id ≤
      ((Fleet.ofSpecs specs).run (before ++ after)).deliveries source target id := by
  induction after using List.reverseRecOn with
  | nil => exact Nat.le_of_eq (by rw [List.append_nil])
  | append_singleton after step ih =>
    rw [← List.append_assoc, run_snoc]
    rcases deliveries_step_cases (soundFleet_run specs (before ++ after)) source target id step with
      hsame | ⟨datagram, accepts, -, -, hmore⟩
    · omega
    · omega

/-- With sockets that accept everything, a message is delivered at most once exactly if no fresh copy
of its first frame arrives after its receiver has forgotten that it accepted one. -/
theorem delivered_at_most_once_iff (specs : List HostSpec) (steps : List FleetStep)
    (hsockets : ∀ step ∈ steps, step.AcceptsAll) (source target : Address) (id : UInt32) :
    ((Fleet.ofSpecs specs).run steps).deliveries source target id ≤ 1 ↔
      ¬ ∃ before between after datagram accepts,
        steps = before ++ between ++ .receive datagram accepts :: after ∧
          ((Fleet.ofSpecs specs).run before).Remembers source target id ∧
          ((Fleet.ofSpecs specs).run (before ++ between)).AcceptsAnew datagram source target id := by
  constructor
  · rintro honce ⟨before, between, after, datagram, accepts, rfl, hremembers, hanew⟩
    have hfirst := deliveries_pos_of_remembers (soundFleet_run specs before) hremembers
    have hstill := @deliveries_mono source target id specs before between
    have hsecond :=
      deliveries_step_of_acceptsAnew (soundFleet_run specs (before ++ between)) accepts hanew
    have hlater := @deliveries_mono source target id specs
      (before ++ between ++ [.receive datagram accepts]) after
    rw [run_snoc, List.append_assoc, List.singleton_append] at hlater
    omega
  · intro hnever
    by_contra htwice
    exact hnever (acceptsAnew_of_deliveries specs steps hsockets (by omega))

end Fleets

/-- The network repeats a first frame while its receiver remembers the handshake. -/
theorem delivered_at_most_once_iff_repeated :
    let near : Address := .loopback 9001
    let far : Address := .loopback 9002
    let accepts : Address → Bytes → Bool := fun _ _ => true
    let syn : Datagram := ⟨near, far, [1, 1, 0, 0, 0, 0, 0, 0, 0, 0, 0]⟩
    let specs : List HostSpec :=
      [{ config := { selfAddress := near } }, { config := { selfAddress := far } }]
    let steps : List FleetStep :=
      [.send near far {} .reliable accepts, .receive syn accepts, .receive syn accepts]
    (∀ step ∈ steps, step.AcceptsAll) ∧
      ((Fleet.ofSpecs specs).run steps).deliveries near far 1 = 1 ∧
      ¬ ∃ before between after datagram accepts,
        steps = before ++ between ++ .receive datagram accepts :: after ∧
          ((Fleet.ofSpecs specs).run before).Remembers near far 1 ∧
          ((Fleet.ofSpecs specs).run (before ++ between)).AcceptsAnew datagram near far 1 := by
  intro near far accepts syn specs steps
  have hsockets : ∀ step ∈ steps, step.AcceptsAll := by
    simp [steps, FleetStep.AcceptsAll, accepts]
  have honce : ((Fleet.ofSpecs specs).run steps).deliveries near far 1 = 1 := by decide +kernel
  exact ⟨hsockets, honce,
    (delivered_at_most_once_iff specs steps hsockets near far 1).1 (Nat.le_of_eq honce)⟩

/-- The success is lost, and both hosts look for timeouts: the receiver forgets the handshake, the
sender repeats its first frame. The message is sent once and delivered twice. -/
theorem delivered_twice_after_expiry :
    let near : Address := .loopback 9001
    let far : Address := .loopback 9002
    let accepts : Address → Bytes → Bool := fun _ _ => true
    let specs : List HostSpec :=
      [{ config := { selfAddress := near } }, { config := { selfAddress := far } }]
    let steps : List FleetStep :=
      [.send near far {} .reliable accepts,
        .receive ⟨near, far, [1, 1, 0, 0, 0, 0, 0, 0, 0, 0, 0]⟩ accepts,
        .wait near 1000, .wait far 1000,
        .timeoutSweep far accepts, .timeoutSweep near accepts,
        .receive ⟨near, far, [1, 1, 0, 0, 0, 1, 0, 0, 0, 1, 0]⟩ accepts]
    (∀ step ∈ steps, step.AcceptsAll) ∧
      ((Fleet.ofSpecs specs).run steps).idsDrawn near = 1 ∧
      (((Fleet.ofSpecs specs).run steps).calls.map SendCall.result) = [.ok (some 1)] ∧
      ((Fleet.ofSpecs specs).run steps).deliveries near far 1 = 2 := by
  intro near far accepts specs steps
  refine ⟨?_, by decide +kernel, by decide +kernel, by decide +kernel⟩
  simp [steps, FleetStep.AcceptsAll, accepts]

end ReliableDatagrams.Proofs
