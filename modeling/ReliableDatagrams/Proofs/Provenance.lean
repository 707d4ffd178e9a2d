import ReliableDatagrams.Proofs.Redelivery

/-!
# No message out of thin air

Whatever is delivered was sent before, to the host that delivers it and with the same fields: a first
frame may have been read and written again any number of times on its way, and what arrives is still
the message of the call. A message without id comes from a call that did not ask for a handshake.
-/

namespace ReliableDatagrams.Proofs

/-- A call that succeeds without an id has not asked for a handshake. -/
lemma delivery_of_unnumbered {engine : Engine} {occasion : Occasion} {target : Address}
    {fields : FieldMap} {delivery : Delivery}
    (h : (engine.send occasion target fields delivery).2.2 = .ok none) :
    delivery = .unreliable := by
  cases delivery with
  | unreliable => rfl
  | reliable =>
    unfold Engine.send at h
    simp only [Engine.drawMessageId, true_or, decide_true, if_true] at h
    split at h
    · cases h
    · split at h <;> cases h

/-- A call is noted together with what it returned, and delivers nothing; whatever else happens is no
call. -/
inductive LedgerMove (ledger later : Ledger) : Prop where
  | called (call : SendCall) (calls : later.calls = ledger.calls ++ [call])
      (unnumbered : call.result = .ok none → call.delivery = .unreliable)
      (arrivals : later.arrivals = ledger.arrivals)
  | heard (fresh : List Arrival) (calls : later.calls = ledger.calls)
      (arrivals : later.arrivals = ledger.arrivals ++ fresh)

section Fleets

variable {fleet : Fleet}

lemma arrivals_send {engine : Engine} (occasion : Occasion) (hw : WellFiled engine.store)
    (host target : Address) (fields : FieldMap) (delivery : Delivery) :
    (engine.send occasion target fields delivery).2.1.filterMap (arrivalOf? host) = [] := by
  have hmove := send_move occasion hw target fields delivery
  generalize (engine.send occasion target fields delivery).1 = after at hmove
  generalize (engine.send occasion target fields delivery).2.2 = result at hmove
  generalize (engine.send occasion target fields delivery).2.1 = effects at hmove ⊢
  cases hmove <;> rfl

lemma SoundFleet.ledgerMove (hs : SoundFleet fleet) {after : Fleet} (h : FleetMove fleet after) :
    LedgerMove fleet.toLedger after.toLedger := by
  cases h with
  | unchanged => exact .heard [] rfl (List.append_nil _).symm
  | ran there task accepts onWire => exact .heard _ rfl rfl
  | waited there duration => exact .heard [] rfl rfl
  | @sent host station there target fields delivery accepts =>
    have hnone := arrivals_send ⟨station.now, accepts⟩ (hs.filed _ _ there) host target fields
      delivery
    refine .called _ rfl (fun hresult => delivery_of_unnumbered hresult) ?_
    exact (congrArg (fleet.arrivals ++ ·) hnone).trans (List.append_nil _)

lemma ledgerMove_step (specs : List HostSpec) (steps : List FleetStep) (step : FleetStep) :
    LedgerMove ((Fleet.ofSpecs specs).run steps).toLedger
      ((Fleet.ofSpecs specs).run (steps ++ [step])).toLedger := by
  rw [run_snoc]
  exact (soundFleet_run specs steps).ledgerMove (step_move _ step)

/-- Only calls that did not ask for a handshake have succeeded without an id. -/
lemma unreliable_of_unnumbered (specs : List HostSpec) (steps : List FleetStep) :
    ∀ call ∈ ((Fleet.ofSpecs specs).run steps).calls,
      call.result = .ok none → call.delivery = .unreliable := by
  induction steps using List.reverseRecOn with
  | nil => simp [Fleet.run, Fleet.ofSpecs]
  | append_singleton steps step ih =>
    cases ledgerMove_step specs steps step with
    | called call calls unnumbered arrivals =>
      rw [calls]
      intro other hother
      rcases List.mem_append.1 hother with hother | hother
      · exact ih other hother
      · rw [List.mem_singleton.1 hother]
        exact unnumbered
    | heard fresh calls arrivals =>
      rw [calls]
      exact ih

/-- Every delivery of a run takes place in a step before which the message had been sent. -/
theorem delivered_was_sent (specs : List HostSpec) (steps : List FleetStep) (number : Nat)
    (arrival : Arrival)
    (h : ((Fleet.ofSpecs specs).run steps).arrivals[number]? = some arrival) :
    ∃ before step after, steps = before ++ step :: after ∧
      ((Fleet.ofSpecs specs).run before).arrivals.length ≤ number ∧
      number < ((Fleet.ofSpecs specs).run (before ++ [step])).arrivals.length ∧
      ∃ call ∈ ((Fleet.ofSpecs specs).run before).calls,
        call.source = arrival.message.source ∧ call.target = arrival.target ∧
          call.fields = arrival.message.fields ∧ call.result = .ok arrival.message.id ∧
          (arrival.message.id = none → call.delivery = .unreliable) := by
  induction steps using List.reverseRecOn with
  | nil => simp [Fleet.run, Fleet.ofSpecs] at h
  | append_singleton steps step ih =>
    obtain ⟨hbound, -⟩ := List.getElem?_eq_some_iff.1 h
    by_cases hearlier : number < ((Fleet.ofSpecs specs).run steps).arrivals.length
    · have hsame : ((Fleet.ofSpecs specs).run steps).arrivals[number]? = some arrival := by
        cases ledgerMove_step specs steps step with
        | called call calls unnumbered arrivals => rwa [arrivals] at h
        | heard fresh calls arrivals =>
          rwa [arrivals, List.getElem?_append_left hearlier] at h
      obtain ⟨before, other, after, rfl, hrest⟩ := ih hsame
      exact ⟨before, other, after ++ [step], by simp, hrest⟩
    · -- the delivery is of the last step, which was no call
      cases ledgerMove_step specs steps step with
      | called call calls unnumbered arrivals =>
        rw [arrivals] at hbound
        exact absurd hbound hearlier
      | heard fresh calls arrivals =>
        obtain ⟨call, hcall, hsource, htarget, hfields, hresult⟩ :=
          (soundFleet_run specs (steps ++ [step])).arrivals arrival (List.mem_of_getElem? h)
        rw [calls] at hcall
        refine ⟨steps, step, [], rfl, Nat.not_lt.1 hearlier, hbound, call, hcall, hsource, htarget,
          hfields, hresult, fun hnone => ?_⟩
        exact unreliable_of_unnumbered specs steps call hcall (hnone ▸ hresult)

end Fleets

/-- The plain frame overtakes the first frame, which is then stale, is rejected, and comes again with
another timestamp. -/
theorem delivered_was_sent_restamped :
    let near : Address := .loopback 9001
    let far : Address := .loopback 9002
    let accepts : Address → Bytes → Bool := fun _ _ => true
    let specs : List HostSpec :=
      [{ config := { selfAddress := near } }, { config := { selfAddress := far } }]
    let fields : FieldMap := { shorts := some [5] }
    let steps : List FleetStep :=
      [.send near far fields .reliable accepts, .send near far {} .unreliable accepts,
        .receive ⟨near, far, [0, 1, 0, 0, 0, 1, 0]⟩ accepts,
        .receive ⟨near, far, [1, 1, 0, 0, 0, 102, 0, 0, 0, 0, 0, 97, 5, 0]⟩ accepts,
        .receive ⟨far, near, encodeControl .synFailure 1⟩ accepts,
        .receive ⟨near, far, [1, 1, 0, 0, 0, 104, 0, 0, 0, 2, 0, 97, 5, 0]⟩ accepts]
    ((Fleet.ofSpecs specs).run steps).arrivals[1]? = some ⟨far, ⟨near, some 1, fields⟩⟩ ∧
      ∃ before step after, steps = before ++ step :: after ∧
        ((Fleet.ofSpecs specs).run before).arrivals.length ≤ 1 ∧
        1 < ((Fleet.ofSpecs specs).run (before ++ [step])).arrivals.length ∧
        ∃ call ∈ ((Fleet.ofSpecs specs).run before).calls,
          call.source = near ∧ call.target = far ∧ call.fields = fields ∧
            call.result = .ok (some 1) ∧ (some (1 : UInt32) = none → call.delivery = .unreliable) := by
  intro near far accepts specs fields steps
  have harrival : ((Fleet.ofSpecs specs).run steps).arrivals[1]? =
      some ⟨far, ⟨near, some 1, fields⟩⟩ := by
    decide +kernel
  exact ⟨harrival, delivered_was_sent specs steps 1 _ harrival⟩

end ReliableDatagrams.Proofs
