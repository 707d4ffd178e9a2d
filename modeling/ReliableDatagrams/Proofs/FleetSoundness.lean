import ReliableDatagrams.Proofs.Soundness

/-!
# Fleets stay sound

In every run of a fleet all records and datagrams stand for what they should, every delivery is of a
message that was sent, and the ids that calls return are drawn one after the other.
-/

namespace ReliableDatagrams.Proofs

structure SoundFleet (fleet : Fleet) : Prop where
  filed : ∀ host station, fleet.stations.get? host = some station →
    WellFiled station.engine.store
  records : ∀ host station, fleet.stations.get? host = some station →
    AllRecords (SoundRecord fleet.toLedger host) station.engine.store.connections
  wire : ∀ datagram ∈ fleet.wire, SoundDatagram fleet.toLedger datagram
  arrivals : ∀ arrival ∈ fleet.arrivals,
    Posted fleet.toLedger arrival.message.source arrival.target arrival.message.id
      arrival.message.fields

variable {fleet : Fleet} {host : Address}

/-- A station may come to a new state if the state and its effects are sound for a ledger that notes
them, and perhaps a call. -/
lemma SoundFleet.update (h : SoundFleet fleet) {station : Station} {effects : List Effect}
    {ledger : Ledger} (hext : ledger.Extends (fleet.toLedger.hear host effects))
    (harrivals : ledger.arrivals = (fleet.toLedger.hear host effects).arrivals)
    (hw : WellFiled station.engine.store)
    (hout : SoundOutcome ledger host station.engine effects) :
    SoundFleet { fleet.update host station effects with toLedger := ledger } := by
  have hlater : ledger.Extends fleet.toLedger := hext.trans (extends_hear _ _ _)
  constructor
  · intro other found hfound
    have hget := (Table.get?_insert fleet.stations host other station).symm.trans hfound
    split at hget
    · cases hget
      exact hw
    · exact h.filed other found hget
  · intro other found hfound
    have hget := (Table.get?_insert fleet.stations host other station).symm.trans hfound
    split at hget
    · rename_i hhost
      cases hget
      rw [← hhost]
      exact hout.records
    · exact (h.records other found hget).mono fun record hrecord => hrecord.mono hlater
  · intro datagram hdatagram
    rcases List.mem_append.1 hdatagram with hold | hnew
    · exact (h.wire datagram hold).mono hlater
    · obtain ⟨effect, heffect, hsent⟩ := List.mem_filterMap.1 hnew
      have hsound := hout.effects effect heffect
      unfold datagramOf? at hsent
      split at hsent
      · cases hsent
        exact hsound
      · cases hsent
  · intro arrival harrival
    have hmem : arrival ∈ ledger.arrivals := harrival
    rw [harrivals] at hmem
    rcases List.mem_append.1 hmem with hold | hnew
    · exact (h.arrivals arrival hold).mono hlater
    · obtain ⟨effect, heffect, hheard⟩ := List.mem_filterMap.1 hnew
      have hsound := hout.effects effect heffect
      unfold arrivalOf? at hheard
      split at hheard
      · cases hheard
        exact hsound
      · cases hheard

lemma SoundFleet.send (h : SoundFleet fleet) {station : Station}
    (hthere : fleet.stations.get? host = some station) (target : Address) (fields : FieldMap)
    (delivery : Delivery) (accepts : Address → Bytes → Bool) :
    SoundFleet (fleet.send host station target fields delivery accepts) := by
  have hw := h.filed host station hthere
  have hmove := send_move ⟨station.now, accepts⟩ hw target fields delivery
  unfold Fleet.send
  dsimp only
  generalize hout : station.engine.send ⟨station.now, accepts⟩ target fields delivery = out
    at hmove
  have hwell : WellFiled out.1.store := hout ▸ hw.send _ target fields delivery
  obtain ⟨engine, effects, result⟩ := out
  apply h.update (extends_post _ _) rfl hwell
  refine hmove.sound ⟨station.now, accepts⟩ hw.connection ?_ ?_
  · refine (h.records host station hthere).mono ?_
    intro record hrecord
    exact (hrecord.mono (extends_hear _ host effects)).mono (extends_post _ _)
  · intro id hid
    exact ⟨_, List.mem_append_right _ (List.mem_singleton_self _), rfl, rfl, rfl, hid⟩

lemma SoundFleet.runTask (h : SoundFleet fleet) {station : Station}
    (hthere : fleet.stations.get? host = some station) (task : EngineTask)
    (accepts : Address → Bytes → Bool)
    (hwire : ∀ source bytes, task = .receive source bytes →
      { source, target := host, bytes } ∈ fleet.wire) :
    SoundFleet (fleet.runTask host station task accepts) := by
  obtain ⟨hwell, hsound⟩ := run_sound ⟨station.now, accepts⟩ (h.filed host station hthere)
    (h.records host station hthere) task fun source bytes htask => h.wire _ (hwire source bytes htask)
  exact h.update ⟨List.Subset.refl _, List.Subset.refl _⟩ rfl hwell hsound

lemma SoundFleet.move {after : Fleet} (h : SoundFleet fleet) (hmove : FleetMove fleet after) :
    SoundFleet after := by
  cases hmove with
  | unchanged => exact h
  | sent there target fields delivery accepts => exact h.send there target fields delivery accepts
  | ran there task accepts onWire => exact h.runTask there task accepts onWire
  | @waited host station there duration =>
    have hsound : SoundOutcome fleet.toLedger host station.engine [] :=
      ⟨h.records host station there, by simp⟩
    exact h.update ⟨List.Subset.refl _, List.Subset.refl _⟩ rfl (h.filed host station there)
      (hsound.mono (extends_hear _ _ _))

lemma station_ofSpecs {specs : List HostSpec} {station : Station}
    (h : (Fleet.ofSpecs specs).stations.get? host = some station) :
    ∃ spec ∈ specs, station = { engine := .starting spec.config spec.firstId } := by
  have hfold : ∀ (specs : List HostSpec) (stations : Table Address Station),
      (specs.foldl (fun stations spec => stations.insert spec.config.selfAddress
        { engine := Engine.starting spec.config spec.firstId }) stations).get? host =
        some station →
      stations.get? host = some station ∨
        ∃ spec ∈ specs, station = { engine := .starting spec.config spec.firstId } := by
    intro specs
    induction specs with
    | nil => exact fun stations hstation => Or.inl hstation
    | cons spec rest ih =>
      intro stations hstation
      rcases ih _ hstation with hearlier | ⟨other, hother, heq⟩
      · rw [Table.get?_insert] at hearlier
        split at hearlier
        · cases hearlier
          exact Or.inr ⟨spec, List.mem_cons_self, rfl⟩
        · exact Or.inl hearlier
      · exact Or.inr ⟨other, List.mem_cons_of_mem _ hother, heq⟩
  rcases hfold specs {} h with hnone | hspec
  · cases hnone
  · exact hspec

lemma soundFleet_ofSpecs (specs : List HostSpec) : SoundFleet (Fleet.ofSpecs specs) where
  filed host station h := by
    obtain ⟨spec, -, rfl⟩ := station_ofSpecs h
    exact wellFiled_starting _ _
  records host station h := by
    obtain ⟨spec, -, rfl⟩ := station_ofSpecs h
    intro key record hrecord
    simp [Engine.starting] at hrecord
  wire := by simp [Fleet.ofSpecs]
  arrivals := by simp [Fleet.ofSpecs]

def returnedId? (host : Address) (call : SendCall) : Option UInt32 :=
  if call.source = host then call.result.toOption.join else none

/-- Counters have advanced by the draws that calls have noted, and the ids that were returned are
among those that were drawn. -/
def CountsIds (fleet : Fleet) : Prop :=
  ∀ host station, fleet.stations.get? host = some station → ∃ first,
    station.engine.messageIds = afterDraws (fleet.idsDrawn host) first ∧
      (fleet.calls.filterMap (returnedId? host)).Sublist
        (MessageIds.drawMany (fleet.idsDrawn host) first)

lemma countsIds_ofSpecs (specs : List HostSpec) : CountsIds (Fleet.ofSpecs specs) := by
  intro host station _
  exact ⟨station.engine.messageIds, rfl, List.Sublist.refl []⟩

/-- A call either leaves the counter alone and returns no id, or draws the one id that it may
return. -/
lemma SendMove.ids {engine after : Engine} {occasion : Occasion} {target : Address}
    {fields : FieldMap} {effects : List Effect} {result : Except SendError (Option UInt32)}
    (h : SendMove engine occasion target fields after effects result) :
    (after.messageIds = engine.messageIds ∧ result.toOption.join = none) ∨
      (after.messageIds = engine.messageIds.draw.2 ∧
        (result.toOption.join = none ∨ result.toOption.join = some engine.messageIds.draw.1)) := by
  cases h with
  | failed ids same =>
    rcases ids with hkept | hdrawn
    · exact Or.inl ⟨hkept, rfl⟩
    · exact Or.inr ⟨hdrawn, Or.inl rfl⟩
  | plain drawn unforced written ids same =>
    refine Or.inl ⟨ids, ?_⟩
    split <;> rfl
  | first drawn written record ids filed =>
    refine Or.inr ⟨ids, ?_⟩
    split
    · exact Or.inr rfl
    · exact Or.inl rfl

lemma messageIds_run {engine : Engine} (occasion : Occasion) (hw : WellFiled engine.store)
    (task : EngineTask) : (engine.run occasion task).1.messageIds = engine.messageIds := by
  cases task with
  | receive source datagram => exact messageIds_receive occasion source datagram
  | timeoutSweep =>
    obtain ⟨⟨-, hids⟩, -⟩ := @timeoutSweep_induction engine occasion
      (fun other => other.messageIds = engine.messageIds) (fun _ => True) (by
        intro other after effects hother _ hsame
        exact ⟨hsame.trans hother, fun _ _ => trivial⟩) hw rfl
    exact hids
  | deleteSweep => rfl

lemma CountsIds.send (hs : SoundFleet fleet) (h : CountsIds fleet) {station : Station}
    (hthere : fleet.stations.get? host = some station) (target : Address) (fields : FieldMap)
    (delivery : Delivery) (accepts : Address → Bytes → Bool) :
    CountsIds (fleet.send host station target fields delivery accepts) := by
  have hmove := (send_move ⟨station.now, accepts⟩ (hs.filed host station hthere) target fields
    delivery).ids
  generalize hout : station.engine.send ⟨station.now, accepts⟩ target fields delivery = out
    at hmove
  obtain ⟨engine, effects, result⟩ := out
  dsimp only at hmove
  intro other found hfound
  simp only [Fleet.send, hout, Fleet.update, Ledger.hear, Ledger.post, Table.get?_insert] at hfound
  simp only [Fleet.send, hout, Fleet.idsDrawn, Fleet.update, Ledger.hear, Ledger.post,
    List.countP_append, List.filterMap_append, List.countP_singleton, List.filterMap_cons,
    List.filterMap_nil, returnedId?]
  split at hfound
  · rename_i hother
    cases hfound
    subst hother
    obtain ⟨first, hids, hreturned⟩ := h host station hthere
    refine ⟨first, ?_⟩
    rcases hmove with ⟨hkept, hnone⟩ | ⟨hdrawn, hresult⟩
    · simp only [hkept, hnone]
      simpa using ⟨hids, hreturned⟩
    · have hmoved : station.engine.messageIds.draw.2 ≠ station.engine.messageIds :=
        draw_ne_self _
      simp only [hdrawn, hmoved, ne_eq, not_false_eq_true, decide_true, Bool.and_true, if_true]
      rw [afterDraws_succ, drawMany_succ]
      have hdraw : station.engine.messageIds.draw.2 =
          (afterDraws (fleet.idsDrawn host) first).draw.2 := by rw [hids]
      refine ⟨hdraw, ?_⟩
      rcases hresult with hnone | hsome
      · rw [hnone, List.append_nil]
        exact hreturned.trans (List.sublist_append_left _ _)
      · rw [hsome, hids]
        exact hreturned.append (List.Sublist.refl _)
  · rename_i hother
    obtain ⟨first, hids, hreturned⟩ := h other found hfound
    refine ⟨first, ?_⟩
    simpa [hother] using ⟨hids, hreturned⟩

lemma CountsIds.move {after : Fleet} (hs : SoundFleet fleet) (h : CountsIds fleet)
    (hmove : FleetMove fleet after) : CountsIds after := by
  -- a station whose counter did not move, in a fleet whose calls did not change
  have hsame : ∀ {host : Address} {old new : Station} {effects : List Effect},
      fleet.stations.get? host = some old → new.engine.messageIds = old.engine.messageIds →
        CountsIds (fleet.update host new effects) := by
    intro host old new effects hold hids other station hstation
    have hget := (Table.get?_insert fleet.stations host other new).symm.trans hstation
    split at hget
    · rename_i hhost
      cases hget
      rw [hids, ← hhost]
      exact h host old hold
    · exact h other station hget
  cases hmove with
  | unchanged => exact h
  | waited there duration => exact hsame there rfl
  | ran there task accepts onWire =>
    exact hsame there (messageIds_run _ (hs.filed _ _ there) task)
  | sent there target fields delivery accepts =>
    exact h.send hs there target fields delivery accepts

lemma sound_and_counts_run (specs : List HostSpec) (steps : List FleetStep) :
    SoundFleet ((Fleet.ofSpecs specs).run steps) ∧ CountsIds ((Fleet.ofSpecs specs).run steps) :=
  @run_induction (fun fleet => SoundFleet fleet ∧ CountsIds fleet)
    (fun h hmove => ⟨h.1.move hmove, h.2.move h.1 hmove⟩) _
    ⟨soundFleet_ofSpecs specs, countsIds_ofSpecs specs⟩ steps

lemma FleetMove.extends {after : Fleet} (h : FleetMove fleet after) :
    after.toLedger.Extends fleet.toLedger := by
  cases h with
  | unchanged => exact ⟨List.Subset.refl _, List.Subset.refl _⟩
  | sent there target fields delivery accepts =>
    exact (extends_post _ _).trans (extends_hear _ _ _)
  | ran there task accepts onWire => exact extends_hear _ _ _
  | waited there duration => exact extends_hear _ _ _

lemma run_extends (fleet : Fleet) (steps : List FleetStep) :
    (fleet.run steps).toLedger.Extends fleet.toLedger :=
  @run_induction (fun later => later.toLedger.Extends fleet.toLedger)
    (fun h hmove => hmove.extends.trans h) _ ⟨List.Subset.refl _, List.Subset.refl _⟩ steps

lemma filter_eq_singleton {calls : List SendCall} {call : SendCall} {id : UInt32}
    (hnodup : (calls.filterMap (returnedId? host)).Nodup) (hmem : call ∈ calls)
    (hid : returnedId? host call = some id) :
    calls.filter (fun other => decide (returnedId? host other = some id)) = [call] := by
  induction calls with
  | nil => cases hmem
  | cons first rest ih =>
    rcases List.mem_cons.1 hmem with rfl | hrest
    · rw [List.filterMap_cons_some hid, List.nodup_cons] at hnodup
      rw [List.filter_cons_of_pos (by simpa using hid), List.filter_eq_nil_iff.2]
      intro other hother hsame
      exact hnodup.1 (List.mem_filterMap.2 ⟨other, hother, by simpa using hsame⟩)
    · have hfirst : returnedId? host first ≠ some id := by
        intro hfirst
        rw [List.filterMap_cons_some hfirst, List.nodup_cons] at hnodup
        exact hnodup.1 (List.mem_filterMap.2 ⟨call, hrest, hid⟩)
      rw [List.filter_cons_of_neg (by simpa using hfirst)]
      refine ih ?_ hrest
      rw [List.filterMap_cons] at hnodup
      split at hnodup
      · exact hnodup
      · exact (List.nodup_cons.1 hnodup).2

lemma returnedId?_eq_some_iff {call : SendCall} {id : UInt32} :
    returnedId? host call = some id ↔ call.source = host ∧ call.result = .ok (some id) := by
  unfold returnedId?
  split
  · rename_i hsource
    cases hresult : call.result with
    | error error => simp [Except.toOption]
    | ok returned => simp [Except.toOption, hsource]
  · rename_i hsource
    simp [hsource]

lemma sendsOf_eq_singleton (h : CountsIds fleet) {station : Station}
    (hthere : fleet.stations.get? host = some station)
    (hids : fleet.idsDrawn host < idCycle) {call : SendCall} {id : UInt32}
    (hmem : call ∈ fleet.calls) (hsource : call.source = host)
    (hresult : call.result = .ok (some id)) : fleet.sendsOf host id = [call] := by
  obtain ⟨first, -, hreturned⟩ := h host station hthere
  have hnodup := hreturned.nodup (nodup_drawMany first (Nat.le_of_lt hids))
  have hfilter := filter_eq_singleton hnodup hmem (returnedId?_eq_some_iff.2 ⟨hsource, hresult⟩)
  unfold Fleet.sendsOf
  rw [← hfilter]
  congr 1
  funext other
  rw [decide_eq_decide]
  exact returnedId?_eq_some_iff.symm

lemma isSome_station_update (other : Address) (station : Station) (effects : List Effect)
    (h : (fleet.stations.get? host).isSome) :
    ((fleet.update other station effects).stations.get? host).isSome := by
  have hget := Table.get?_insert fleet.stations other host station
  unfold Fleet.update
  rw [hget]
  split
  · rfl
  · exact h

lemma isSome_station_move {after : Fleet} (h : FleetMove fleet after)
    (hthere : (fleet.stations.get? host).isSome) : (after.stations.get? host).isSome := by
  cases h with
  | unchanged => exact hthere
  | @sent other station there target fields delivery accepts =>
    exact isSome_station_update other _
      (station.engine.send ⟨station.now, accepts⟩ target fields delivery).2.1 hthere
  | ran there task accepts onWire => exact isSome_station_update _ _ _ hthere
  | waited there duration => exact isSome_station_update _ _ _ hthere

lemma isSome_station_run (steps : List FleetStep) (h : (fleet.stations.get? host).isSome) :
    ((fleet.run steps).stations.get? host).isSome :=
  @run_induction (fun later => (later.stations.get? host).isSome)
    (fun hearlier hmove => isSome_station_move hmove hearlier) _ h steps

end ReliableDatagrams.Proofs
