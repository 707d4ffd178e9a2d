import Mathlib.Algebra.Group.Nat.Defs
import ReliableDatagrams.Proofs.Retransmission

/-!
# Rounds of message ids

A counter of message ids goes round: it wraps around at 32 bits and skips 0, so that it comes back to an
id after 2 ^ 32 - 1 draws and not before. An engine draws the ids of all its messages from one counter.
Two of its messages have the same id exactly if it has gone round some times from one to the other
(`equal_ids_iff_whole_rounds`).
-/

namespace ReliableDatagrams.Proofs

lemma map_toNat_drawMany (count : Nat) (ids : MessageIds) :
    (MessageIds.drawMany count ids).map UInt32.toNat =
      (List.range count).map fun k => (cyclePosition ids + k) % idCycle + 1 := by
  induction count with
  | zero => rfl
  | succ count ih =>
    rw [drawMany_succ, List.map_append, ih, List.range_succ, List.map_append, List.map_singleton,
      List.map_singleton, toNat_draw, cyclePosition_afterDraws]

lemma zero_notMem_drawMany (count : Nat) (ids : MessageIds) :
    0 ∉ MessageIds.drawMany count ids := by
  intro hmem
  obtain ⟨k, -, hzero⟩ := mem_drawMany hmem
  exact absurd hzero (Nat.succ_ne_zero _).symm

lemma drop_drawMany (start count : Nat) (ids : MessageIds) :
    (MessageIds.drawMany (start + count) ids).drop start =
      MessageIds.drawMany count (afterDraws start ids) := by
  induction start generalizing ids with
  | zero => rw [Nat.zero_add, List.drop_zero, afterDraws]
  | succ start ih =>
    rw [Nat.succ_add, MessageIds.drawMany, List.drop_succ_cons, ih, afterDraws]

/-- A message that is sent gets an id: the id is returned, or a frame that carries it is handed to the
socket. -/
inductive GetsId (engine : Engine) : EngineStep → UInt32 → Prop where
  | returned {occasion : Occasion} {target : Address} {fields : FieldMap} {delivery : Delivery}
      {id : UInt32} (result : (engine.send occasion target fields delivery).2.2 = .ok (some id)) :
      GetsId engine (.send occasion target fields delivery) id
  | handed {occasion : Occasion} {target : Address} {fields : FieldMap} {delivery : Delivery}
      {bytes : Bytes} {accepted : Bool} {frame : Frame} {id : UInt32}
      (sent : .sent target bytes accepted ∈ (engine.send occasion target fields delivery).2.1)
      (read : Frame.decode bytes = .ok frame) (carried : frame.header.messageId = some id) :
      GetsId engine (.send occasion target fields delivery) id

section Messages

variable {engine after : Engine} {occasion : Occasion} {target : Address} {fields : FieldMap}
variable {effects : List Effect} {result : Except SendError (Option UInt32)} {id : UInt32}

lemma SendMove.draws_of_returned (h : SendMove engine occasion target fields after effects result)
    (hresult : result = .ok (some id)) :
    id = engine.messageIds.draw.1 ∧ after.messageIds = engine.messageIds.draw.2 := by
  cases h with
  | failed ids same => cases hresult
  | plain drawn unforced written ids same =>
    split at hresult <;> cases hresult
  | first drawn written record ids filed =>
    split at hresult
    · exact ⟨(Option.some.inj (Except.ok.inj hresult)).symm, ids⟩
    · cases hresult

lemma SendMove.draws_of_handed (h : SendMove engine occasion target fields after effects result)
    {bytes : Bytes} {accepted : Bool} {frame : Frame} (hsent : .sent target bytes accepted ∈ effects)
    (hread : Frame.decode bytes = .ok frame) (hid : frame.header.messageId = some id) :
    id = engine.messageIds.draw.1 ∧ after.messageIds = engine.messageIds.draw.2 := by
  cases h with
  | failed ids same => cases hsent
  | plain drawn unforced written ids same =>
    cases List.mem_singleton.1 hsent
    rw [decode_of_encode written] at hread
    cases hread
    cases hid
  | first drawn written record ids filed =>
    cases List.mem_singleton.1 hsent
    rw [decode_of_encode written] at hread
    cases hread
    exact ⟨(Option.some.inj hid).symm, ids⟩

end Messages

namespace GetsId

variable {history : History} {step : EngineStep} {id : UInt32}

lemma draws (hw : WellFiled history.engine.store) (h : GetsId history.engine step id) :
    id = history.engine.messageIds.draw.1 ∧
      (history.step step).engine.messageIds = history.engine.messageIds.draw.2 := by
  cases h with
  | returned result => exact (send_move _ hw _ _ _).draws_of_returned result
  | handed sent read carried => exact (send_move _ hw _ _ _).draws_of_handed sent read carried

lemma toNat_id {firstId : UInt32} (hw : WellFiled history.engine.store)
    (hcounts : history.CountsIds firstId) (h : GetsId history.engine step id) :
    id.toNat = (cyclePosition ⟨firstId⟩ + history.idsDrawn) % idCycle + 1 := by
  rw [(h.draws hw).1, toNat_draw, hcounts, cyclePosition_afterDraws]

lemma idsDrawn_step (hw : WellFiled history.engine.store) (h : GetsId history.engine step id) :
    (history.step step).idsDrawn = history.idsDrawn + 1 := by
  have hmoved : (history.step step).engine.messageIds ≠ history.engine.messageIds := by
    rw [(h.draws hw).2]
    exact draw_ne_self _
  cases step with
  | send occasion target fields delivery => exact congrArg (history.idsDrawn + ·) (if_neg hmoved)
  | work occasion task => cases h

end GetsId

lemma add_mod_idCycle_eq_iff {position earlier later : Nat} (h : earlier < later) :
    (position + earlier) % idCycle = (position + later) % idCycle ↔
      ∃ rounds > 0, later = earlier + rounds * idCycle := by
  constructor
  · intro heq
    refine ⟨(later - earlier) / idCycle, ?_, ?_⟩ <;> unfold idCycle at * <;> omega
  · rintro ⟨rounds, -, rfl⟩
    rw [← Nat.add_assoc, Nat.add_mul_mod_self_right]

/-- The ids of a counter run from its start value on through all numbers from 1 to 2 ^ 32 - 1, and then
again. None of them is 0, and within a round none comes twice. Of two messages that an engine sends in
the course of any run, the ids are the same exactly if the draws from the one to the other make up whole
rounds. -/
theorem equal_ids_iff_whole_rounds (first : UInt32) :
    (∀ count, (MessageIds.drawMany count ⟨first⟩).map UInt32.toNat =
      (List.range count).map fun k => (max first.toNat 1 - 1 + k) % (2 ^ 32 - 1) + 1) ∧
    (∀ count, 0 ∉ MessageIds.drawMany count ⟨first⟩) ∧
    (∀ start, ((MessageIds.drawMany (start + (2 ^ 32 - 1)) ⟨first⟩).drop start).Nodup) ∧
    ∀ (config : Config) (before between : List EngineStep) (earlier later : EngineStep)
      (id other : UInt32),
      let history := (History.starting config first).run before
      let next := (history.step earlier).run between
      GetsId history.engine earlier id → GetsId next.engine later other →
        (id = other ↔
          ∃ rounds > 0, next.idsDrawn = history.idsDrawn + rounds * (2 ^ 32 - 1)) := by
  have hposition : max first.toNat 1 - 1 = cyclePosition ⟨first⟩ := by
    unfold cyclePosition
    dsimp only
    omega
  have hcycle : 2 ^ 32 - 1 = idCycle := by decide
  rw [hposition, hcycle]
  refine ⟨fun count => map_toNat_drawMany count _, fun count => zero_notMem_drawMany count _,
    fun start => ?_, ?_⟩
  · rw [drop_drawMany]
    exact nodup_drawMany _ (Nat.le_refl _)
  · intro config before between earlier later id other history next hid hother
    obtain ⟨hw, -, hcounts⟩ := History.wellFiled_run config first before
    have hnext : next = (History.starting config first).run (before ++ earlier :: between) :=
      (History.run_append _ before (earlier :: between)).symm
    obtain ⟨hwNext, -, hcountsNext⟩ :=
      History.wellFiled_run config first (before ++ earlier :: between)
    rw [← hnext] at hwNext hcountsNext
    have hwStep := (History.wellFiled_run config first (before ++ [earlier])).1
    rw [History.run_concat] at hwStep
    -- The earlier message has drawn an id itself, so that the rounds are at least one.
    have hless : history.idsDrawn < next.idsDrawn := by
      have hlater := History.idsDrawn_run_le hwStep between
      rw [hid.idsDrawn_step hw] at hlater
      exact hlater
    rw [← add_mod_idCycle_eq_iff hless, ← UInt32.toNat_inj, hid.toNat_id hw hcounts,
      hother.toNat_id hwNext hcountsNext, Nat.add_right_cancel_iff]

/-- Two messages around the place where the counter skips 0. -/
theorem equal_ids_iff_whole_rounds_past_zero :
    let far : Address := .loopback 9002
    let config : Config := { selfAddress := .loopback 9001 }
    let send : EngineStep := .send ⟨0, fun _ _ => true⟩ far {} .reliable
    let history := (History.starting config 4294967294).run [send]
    let next := (history.step send).run []
    MessageIds.drawMany 4 ⟨4294967294⟩ = [4294967294, 4294967295, 1, 2] ∧
      GetsId history.engine send 4294967295 ∧ GetsId next.engine send 1 ∧
      ¬∃ rounds > 0, next.idsDrawn = history.idsDrawn + rounds * (2 ^ 32 - 1) := by
  intro far config send history next
  have hearlier : GetsId history.engine send 4294967295 := .returned (by decide +kernel)
  have hlater : GetsId next.engine send 1 := .returned (by decide +kernel)
  have hrounds := (equal_ids_iff_whole_rounds 4294967294).2.2.2 config [send] [] send send
    4294967295 1 hearlier hlater
  exact ⟨by decide, hearlier, hlater, fun hsame => absurd (hrounds.2 hsame) (by decide)⟩

end ReliableDatagrams.Proofs
