import Mathlib.Data.List.Nodup
import Mathlib.Tactic.Common
import ReliableDatagrams.MessageId

/-!
# Drawing message ids

The counter of message ids runs through all numbers from 1 to 2 ^ 32 - 1 in turn. Its position in
this cycle is one less than the id that is drawn next; from it, all ids of a run of draws follow.
-/

namespace ReliableDatagrams.Proofs

/-- The number of message ids: all values of 32 bits but 0. -/
def idCycle : Nat := 4294967295

/-- How far a counter is in its cycle. -/
def cyclePosition (ids : MessageIds) : Nat :=
  ids.next.toNat - 1

def afterDraws : (count : Nat) → MessageIds → MessageIds
  | 0, ids => ids
  | count + 1, ids => afterDraws count ids.draw.2

lemma cyclePosition_lt (ids : MessageIds) : cyclePosition ids < idCycle := by
  have hsize : ids.next.toNat < 4294967296 := UInt32.toNat_lt ids.next
  unfold cyclePosition idCycle
  omega

lemma toNat_draw (ids : MessageIds) : ids.draw.1.toNat = cyclePosition ids + 1 := by
  unfold MessageIds.draw cyclePosition
  by_cases hzero : ids.next = 0
  · rw [if_pos hzero, hzero]
    rfl
  · have hpos : ids.next.toNat ≠ 0 := by
      intro h
      exact hzero (UInt32.toNat_inj.1 h)
    rw [if_neg hzero]
    dsimp only
    omega

lemma draw_ne_zero (ids : MessageIds) : ids.draw.1 ≠ 0 := by
  intro hzero
  have hnumber := toNat_draw ids
  rw [hzero] at hnumber
  exact absurd hnumber (Nat.succ_ne_zero _).symm

lemma cyclePosition_draw (ids : MessageIds) :
    cyclePosition ids.draw.2 = (cyclePosition ids + 1) % idCycle := by
  have hsize : ids.next.toNat < 4294967296 := UInt32.toNat_lt ids.next
  unfold MessageIds.draw cyclePosition idCycle
  by_cases hzero : ids.next = 0
  · rw [if_pos hzero, hzero]
    rfl
  · have hpos : ids.next.toNat ≠ 0 := by
      intro h
      exact hzero (UInt32.toNat_inj.1 h)
    have hnext : (ids.next + 1).toNat = (ids.next.toNat + 1) % 4294967296 :=
      UInt32.toNat_add ids.next 1
    rw [if_neg hzero]
    dsimp only
    rw [hnext]
    omega

lemma draw_ne_self (ids : MessageIds) : ids.draw.2 ≠ ids := by
  intro h
  have hposition := cyclePosition_draw ids
  have hlt := cyclePosition_lt ids
  rw [h] at hposition
  unfold idCycle at hposition hlt
  omega

lemma cyclePosition_afterDraws (count : Nat) (ids : MessageIds) :
    cyclePosition (afterDraws count ids) = (cyclePosition ids + count) % idCycle := by
  induction count generalizing ids with
  | zero => exact (Nat.mod_eq_of_lt (cyclePosition_lt ids)).symm
  | succ count ih =>
    rw [afterDraws, ih, cyclePosition_draw]
    unfold idCycle
    omega

lemma afterDraws_succ (count : Nat) (ids : MessageIds) :
    afterDraws (count + 1) ids = (afterDraws count ids).draw.2 := by
  induction count generalizing ids with
  | zero => rfl
  | succ count ih => exact ih ids.draw.2

lemma drawMany_succ (count : Nat) (ids : MessageIds) :
    MessageIds.drawMany (count + 1) ids =
      MessageIds.drawMany count ids ++ [(afterDraws count ids).draw.1] := by
  induction count generalizing ids with
  | zero => rfl
  | succ count ih =>
    have hrest : ids.draw.1 :: MessageIds.drawMany (count + 1) ids.draw.2 =
        ids.draw.1 :: (MessageIds.drawMany count ids.draw.2 ++
          [(afterDraws count ids.draw.2).draw.1]) := by
      rw [ih ids.draw.2]
    exact hrest

lemma mem_drawMany {count : Nat} {ids : MessageIds} {id : UInt32}
    (h : id ∈ MessageIds.drawMany count ids) :
    ∃ k < count, id.toNat = (cyclePosition ids + k) % idCycle + 1 := by
  induction count with
  | zero => simp [MessageIds.drawMany] at h
  | succ count ih =>
    rw [drawMany_succ, List.mem_append, List.mem_singleton] at h
    rcases h with hearlier | rfl
    · obtain ⟨k, hk, hid⟩ := ih hearlier
      exact ⟨k, by omega, hid⟩
    · exact ⟨count, by omega, by rw [toNat_draw, cyclePosition_afterDraws]⟩

lemma nodup_drawMany {count : Nat} (ids : MessageIds) (h : count ≤ idCycle) :
    (MessageIds.drawMany count ids).Nodup := by
  induction count with
  | zero => exact List.nodup_nil
  | succ count ih =>
    rw [drawMany_succ, List.nodup_append]
    refine ⟨ih (by omega), List.nodup_singleton _, ?_⟩
    intro id hid last hlast heq
    obtain ⟨k, hk, hposition⟩ := mem_drawMany hid
    have hnext := toNat_draw (afterDraws count ids)
    rw [List.mem_singleton] at hlast
    rw [heq, hlast, hnext, cyclePosition_afterDraws] at hposition
    unfold idCycle at h hposition
    omega

end ReliableDatagrams.Proofs
