import ReliableDatagrams.Wire.Bytes

/-!
# What becomes of an idle record

Every record is checked for idleness from time to time. One that was idle for its full timeout
decides itself what is to be done.
-/

namespace ReliableDatagrams

/-- What is to be done about a record that was idle for its full timeout. -/
inductive ExpiryAction where
  /-- The record reset its tracking and stays. -/
  | reset
  /-- The record stays, and the frame is to be sent to its peer again. -/
  | resend (frame : Bytes)
  /-- The record can be deleted. -/
  | expire
deriving DecidableEq, Repr, Inhabited

theorem toNat_succ_le (count : UInt32) : (count + 1).toNat ≤ count.toNat + 1 := by
  rw [UInt32.toNat_add]
  exact Nat.mod_le _ _

theorem toNat_succ_of_lt {count bound : UInt32} (h : count < bound) :
    (count + 1).toNat = count.toNat + 1 := by
  have hless := UInt32.lt_iff_toNat_lt.1 h
  have hsize := bound.toNat_lt
  rw [UInt32.toNat_add]
  exact Nat.mod_eq_of_lt (by simp; omega)

end ReliableDatagrams
