import Std.Data.ExtTreeMap

/-!
# Addresses

An endpoint is an internet address of either version together with a port.
-/

namespace ReliableDatagrams

/-- An internet address: four bytes, or eight groups of 16 bits. The second kind may be limited to a
zone of this machine, of which there are many; 0 stands for none. -/
inductive IpAddress where
  | v4 (bytes : Vector UInt8 4)
  | v6 (groups : Vector UInt16 8) (zone : UInt32)
deriving DecidableEq, Repr, Inhabited

/-- An endpoint that datagrams come from and go to. -/
structure Address where
  ip : IpAddress
  port : UInt16
deriving DecidableEq, Repr, Inhabited

namespace Address

def loopback (port : UInt16) : Address :=
  ⟨.v4 #v[127, 0, 0, 1], port⟩

/-- Version, address, port and zone as numbers, most significant first. -/
def sortKey (address : Address) : List Nat :=
  match address.ip with
  | .v4 bytes => 4 :: (bytes.toList.map UInt8.toNat ++ [address.port.toNat])
  | .v6 groups zone =>
    6 :: (groups.toList.map UInt16.toNat ++ [address.port.toNat, zone.toNat])

theorem sortKey_injective {a b : Address} (h : a.sortKey = b.sortKey) : a = b := by
  rcases a with ⟨ip | ⟨groups, zone⟩, port⟩ <;> rcases b with ⟨ip' | ⟨groups', zone'⟩, port'⟩
  · obtain ⟨hbytes, hport⟩ := List.append_inj' (List.cons.inj h).2 rfl
    have hip : ip = ip' :=
      Vector.toList_inj.1 (List.map_inj_right (fun _ _ => UInt8.toNat_inj.1) |>.1 hbytes)
    simp_all [UInt16.toNat_inj]
  · simp [sortKey] at h
  · simp [sortKey] at h
  · obtain ⟨hgroups, hport⟩ := List.append_inj' (List.cons.inj h).2 rfl
    have hip : groups = groups' :=
      Vector.toList_inj.1 (List.map_inj_right (fun _ _ => UInt16.toNat_inj.1) |>.1 hgroups)
    simp_all [UInt16.toNat_inj, UInt32.toNat_inj]

/-- The order of endpoints: by version, address, port and zone. -/
instance : Ord Address where
  compare a b := compare a.sortKey b.sortKey

instance : Std.TransOrd Address where
  eq_swap := Std.OrientedOrd.eq_swap (α := List Nat)
  isLE_trans := Std.TransOrd.isLE_trans (α := List Nat)

instance : Std.LawfulEqOrd Address where
  compare_self := Std.ReflOrd.compare_self (α := List Nat)
  eq_of_compare h := sortKey_injective (Std.LawfulEqOrd.eq_of_compare h)

def precedes (a b : Address) : Bool :=
  (compare a b).isLE

end Address

end ReliableDatagrams
