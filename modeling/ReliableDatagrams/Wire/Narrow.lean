/-!
# Narrowing

A count is written in fewer bits than it is computed in. Narrowing keeps the value or reports that
it does not fit; it never drops bits.
-/

namespace ReliableDatagrams

/-- The value itself, if it can be written in the given number of bits. -/
def narrow? (bits value : Nat) : Option Nat :=
  if value < 1 <<< bits then some value else none

theorem narrow?_eq_none_iff (bits value : Nat) :
    narrow? bits value = none ↔ 1 <<< bits ≤ value := by
  simp [narrow?]

end ReliableDatagrams
