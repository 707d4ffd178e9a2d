/-!
# Bytes and bits as numerals

Numbers travel in little-endian order, and an array of booleans travels as the numeral of its bits.
Both directions are defined through natural numbers: `Bytes.toNat_ofNat` and `Bits.toNat_ofNat` say
that a numeral of a given width keeps a number modulo the range of that width, `Bytes.ofNat_toNat`
and `Bits.ofNat_toNat` that every sequence is the numeral of its own value.
-/

namespace ReliableDatagrams

/-- The contents of a datagram, or of a part of it. -/
abbrev Bytes := List UInt8

namespace Bytes

/-- The `width` low-order bytes of a number, least significant first. -/
def ofNat : (width value : Nat) → Bytes
  | 0, _ => []
  | width + 1, value => UInt8.ofNat value :: ofNat width (value / 256)

/-- The number whose bytes are given, least significant first. -/
def toNat : Bytes → Nat
  | [] => 0
  | b :: rest => b.toNat + 256 * toNat rest

@[simp] theorem length_ofNat (width value : Nat) : (ofNat width value).length = width := by
  induction width generalizing value with
  | zero => rfl
  | succ width ih => simp [ofNat, ih]

theorem toNat_ofNat (width value : Nat) :
    toNat (ofNat width value) = value % Nat.pow 256 width := by
  induction width generalizing value with
  | zero => simp [ofNat, toNat, Nat.mod_one]
  | succ width ih =>
    have step : Nat.pow 256 (width + 1) = 256 * Nat.pow 256 width := Nat.mul_comm _ _
    simp only [ofNat, toNat, ih, UInt8.toNat_ofNat', step]
    exact (Nat.mod_mul).symm

theorem ofNat_toNat (b : Bytes) : ofNat b.length (toNat b) = b := by
  induction b with
  | nil => rfl
  | cons x rest ih =>
    have hx := x.toNat_lt
    have head : UInt8.ofNat (x.toNat + 256 * toNat rest) = x := by
      apply UInt8.toNat_inj.mp
      simp only [UInt8.toNat_ofNat']
      omega
    have tail : (x.toNat + 256 * toNat rest) / 256 = toNat rest := by omega
    simp only [List.length_cons, toNat, ofNat, head, tail, ih]

/-- The first `n` bytes and the remaining ones, if there are as many. -/
def split? : (b : Bytes) → (n : Nat) → Option (Bytes × Bytes)
  | b, 0 => some ([], b)
  | [], _ + 1 => none
  | x :: b, n + 1 => (split? b n).map fun (front, rest) => (x :: front, rest)

theorem split?_eq (b : Bytes) (n : Nat) :
    split? b n = if n ≤ b.length then some (b.take n, b.drop n) else none := by
  fun_induction split? b n with
  | case1 => simp
  | case2 => simp
  | case3 x b n ih =>
    by_cases h : n ≤ b.length <;> simp [ih, h]

/-- Reads a number of `width` bytes, returning the bytes after it too. -/
def number? (b : Bytes) (width : Nat) : Option (Nat × Bytes) :=
  (b.split? width).map fun (front, rest) => (front.toNat, rest)

end Bytes

namespace Bits

/-- The `count` low-order bits of a number, least significant first. -/
def ofNat : (count value : Nat) → List Bool
  | 0, _ => []
  | count + 1, value => (value % 2 == 1) :: ofNat count (value / 2)

/-- The number whose bits are given, least significant first. -/
def toNat : List Bool → Nat
  | [] => 0
  | bit :: rest => bit.toNat + 2 * toNat rest

@[simp] theorem length_ofNat (count value : Nat) : (ofNat count value).length = count := by
  induction count generalizing value with
  | zero => rfl
  | succ count ih => simp [ofNat, ih]

theorem toNat_ofNat (count value : Nat) :
    toNat (ofNat count value) = value % Nat.pow 2 count := by
  induction count generalizing value with
  | zero => simp [ofNat, toNat, Nat.mod_one]
  | succ count ih =>
    have bit : (value % 2 == 1).toNat = value % 2 := by
      rcases Nat.mod_two_eq_zero_or_one value with h | h <;> simp [h]
    have step : Nat.pow 2 (count + 1) = 2 * Nat.pow 2 count := Nat.mul_comm _ _
    simp only [ofNat, toNat, ih, bit, step]
    exact (Nat.mod_mul).symm

theorem ofNat_toNat (bits : List Bool) : ofNat bits.length (toNat bits) = bits := by
  induction bits with
  | nil => rfl
  | cons bit rest ih =>
    have tail : (bit.toNat + 2 * toNat rest) / 2 = toNat rest := by
      have : bit.toNat < 2 := by cases bit <;> decide
      omega
    have head : ((bit.toNat + 2 * toNat rest) % 2 == 1) = bit := by
      cases bit <;> simp
    simp only [List.length_cons, toNat, ofNat, tail, head, ih]

end Bits

end ReliableDatagrams
