/-!
# Hexadecimal text

Lower-case hexadecimal digits of numbers, padded with zeros to a least width.
-/

namespace ReliableDatagrams

namespace Hex

/-- A number in hexadecimal, with leading zeros up to the given width. -/
def padded (width value : Nat) : String :=
  let digits := Nat.toDigits 16 value
  String.ofList (List.replicate (width - digits.length) '0' ++ digits)

end Hex

end ReliableDatagrams
