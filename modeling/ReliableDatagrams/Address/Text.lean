import ReliableDatagrams.Address.Basic
import ReliableDatagrams.Wire.Hex

/-!
# Addresses as text

The text form of an endpoint: `10.0.0.1:80`, or `[2001:db8::1]:443` with the address in brackets.
In an address of the second kind the longest run of two or more zero groups is written as `::`, and
the last two groups are written like an address of the first kind if the address embeds one. Its zone
is a number behind a percent sign, as in `[fe80::1%3]:443`.
-/

namespace ReliableDatagrams

namespace IpAddress

def dotted (bytes : List Nat) : String :=
  ".".intercalate (bytes.map toString)

def coloned (groups : List Nat) : String :=
  ":".intercalate (groups.map (Hex.padded 1))

def leadingZeros (groups : List Nat) : Nat :=
  (groups.takeWhile (· == 0)).length

/-- The first of the longest runs of zeros, as its position and its length. -/
def longestZeroRun (groups : List Nat) : Nat × Nat :=
  (List.range groups.length).foldl
    (fun best start =>
      let length := leadingZeros (groups.drop start)
      if best.2 < length then (start, length) else best)
    (0, 0)

def groupsText (groups : List Nat) : String :=
  match groups with
  | [0, 0, 0, 0, 0, 0xffff, high, low] =>
    "::ffff:" ++ dotted [high / 256, high % 256, low / 256, low % 256]
  | _ =>
    let (start, length) := longestZeroRun groups
    if 1 < length then
      coloned (groups.take start) ++ "::" ++ coloned (groups.drop (start + length))
    else coloned groups

/-- The value of digits in a base, if there is at least one and all are valid. -/
def number? (base : Nat) (digits : List Char) : Option Nat :=
  if digits.isEmpty then none
  else
    digits.foldl
      (fun value digit =>
        let lower := digit.toLower
        let place :=
          if '0' ≤ lower ∧ lower ≤ '9' then lower.toNat - '0'.toNat
          else if 'a' ≤ lower ∧ lower ≤ 'f' then 10 + (lower.toNat - 'a'.toNat)
          else base
        if place < base then value.map (· * base + place) else none)
      (some 0)

def byte? (text : String) : Option Nat :=
  let digits := text.toList
  if 3 < digits.length ∨ (digits.head? = some '0' ∧ 1 < digits.length) then none
  else (number? 10 digits).filter (· < 256)

def dotted? (text : String) : Option (List Nat) :=
  ((text.splitOn ".").mapM byte?).filter (·.length = 4)

def group? (text : String) : Option Nat :=
  if 4 < text.toList.length then none else number? 16 text.toList

/-- Groups between colons; the last part may be an address in dotted form. -/
def groups? (text : String) : Option (List Nat) :=
  if text.isEmpty then some []
  else
    let parts := text.splitOn ":"
    match dotted? (parts.getLast?.getD "") with
    | some [a, b, c, d] =>
      (parts.dropLast.mapM group?).map (· ++ [a * 256 + b, c * 256 + d])
    | _ => parts.mapM group?

/-- Eight groups, of which `::` may leave out some zeros. -/
def allGroups? (text : String) : Option (List Nat) :=
  match text.splitOn "::" with
  | [whole] => (groups? whole).filter (·.length = 8)
  | [front, back] =>
    match groups? front, groups? back with
    | some front, some back =>
      let given := front.length + back.length
      if given < 8 then some (front ++ List.replicate (8 - given) 0 ++ back) else none
    | _, _ => none
  | _ => none

def zoneText (zone : UInt32) : String :=
  if zone = 0 then "" else "%" ++ toString zone.toNat

/-- A number in decimal below a limit; zeros in front are allowed. -/
def below? (limit : Nat) (text : String) : Option Nat :=
  (number? 10 text.toList).filter (· < limit)

def toText : IpAddress → String
  | v4 bytes => dotted (bytes.toList.map UInt8.toNat)
  | v6 groups zone => groupsText (groups.toList.map UInt16.toNat) ++ zoneText zone

def v6? (text : String) : Option IpAddress :=
  let parsed := match text.splitOn "%" with
    | [groups] => (allGroups? groups).map fun groups => (groups, 0)
    | [groups, zone] =>
      match allGroups? groups, below? (1 <<< 32) zone with
      | some groups, some zone => some (groups, zone)
      | _, _ => none
    | _ => none
  match parsed with
  | some ([a, b, c, d, e, f, g, h], zone) =>
    some (.v6 (#v[a, b, c, d, e, f, g, h].map UInt16.ofNat) (UInt32.ofNat zone))
  | _ => none

def v4? (text : String) : Option IpAddress :=
  match dotted? text with
  | some [a, b, c, d] => some (.v4 (#v[a, b, c, d].map UInt8.ofNat))
  | _ => none

end IpAddress

namespace Address

def toText (address : Address) : String :=
  match address.ip with
  | .v4 _ => s!"{address.ip.toText}:{address.port.toNat}"
  | .v6 _ _ => s!"[{address.ip.toText}]:{address.port.toNat}"

def port? (text : String) : Option UInt16 :=
  (IpAddress.below? (1 <<< 16) text).map UInt16.ofNat

def ofText? (text : String) : Option Address :=
  match text.splitOn "]:" with
  | [bracketed, port] =>
    match bracketed.toList with
    | '[' :: inner =>
      match IpAddress.v6? (String.ofList inner), port? port with
      | some ip, some port => some { ip, port }
      | _, _ => none
    | _ => none
  | _ =>
    match text.splitOn ":" with
    | [ip, port] =>
      match IpAddress.v4? ip, port? port with
      | some ip, some port => some { ip, port }
      | _, _ => none
    | _ => none

end Address

end ReliableDatagrams
