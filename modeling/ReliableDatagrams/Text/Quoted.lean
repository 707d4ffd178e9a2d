import ReliableDatagrams.Text.Unprintable
import ReliableDatagrams.Wire.Hex

/-!
# Quoted text

A text between double quotes, with the characters escaped that would end it or could not be seen.
-/

namespace ReliableDatagrams

namespace Text

def escape (c : Char) : String :=
  if c = '"' then "\\\""
  else if c = '\\' then "\\\\"
  else if c = '\n' then "\\n"
  else if c = '\r' then "\\r"
  else if c = '\t' then "\\t"
  else if c.toNat = 0 then "\\0"
  else if isUnprintable c then "\\u\x7b" ++ Hex.padded 1 c.toNat ++ "\x7d"
  else c.toString

def quoted (text : String) : String :=
  "\"" ++ String.join (text.toList.map escape) ++ "\""

end Text

end ReliableDatagrams
