/-!
# Message ids

Reliable messages are numbered by a counter of 32 bits that wraps around and skips 0, which stands
for no message.
-/

namespace ReliableDatagrams

/-- The counter that message ids are drawn from. -/
structure MessageIds where
  next : UInt32
deriving DecidableEq, Repr, Inhabited

namespace MessageIds

def draw (ids : MessageIds) : UInt32 × MessageIds :=
  if ids.next = 0 then (1, ⟨2⟩) else (ids.next, ⟨ids.next + 1⟩)

def drawMany : (count : Nat) → MessageIds → List UInt32
  | 0, _ => []
  | count + 1, ids =>
    let (id, ids) := ids.draw
    id :: drawMany count ids

end MessageIds

end ReliableDatagrams
