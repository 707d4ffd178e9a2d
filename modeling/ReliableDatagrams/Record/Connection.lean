import ReliableDatagrams.Address.Basic
import ReliableDatagrams.Record.Expiry

/-!
# Connection records

The state of one handshake, on the side of the message's sender or on the side of its receiver.
Message ids are chosen by both sides independently, so the own role is part of the key.
-/

namespace ReliableDatagrams

/-- The own part in a handshake. -/
inductive Role where
  | sender
  | receiver
deriving DecidableEq, Repr, Inhabited

namespace Role

def rank : Role → Nat
  | sender => 0
  | receiver => 1

theorem rank_injective {a b : Role} (h : a.rank = b.rank) : a = b := by
  cases a <;> cases b <;> simp_all [rank]

end Role

/-- What identifies a handshake. -/
structure ConnectionKey where
  peer : Address
  messageId : UInt32
  role : Role
deriving DecidableEq, Repr, Inhabited

namespace ConnectionKey

/-- Message id, role and address as numbers, most significant first. -/
def sortKey (key : ConnectionKey) : List Nat :=
  key.messageId.toNat :: key.role.rank :: key.peer.sortKey

theorem sortKey_injective {a b : ConnectionKey} (h : a.sortKey = b.sortKey) : a = b := by
  obtain ⟨hid, hrest⟩ := List.cons.inj h
  obtain ⟨hrole, hpeer⟩ := List.cons.inj hrest
  have hkey := congr (congr (congrArg mk (Address.sortKey_injective hpeer)) (UInt32.toNat_inj.1 hid))
    (Role.rank_injective hrole)
  exact hkey

/-- The order of handshakes: by message id, role and peer. -/
instance : Ord ConnectionKey where
  compare a b :=
    (compare a.messageId.toNat b.messageId.toNat).then
      ((compare a.role.rank b.role.rank).then (compare a.peer b.peer))

theorem compare_eq (a b : ConnectionKey) : compare a b = compare a.sortKey b.sortKey := by
  simp only [sortKey, List.compare_cons_cons]
  rfl

instance : Std.TransOrd ConnectionKey where
  eq_swap := by
    simp only [compare_eq]
    exact Std.OrientedOrd.eq_swap
  isLE_trans := by
    simp only [compare_eq]
    exact Std.TransOrd.isLE_trans

instance : Std.LawfulEqOrd ConnectionKey where
  compare_self := by
    simp only [compare_eq]
    exact Std.ReflOrd.compare_self
  eq_of_compare := by
    simp only [compare_eq]
    exact fun h => sortKey_injective (Std.LawfulEqOrd.eq_of_compare h)

end ConnectionKey

/-- How far a handshake has come. -/
inductive HandshakeStatus where
  | initial
  | synSent
  | synAckSent
  | ackSent
  | closed
deriving DecidableEq, Repr, Inhabited

namespace HandshakeStatus

def all : List HandshakeStatus := [initial, synSent, synAckSent, ackSent, closed]

def rank : HandshakeStatus → Nat
  | initial => 0
  | synSent => 1
  | synAckSent => 2
  | ackSent => 3
  | closed => 4

def ofRank? (rank : Nat) : Option HandshakeStatus :=
  all.find? fun status => status.rank == rank

theorem ofRank?_rank (status : HandshakeStatus) : ofRank? status.rank = some status := by
  cases status <;> rfl

instance : LE HandshakeStatus where
  le a b := a.rank ≤ b.rank

instance (a b : HandshakeStatus) : Decidable (a ≤ b) :=
  inferInstanceAs (Decidable (a.rank ≤ b.rank))

end HandshakeStatus

/-- The record of a handshake. -/
structure ConnectionRecord where
  /-- Tells the record from others that are or were filed under the same key. -/
  serial : Nat
  key : ConnectionKey
  timeout : Nat
  /-- The number of failures that are put up with. -/
  failureBound : UInt32
  isBeingDeleted : Bool := false
  status : HandshakeStatus := .initial
  /-- The frame sent last, kept to be sent again. -/
  lastSent : Option Bytes := none
  failures : UInt32 := 0
  lastInteraction : Nat
deriving DecidableEq, Repr, Inhabited

namespace ConnectionRecord

/-- Counts a failed attempt, and tells whether the bound still holds. The count has 32 bits, and starts
anew when they are used up. -/
def registerFailure (connection : ConnectionRecord) : ConnectionRecord × Bool :=
  let failures := connection.failures + 1
  ({ connection with failures }, failures ≤ connection.failureBound)

def touch (connection : ConnectionRecord) (now : Nat) : ConnectionRecord :=
  { connection with lastInteraction := now }

def idleTime (connection : ConnectionRecord) (now : Nat) : Nat :=
  now - connection.lastInteraction

/-- A sender that still waits for the first answer repeats its frame while the failure bound holds;
every other handshake is given up. -/
def resetOrExpire (connection : ConnectionRecord) (now : Nat) :
    ConnectionRecord × ExpiryAction :=
  match connection.key.role, connection.status, connection.lastSent with
  | .sender, .synSent, some syn =>
    let (connection, withinBound) := connection.registerFailure
    if withinBound then (connection.touch now, .resend syn) else (connection, .expire)
  | _, _, _ => (connection, .expire)

end ConnectionRecord

end ReliableDatagrams
