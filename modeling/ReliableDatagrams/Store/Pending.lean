import ReliableDatagrams.Record.Basic
import Std.Data.ExtTreeMap

/-!
# Deferred deletion

A record that was taken out of the store may still be in use. It waits in a pool, and a sweep frees
it once its grace period is over and nothing else refers to it. A record that was added twice is
referred to from the pool twice, and is never freed.
-/

namespace ReliableDatagrams

/-- A record that waits to be freed, and since when. -/
structure PendingEntry where
  record : Record
  since : Nat
  /-- How often the record was added to the pool. -/
  count : Nat := 1
deriving DecidableEq, Repr, Inhabited

namespace PendingEntry

def addAgain (entry : PendingEntry) : PendingEntry :=
  { entry with count := entry.count + 1 }

/-- The grace period is over, and neither the rest of the pool nor anybody else refers to the
record. -/
def canFree (entry : PendingEntry) (now gracePeriod : Nat) (isHeld : Bool) : Bool :=
  !isHeld && entry.count ≤ 1 && gracePeriod ≤ now - entry.since

end PendingEntry

/-- The records that wait to be freed, by their serial numbers. -/
structure PendingPool where
  entries : Std.ExtTreeMap Nat PendingEntry := {}
deriving DecidableEq, Repr, Inhabited

namespace PendingPool

def empty : PendingPool := {}

def size (pool : PendingPool) : Nat :=
  pool.entries.values.foldr (fun entry total => entry.count + total) 0

def isEmpty (pool : PendingPool) : Bool :=
  pool.entries.isEmpty

def add (pool : PendingPool) (now : Nat) (record : Record) : PendingPool :=
  ⟨pool.entries.insert record.serial
    ((pool.entries[record.serial]?).elim ⟨record, now, 1⟩ PendingEntry.addAgain)⟩

/-- Frees what can be freed and tells how many records that were. -/
def sweep (pool : PendingPool) (now gracePeriod : Nat) (isHeld : Nat → Bool) :
    PendingPool × Nat :=
  let kept := pool.entries.filter fun serial entry =>
    !entry.canFree now gracePeriod (isHeld serial)
  (⟨kept⟩, pool.entries.size - kept.size)

def modify (pool : PendingPool) (serial : Nat) (change : Record → Record) : PendingPool :=
  ⟨pool.entries.modify serial fun entry => { entry with record := change entry.record }⟩

def find? (pool : PendingPool) (serial : Nat) : Option Record :=
  (pool.entries[serial]?).map PendingEntry.record

end PendingPool

end ReliableDatagrams
