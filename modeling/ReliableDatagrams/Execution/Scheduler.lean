import ReliableDatagrams.Execution.WorkerPool

/-!
# Schedulers

A job is scheduled by a request, which a scheduler enters when it reads it. It wakes up at regular
ticks. A tick credits the time since the last one, or since the request was read, to every entry and
fires the entries whose delay is used up: those that repeat start anew, the others are removed. Ticks
are the only times at which anything fires, so a tick that comes late fires an entry once, however
many of its delays have passed.
-/

namespace ReliableDatagrams

/-- The number that a scheduler gives to what it accepts. -/
structure ScheduleHandle where
  number : Nat
deriving DecidableEq, Repr, Inhabited

def ScheduleHandle.text (handle : ScheduleHandle) : String :=
  "ScheduleHandle(" ++ toString handle.number ++ ")"

/-- A job that is to be fired after a delay. -/
structure ScheduleRequest (α : Type) where
  handle : ScheduleHandle
  job : Job α
  delay : Nat
  repeats : Bool
deriving Repr, Inhabited

/-- A job that waits for its time. -/
structure ScheduleEntry (α : Type) extends ScheduleRequest α where
  /-- The part of the delay that has passed by `creditedAt`. -/
  credit : Nat := 0
  creditedAt : Nat
deriving Repr, Inhabited

/-- The entry for a request that is read at the given time. -/
def ScheduleRequest.enter {α : Type} (request : ScheduleRequest α) (now : Nat) : ScheduleEntry α :=
  { request with creditedAt := now }

namespace ScheduleEntry

variable {α : Type}

def creditUntil (entry : ScheduleEntry α) (now : Nat) : ScheduleEntry α :=
  { entry with credit := entry.credit + (now - entry.creditedAt), creditedAt := now }

def isDue (entry : ScheduleEntry α) : Bool :=
  entry.delay ≤ entry.credit

/-- What stays of an entry after a tick that has credited it. -/
def afterTick (entry : ScheduleEntry α) : Option (ScheduleEntry α) :=
  if entry.isDue then
    if entry.repeats then some { entry with credit := 0 } else none
  else some entry

end ScheduleEntry

/-- Jobs that are fired at ticks, in the order of their handles. -/
structure Scheduler (α : Type) where
  period : Nat
  nextTick : Nat
  /-- Requests that were not read yet. -/
  commands : List (ScheduleRequest α) := []
  entries : List (ScheduleEntry α) := []
  nextHandle : Nat := 1
  isOpen : Bool := true
deriving Repr, Inhabited

/-- Why a job is not scheduled. -/
inductive ScheduleError where
  | repeatsWithoutDelay
  | schedulerIsDown
  /-- A job without delay goes to the pool at once, which does not take it. -/
  | refused (error : SubmitError)
deriving DecidableEq, Repr, Inhabited

def ScheduleError.message : ScheduleError → String
  | repeatsWithoutDelay => "a repeating task requires a non-zero delay"
  | schedulerIsDown => "scheduler is shut down"
  | refused error => error.message

namespace Scheduler

variable {α : Type}

/-- A tick that is handled later than by this moves all later ones. -/
def tolerance : Nat := 5

/-- A scheduler that has handled the tick at its start. Without a period it cannot tick, and is shut
down from the start. -/
def starting (period now : Nat) : Scheduler α :=
  { period, nextTick := now + period, isOpen := 0 < period }

def tick (scheduler : Scheduler α) (now : Nat) : Scheduler α × List (Job α) :=
  let credited := scheduler.entries.map fun entry => entry.creditUntil now
  let isLate := scheduler.nextTick + tolerance < now
  ({ scheduler with
      entries := credited.filterMap ScheduleEntry.afterTick
      nextTick := (if isLate then now else scheduler.nextTick) + scheduler.period },
    (credited.filter ScheduleEntry.isDue).map fun entry => entry.job)

theorem nextTick_tick (scheduler : Scheduler α) (now : Nat) :
    scheduler.nextTick + scheduler.period ≤ (scheduler.tick now).1.nextTick := by
  simp only [tick]
  split <;> omega

/-- Passes over the ticks that are due as well. Directly after a tick no entry is due, so that they
would fire nothing. -/
def skipTicks (scheduler : Scheduler α) (now : Nat) : Scheduler α :=
  if scheduler.nextTick ≤ now then
    { scheduler with
      nextTick := now + scheduler.period - (now - scheduler.nextTick) % scheduler.period }
  else scheduler

theorem nextTick_skipTicks (scheduler : Scheduler α) (now : Nat) :
    scheduler.nextTick ≤ (scheduler.skipTicks now).nextTick := by
  have := Nat.mod_le (now - scheduler.nextTick) scheduler.period
  simp only [skipTicks]
  split
  · simp only
    omega
  · exact Nat.le_refl _

def drawHandle (scheduler : Scheduler α) : Scheduler α × ScheduleHandle :=
  ({ scheduler with nextHandle := scheduler.nextHandle + 1 }, ⟨scheduler.nextHandle⟩)

def send (scheduler : Scheduler α) (request : ScheduleRequest α) : Scheduler α :=
  { scheduler with commands := scheduler.commands ++ [request] }

/-- Reads the requests and enters them, from the given time on. -/
def readCommands (scheduler : Scheduler α) (now : Nat) : Scheduler α :=
  { scheduler with
    entries := scheduler.entries ++ scheduler.commands.map fun request => request.enter now
    commands := [] }

def isPending (scheduler : Scheduler α) (handle : ScheduleHandle) : Bool :=
  scheduler.entries.any fun entry => entry.handle = handle

def cancel (scheduler : Scheduler α) (handle : ScheduleHandle) : Scheduler α × Bool :=
  ({ scheduler with entries := scheduler.entries.filter fun entry => entry.handle ≠ handle },
    scheduler.isPending handle)

def pendingCount (scheduler : Scheduler α) : Nat :=
  scheduler.entries.length + scheduler.commands.length

def close (scheduler : Scheduler α) : Scheduler α :=
  { scheduler with isOpen := false, commands := [], entries := [] }

end Scheduler

end ReliableDatagrams
