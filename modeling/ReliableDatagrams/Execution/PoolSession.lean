import ReliableDatagrams.Execution.WorkerPool

/-!
# A pool and its clock

The steps that are taken with a pool from outside: to hand jobs over, to let time pass, to shut the
pool down. After each of them everything is done that can be done at the time.
-/

namespace ReliableDatagrams

/-- A pool and the time. -/
structure PoolSession (α : Type) where
  pool : WorkerPool α
  now : Nat := 0
deriving Repr, Inhabited

inductive PoolStep (α : Type) where
  /-- All jobs are handed over before any of them begins. -/
  | submit (jobs : List (Job α))
  | sleep (duration : Nat)
  /-- Waits for the running jobs. -/
  | shutDown
deriving Repr

namespace PoolSession

variable {α : Type}

def advanceTo (session : PoolSession α) (time : Nat) : PoolSession α × Log α :=
  let (pool, log) := session.pool.runUntil session.now time
  ({ pool, now := time }, log)

/-- Takes a step, and tells what came of each job that it handed over. -/
def perform (session : PoolSession α) :
    PoolStep α → PoolSession α × List (Except SubmitError Unit) × Log α
  | .submit jobs =>
    let (pool, results) := session.pool.submitAll jobs
    let (session, log) := { session with pool }.advanceTo session.now
    (session, results, log)
  | .sleep duration =>
    let (session, log) := session.advanceTo (session.now + duration)
    (session, [], log)
  | .shutDown =>
    let closed := { session with pool := session.pool.close }
    let (session, log) := closed.advanceTo (closed.pool.lastFinish closed.now)
    (session, [], log)

end PoolSession

end ReliableDatagrams
