import ReliableDatagrams.Execution.Job

/-!
# Worker pools

A pool has a fixed number of places and one queue, first come first served. Each place has a
supervisor, which hires a worker for it, and another one when a failing job takes the worker along.
Workers wait in one line for the receiver of the queue; those in line are idle. A shutdown gets in
this line, too, to discard what is queued; workers leave when they find that the pool is down. The
pool counts its workers, the idle ones and the queued jobs where they come and go.

What one party does until it waits again is one function. `next?` is such a step that can be taken at
once, `fill` takes all of them, and `advance` follows the running jobs to their ends. `load` bounds the
steps that are left: each one takes something from it.
-/

namespace ReliableDatagrams

/-- Who waits for the receiver of the queue. -/
inductive Waiting where
  | worker
  | shutdown
deriving DecidableEq, Repr, Inhabited

/-- A number of workers that share a queue. -/
structure WorkerPool (α : Type) where
  size : Nat
  queue : List (Job α) := []
  /-- Sorted by the time of their end. -/
  running : List (RunningJob α) := []
  isDown : Bool := false
  workerCount : Nat := 0
  idleCount : Nat := 0
  queuedCount : Nat := 0
  /-- Places for which no worker was hired yet. -/
  vacancies : Nat := size
  /-- Workers that are about to get in line. -/
  arriving : Nat := 0
  /-- The first has the receiver. -/
  line : List Waiting := []
  /-- Places whose worker was taken along by a failing job. -/
  bereft : Nat := 0
  /-- Places whose worker has left. -/
  left : Nat := 0
  /-- Places whose supervisor is done. -/
  gone : Nat := 0
deriving Repr, Inhabited

/-- A job is handed to a pool that is shut down. -/
inductive SubmitError where
  | poolIsDown
deriving DecidableEq, Repr, Inhabited

def SubmitError.message : SubmitError → String
  | poolIsDown => "worker pool is shut down"

namespace WorkerPool

variable {α : Type}

def submit (pool : WorkerPool α) (job : Job α) : Except SubmitError (WorkerPool α) :=
  if pool.isDown then .error .poolIsDown
  else .ok { pool with queue := pool.queue ++ [job], queuedCount := pool.queuedCount + 1 }

/-- Queues jobs one after the other, and tells for each what came of it. -/
def submitAll (pool : WorkerPool α) : List (Job α) → WorkerPool α × List (Except SubmitError Unit)
  | [] => (pool, [])
  | job :: rest =>
    match pool.submit job with
    | .ok pool =>
      let (pool, results) := pool.submitAll rest
      (pool, .ok () :: results)
    | .error error =>
      let (pool, results) := pool.submitAll rest
      (pool, .error error :: results)

def hire (pool : WorkerPool α) : WorkerPool α :=
  { pool with
    vacancies := pool.vacancies - 1
    workerCount := pool.workerCount + 1
    arriving := pool.arriving + 1 }

/-- A supervisor without a worker hires another one, unless the pool is down. -/
def replace (pool : WorkerPool α) : WorkerPool α :=
  if pool.isDown then { pool with bereft := pool.bereft - 1, gone := pool.gone + 1 }
  else
    { pool with
      bereft := pool.bereft - 1
      workerCount := pool.workerCount + 1
      arriving := pool.arriving + 1 }

def lineUp (pool : WorkerPool α) : WorkerPool α :=
  if pool.isDown then
    { pool with
      arriving := pool.arriving - 1
      workerCount := pool.workerCount - 1
      left := pool.left + 1 }
  else
    { pool with
      arriving := pool.arriving - 1
      idleCount := pool.idleCount + 1
      line := pool.line ++ [.worker] }

def dismiss (pool : WorkerPool α) (others : List Waiting) : WorkerPool α :=
  { pool with
    line := others
    idleCount := pool.idleCount - 1
    workerCount := pool.workerCount - 1
    left := pool.left + 1 }

/-- The shutdown has the receiver, and discards what is queued. -/
def discard (pool : WorkerPool α) (others : List Waiting) : WorkerPool α :=
  { pool with line := others, queuedCount := pool.queuedCount - pool.queue.length, queue := [] }

/-- A supervisor learns that its worker has left, and is done. -/
def discharge (pool : WorkerPool α) : WorkerPool α :=
  { pool with left := pool.left - 1, gone := pool.gone + 1 }

/-- The worker that has the receiver takes the first job of the queue. The job hands over those that
it spawns, and if it is brief, the worker is free again. -/
def take (pool : WorkerPool α) (now : Nat) (others : List Waiting) (job : Job α)
    (rest : List (Job α)) : WorkerPool α :=
  let taken :=
    { pool with
      line := others
      idleCount := pool.idleCount - 1
      queue := rest ++ job.spawns
      queuedCount := pool.queuedCount - 1 + job.spawns.length }
  if job.isBrief then { taken with arriving := pool.arriving + 1 }
  else { taken with running := (RunningJob.starting now job).insert pool.running }

def finish (pool : WorkerPool α) (done : RunningJob α) (others : List (RunningJob α)) :
    WorkerPool α :=
  if done.job.fails then
    { pool with
      running := others
      workerCount := pool.workerCount - 1
      bereft := pool.bereft + 1 }
  else { pool with running := others, arriving := pool.arriving + 1 }

@[simp] theorem queue_finish (pool : WorkerPool α) (done : RunningJob α)
    (others : List (RunningJob α)) : (pool.finish done others).queue = pool.queue := by
  unfold finish
  split <;> rfl

@[simp] theorem running_finish (pool : WorkerPool α) (done : RunningJob α)
    (others : List (RunningJob α)) : (pool.finish done others).running = others := by
  unfold finish
  split <;> rfl

/-- Calls for a shutdown: no more jobs are accepted, and the shutdown gets in line. Only the first
call does anything. -/
def close (pool : WorkerPool α) : WorkerPool α :=
  if pool.isDown then pool
  else { pool with isDown := true, line := pool.line ++ [.shutdown] }

@[simp] theorem isDown_close (pool : WorkerPool α) : pool.close.isDown = true := by
  unfold close
  split
  · assumption
  · rfl

@[simp] theorem running_close (pool : WorkerPool α) : pool.close.running = pool.running := by
  unfold close
  split <;> rfl

/-- A shutdown returns when it has had the receiver and all supervisors are done. -/
def hasShutDown (pool : WorkerPool α) : Bool :=
  pool.isDown ∧ .shutdown ∉ pool.line ∧ pool.gone = pool.size

def next? (pool : WorkerPool α) (now : Nat) : Option (WorkerPool α × Log α) :=
  if 0 < pool.vacancies then some (pool.hire, [])
  else if 0 < pool.bereft then some (pool.replace, [])
  else if 0 < pool.arriving then some (pool.lineUp, [])
  else if 0 < pool.left then some (pool.discharge, [])
  else
    match pool.line with
    | [] => none
    | .shutdown :: others => some (pool.discard others, [])
    | .worker :: others =>
      if pool.isDown then some (pool.dismiss others, [])
      else
        match pool.queue with
        | [] => none
        | job :: rest => some (pool.take now others job rest, [job.note now .began])

def load (pool : WorkerPool α) : Nat :=
  4 * jobCount pool.queue + 5 * pool.running.length + 4 * (pool.vacancies + pool.bereft) +
    3 * pool.arriving + 2 * pool.line.length + pool.left

theorem load_hire {pool : WorkerPool α} (h : 0 < pool.vacancies) : pool.hire.load < pool.load := by
  simp only [hire, load]
  omega

theorem load_replace {pool : WorkerPool α} (h : 0 < pool.bereft) :
    pool.replace.load < pool.load := by
  simp only [replace]
  split <;> simp only [load] <;> omega

theorem load_lineUp {pool : WorkerPool α} (h : 0 < pool.arriving) : pool.lineUp.load < pool.load := by
  simp only [lineUp]
  split <;> simp only [load, List.length_append, List.length_singleton] <;> omega

theorem load_discharge {pool : WorkerPool α} (h : 0 < pool.left) :
    pool.discharge.load < pool.load := by
  simp only [discharge, load]
  omega

theorem load_dismiss {pool : WorkerPool α} {others : List Waiting}
    (h : pool.line.length = others.length + 1) : (pool.dismiss others).load < pool.load := by
  simp only [dismiss, load]
  omega

theorem load_discard {pool : WorkerPool α} {others : List Waiting}
    (h : pool.line.length = others.length + 1) : (pool.discard others).load < pool.load := by
  simp only [discard, load, jobCount]
  omega

theorem load_take {pool : WorkerPool α} {others : List Waiting} {job : Job α} {rest : List (Job α)}
    (hline : pool.line.length = others.length + 1) (hqueue : pool.queue = job :: rest) (now : Nat) :
    (pool.take now others job rest).load < pool.load := by
  have := job.count_eq
  simp only [take]
  split <;>
    simp only [load, hline, hqueue, jobCount, jobCount_append, RunningJob.length_insert] <;> omega

theorem load_finish {pool : WorkerPool α} {done : RunningJob α} {others : List (RunningJob α)}
    (h : others.length < pool.running.length) : (pool.finish done others).load < pool.load := by
  simp only [finish]
  split <;> simp only [load] <;> omega

theorem load_next? {pool next : WorkerPool α} {now : Nat} {noted : Log α}
    (h : pool.next? now = some (next, noted)) : next.load < pool.load := by
  simp only [next?] at h
  split at h
  · rename_i hvacant
    cases h
    exact load_hire hvacant
  split at h
  · rename_i hbereft
    cases h
    exact load_replace hbereft
  split at h
  · rename_i harriving
    cases h
    exact load_lineUp harriving
  split at h
  · rename_i hleft
    cases h
    exact load_discharge hleft
  split at h
  · cases h
  · rename_i hline
    cases h
    exact load_discard (congrArg List.length hline)
  · rename_i hline
    split at h
    · cases h
      exact load_dismiss (congrArg List.length hline)
    split at h
    · cases h
    · rename_i hqueue
      cases h
      exact load_take (congrArg List.length hline) hqueue now

def fill (pool : WorkerPool α) (now : Nat) : WorkerPool α × Log α :=
  match _h : pool.next? now with
  | none => (pool, [])
  | some (next, noted) =>
    let (filled, log) := next.fill now
    (filled, noted ++ log)
termination_by pool.load
decreasing_by exact load_next? _h

theorem next?_of_empty {pool next : WorkerPool α} {now : Nat} {noted : Log α}
    (h : pool.next? now = some (next, noted)) (hempty : pool.queue = []) :
    next.queue = [] ∧ next.running = pool.running ∧ noted = [] := by
  simp only [next?, hempty] at h
  split at h
  · cases h
    exact ⟨hempty, rfl, rfl⟩
  split at h
  · cases h
    unfold replace
    split <;> exact ⟨hempty, rfl, rfl⟩
  split at h
  · cases h
    unfold lineUp
    split <;> exact ⟨hempty, rfl, rfl⟩
  split at h
  · cases h
    exact ⟨hempty, rfl, rfl⟩
  split at h
  · cases h
  · cases h
    exact ⟨rfl, rfl, rfl⟩
  · split at h
    · cases h
      exact ⟨hempty, rfl, rfl⟩
    · cases h

/-- Without queued jobs the workers get in line, and that is all. -/
theorem fill_of_empty {pool : WorkerPool α} (h : pool.queue = []) (now : Nat) :
    (pool.fill now).1.queue = [] ∧ (pool.fill now).1.running = pool.running ∧
      (pool.fill now).2 = [] := by
  fun_induction fill pool now with
  | case1 => exact ⟨h, rfl, rfl⟩
  | case2 pool next noted hnext filled log hfill ih =>
    obtain ⟨hqueue, hrunning, rfl⟩ := next?_of_empty hnext h
    rw [hfill] at ih
    obtain ⟨hleft, hsame, rfl⟩ := ih hqueue
    exact ⟨hleft, hsame.trans hrunning, rfl⟩

theorem load_fill_le (pool : WorkerPool α) (now : Nat) : (pool.fill now).1.load ≤ pool.load := by
  fun_induction fill pool now with
  | case1 => exact Nat.le_refl _
  | case2 pool next noted h filled log hfill ih =>
    rw [hfill] at ih
    exact Nat.le_trans ih (Nat.le_of_lt (load_next? h))

/-- Ends running jobs as long as one of them is ready, the first of them each time, and does what can
be done then. What was over before `now` is noticed at `now`. -/
def advance (pool : WorkerPool α) (now : Nat) (isReady : RunningJob α → Bool) :
    WorkerPool α × Log α :=
  match _h : pool.running.find? isReady with
  | none => (pool, [])
  | some first =>
    let time := max now first.finish
    let filled := (pool.finish first (pool.running.eraseP isReady)).fill time
    let advanced := filled.1.advance time isReady
    (advanced.1, first.noteEnd time :: filled.2 ++ advanced.2)
termination_by pool.load
decreasing_by
  have hlt : (pool.running.eraseP isReady).length < pool.running.length := by
    have hmem := List.mem_of_find?_eq_some _h
    have := List.length_eraseP_of_mem hmem (List.find?_some _h)
    have := List.length_pos_of_mem hmem
    omega
  exact Nat.lt_of_le_of_lt (load_fill_le _ _) (load_finish hlt)

theorem advance_of_idle {pool : WorkerPool α} (h : pool.running = []) (now : Nat)
    (isReady : RunningJob α → Bool) : pool.advance now isReady = (pool, []) := by
  rw [advance]
  split
  · rfl
  · rename_i hfound
    rw [h] at hfound
    cases hfound

def runUntil (pool : WorkerPool α) (now time : Nat) : WorkerPool α × Log α :=
  let (pool, begun) := pool.fill now
  let (pool, log) := pool.advance now fun running => running.finish ≤ time
  (pool, begun ++ log)

/-- Begins what can begin at a given time, and ends what takes no time. -/
def settle (pool : WorkerPool α) (now : Nat) : WorkerPool α × Log α :=
  let (pool, begun) := pool.fill now
  let (pool, log) := pool.advance now fun running => running.job.duration = 0
  (pool, begun ++ log)

theorem settle_of_idle {pool : WorkerPool α} (hqueue : pool.queue = []) (hrunning : pool.running = [])
    (now : Nat) :
    (pool.settle now).1.queue = [] ∧ (pool.settle now).1.running = [] ∧ (pool.settle now).2 = [] := by
  obtain ⟨hleft, hsame, hnothing⟩ := fill_of_empty hqueue now
  have hidle := hsame.trans hrunning
  simp only [settle, advance_of_idle hidle, hnothing]
  exact ⟨hleft, hidle, rfl⟩

def noteTick (pool : WorkerPool α) : WorkerPool α :=
  { pool with running := pool.running.map fun running => { running with isOlderThanTick := true } }

/-- When the last running job is over; the given time if none is running. -/
def lastFinish (pool : WorkerPool α) (now : Nat) : Nat :=
  pool.running.foldl (fun time running => max time running.finish) now

end WorkerPool

end ReliableDatagrams
