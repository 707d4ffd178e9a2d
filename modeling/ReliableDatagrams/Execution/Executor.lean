import ReliableDatagrams.Execution.Scheduler
import ReliableDatagrams.Table

/-!
# Executors

An executor drives a scheduler, and a pool if there is one, along one clock. Without a pool the
scheduler itself runs what a tick fires, one job after the other, and handles no tick meanwhile; a
job that fails there ends the scheduler.

To schedule a job or to hand one over takes no waiting: the scheduler reads the request, and the
workers take the job, when the caller rests. All other calls wait for an answer or for a time; they
leave the executor at rest, and what can begin or end by its time has done so.
-/

namespace ReliableDatagrams

/-- Where jobs run that are fired. -/
inductive Backend (α : Type) where
  | pool (pool : WorkerPool α)
  /-- On the scheduler. Jobs without delay are at work beside it, once they have begun. -/
  | scheduler (spawned : List (Job α)) (beside : List (RunningJob α))
deriving Repr, Inhabited

namespace Backend

variable {α : Type}

/-- Ends the jobs that are ready. What was over before `now` is noticed at `now`. -/
def advance (backend : Backend α) (now : Nat) (isReady : RunningJob α → Bool) :
    Backend α × Log α :=
  match backend with
  | pool workers =>
    let (workers, log) := workers.advance now isReady
    (pool workers, log)
  | scheduler spawned beside =>
    let (done, left) := beside.partition isReady
    (scheduler spawned left, done.map fun running => running.noteEnd (max now running.finish))

/-- Begins what can begin at a given time, and ends what takes no time. -/
def settle (backend : Backend α) (now : Nat) : Backend α × Log α :=
  match backend with
  | pool workers =>
    let (workers, log) := workers.settle now
    (pool workers, log)
  | scheduler spawned beside =>
    let begun := spawned.foldl (fun begun job =>
      if job.isBrief then begun else (RunningJob.starting now job).insert begun) beside
    let (backend, log) := (scheduler [] begun).advance now fun running => running.job.duration = 0
    (backend, spawned.map (fun job => job.note now .began) ++ log)

end Backend

/-- How a series of jobs went that ran one after the other. -/
structure SeriesResult (α : Type) where
  finish : Nat
  allEnded : Bool
  log : Log α
deriving Repr

/-- Runs jobs one after the other up to the first that fails. -/
def runSeries {α : Type} (now : Nat) : List (Job α) → SeriesResult α
  | [] => { finish := now, allEnded := true, log := [] }
  | job :: rest =>
    let finish := now + job.duration
    let log :=
      if job.isBrief then [job.note now .began]
      else [job.note now .began, job.note finish job.lastEvent]
    if job.fails then { finish, allEnded := false, log }
    else
      let result := runSeries finish rest
      { result with log := log ++ result.log }

/-- A clock, a scheduler, and what its jobs run on. -/
structure Executor (α : Type) where
  now : Nat := 0
  scheduler : Scheduler α
  backend : Backend α
  /-- How often each label has been fired. -/
  firings : Table α Nat := {}
  /-- What has happened, the latest first. -/
  history : Log α := []
deriving Repr, Inhabited

namespace Executor

variable {α : Type}

def withPool (period workers : Nat) : Executor α :=
  { scheduler := .starting period 0, backend := .pool { size := workers } }

def withoutPool (period : Nat) : Executor α :=
  { scheduler := .starting period 0, backend := .scheduler [] [] }

def record (executor : Executor α) (log : Log α) : Executor α :=
  { executor with history := log.reverse ++ executor.history }

/-- Moves the clock without a tick, and ends the jobs that are ready by then. -/
def advance (executor : Executor α) (time : Nat) (isReady : RunningJob α → Bool) : Executor α :=
  let (backend, log) := executor.backend.advance executor.now isReady
  { executor with backend, now := time }.record log

def advanceTo (executor : Executor α) (time : Nat) : Executor α :=
  executor.advance time fun running => running.finish ≤ time

/-- When the next tick will be handled: at its time, or as soon after it as the clock allows. -/
def tickTime (executor : Executor α) : Nat :=
  max executor.now executor.scheduler.nextTick

/-- A job is over before the next tick is handled. Of things that are due at one time, the one that
was set first comes first: a job's end is set when the job begins, a tick when the one before it is
handled. Only a failing job does not free its worker before all that is due at the time has had its
turn. -/
def endsBeforeTick (executor : Executor α) (running : RunningJob α) : Bool :=
  let tick := executor.scheduler.nextTick
  (running.finish < tick ∨ (running.finish = tick ∧ running.isOlderThanTick)) ∧
    ¬(running.job.fails ∧ max executor.now running.finish = executor.tickTime)

def approachTick (executor : Executor α) : Executor α :=
  executor.advance executor.tickTime executor.endsBeforeTick

/-- Lets the scheduler read its requests, and whoever runs the jobs do what can be done now. -/
def rest (executor : Executor α) : Executor α :=
  let (backend, log) := executor.backend.settle executor.now
  { executor with
    scheduler := executor.scheduler.readCommands executor.now
    backend }.record log

def runDue (executor : Executor α) (due : List (Job α)) : Executor α :=
  match executor.backend with
  | .pool pool =>
    let (pool, log) := (pool.submitAll due).1.settle executor.now
    { executor with backend := .pool pool }.record log
  | .scheduler _ _ =>
    let result := runSeries executor.now due
    let ran := (executor.record result.log).advanceTo result.finish
    if result.allEnded then ran else { ran with scheduler := ran.scheduler.close }

theorem nextTick_runDue (executor : Executor α) (due : List (Job α)) :
    (executor.runDue due).scheduler.nextTick = executor.scheduler.nextTick := by
  simp only [runDue]
  split
  · rfl
  · split <;> rfl

variable [DecidableEq α]

def countFiring (executor : Executor α) (job : Job α) : Executor α × Job α :=
  let firing := (executor.firings.get? job.label).getD 0 + 1
  ({ executor with firings := executor.firings.insert job.label firing }, { job with firing })

def countFirings (executor : Executor α) : List (Job α) → Executor α × List (Job α)
  | [] => (executor, [])
  | job :: rest =>
    let (executor, job) := executor.countFiring job
    let (executor, rest) := executor.countFirings rest
    (executor, job :: rest)

/-- Handles the next tick. With a pool this takes no time. -/
def tick (executor : Executor α) : Executor α :=
  let executor := executor.approachTick
  let (scheduler, due) := executor.scheduler.tick executor.now
  let (executor, due) := { executor with scheduler }.countFirings due
  match executor.backend with
  | .pool pool =>
    { executor with
      scheduler := executor.scheduler.skipTicks executor.now
      backend := .pool pool.noteTick }.runDue due
  | .scheduler _ _ => executor.runDue due

theorem scheduler_countFirings (executor : Executor α) (jobs : List (Job α)) :
    (executor.countFirings jobs).1.scheduler = executor.scheduler := by
  induction jobs generalizing executor with
  | nil => rfl
  | cons job rest ih => simp only [countFirings, ih]; rfl

theorem nextTick_tick (executor : Executor α) :
    executor.scheduler.nextTick + executor.scheduler.period ≤ executor.tick.scheduler.nextTick := by
  have htick : executor.scheduler.nextTick + executor.scheduler.period ≤
      (executor.approachTick.scheduler.tick executor.approachTick.now).1.nextTick :=
    executor.scheduler.nextTick_tick _
  simp only [tick]
  split
  · simp only [nextTick_runDue, scheduler_countFirings]
    exact Nat.le_trans htick (Scheduler.nextTick_skipTicks _ _)
  · simpa only [nextTick_runDue, scheduler_countFirings] using htick

def runTicks (executor : Executor α) (limit : Nat) : Executor α :=
  if executor.scheduler.isOpen ∧ 0 < executor.scheduler.period ∧
      executor.scheduler.nextTick ≤ limit then
    executor.tick.runTicks limit
  else executor
termination_by limit + 1 - executor.scheduler.nextTick
decreasing_by
  have := nextTick_tick executor
  omega

/-- Lets time pass up to the given time, and then until the scheduler is free. -/
def sleepUntil (executor : Executor α) (time : Nat) : Executor α :=
  let ticked := executor.rest.runTicks time
  let rested := ticked.advanceTo (max ticked.now time)
  rested.runTicks rested.now

/-- Moves the clock in one leap. What became due meanwhile happens at the new time. -/
def stall (executor : Executor α) (duration : Nat) : Executor α :=
  let late := { executor with now := executor.now + duration }
  late.sleepUntil late.now

/-- Hands jobs to the pool, and tells for each what came of it. Without a pool none is taken. -/
def submitAll (executor : Executor α) (jobs : List (Job α)) :
    Executor α × List (Except SubmitError Unit) :=
  match executor.backend with
  | .pool pool =>
    let (pool, results) := pool.submitAll jobs
    ({ executor with backend := .pool pool }, results)
  | .scheduler _ _ => (executor, jobs.map fun _ => .error .poolIsDown)

def fireNow (executor : Executor α) (job : Job α) : Except ScheduleError (Executor α) :=
  let (executor, job) := executor.countFiring job
  match executor.backend with
  | .pool pool =>
    match pool.submit job with
    | .error error => .error (.refused error)
    | .ok pool => .ok { executor with backend := .pool pool }
  | .scheduler spawned beside =>
    if executor.scheduler.isOpen then
      .ok { executor with backend := .scheduler (spawned ++ [job]) beside }
    else .error .schedulerIsDown

/-- Schedules a job. A handle is drawn for every job that may be scheduled at all. -/
def schedule (executor : Executor α) (job : Job α) (delay : Nat) (repeats : Bool) :
    Executor α × Except ScheduleError ScheduleHandle :=
  if delay = 0 ∧ repeats then (executor, .error .repeatsWithoutDelay)
  else
    let (scheduler, handle) := executor.scheduler.drawHandle
    let executor := { executor with scheduler }
    if delay = 0 then
      match executor.fireNow job with
      | .ok executor => (executor, .ok handle)
      | .error error => (executor, .error error)
    else if scheduler.isOpen then
      let scheduler := scheduler.send { handle, job, delay, repeats }
      ({ executor with scheduler }, .ok handle)
    else (executor, .error .schedulerIsDown)

/-- Removes an entry of the scheduler, and tells whether it was pending. -/
def cancel (executor : Executor α) (handle : ScheduleHandle) : Executor α × Bool :=
  let executor := executor.rest
  let (scheduler, wasPending) := executor.scheduler.cancel handle
  ({ executor with scheduler }, wasPending)

/-- Shuts the scheduler down. What it has handed over goes on. -/
def shutDownScheduler (executor : Executor α) : Executor α :=
  let executor := executor.rest
  { executor with scheduler := executor.scheduler.close }

/-- Shuts the pool down, if there is one, and waits for its running jobs. -/
def shutDownPool (executor : Executor α) : Executor α :=
  match executor.backend with
  | .pool pool =>
    { executor with backend := .pool pool.close }.sleepUntil (pool.lastFinish executor.now)
  | .scheduler _ _ => executor

def pool? (executor : Executor α) : Option (WorkerPool α) :=
  match executor.backend with
  | .pool pool => some pool
  | .scheduler _ _ => none

/-- What has happened since the history was drained, the earliest first, and a new history. -/
def drain (executor : Executor α) : Executor α × Log α :=
  ({ executor with history := [] }, executor.history.reverse)

end Executor

end ReliableDatagrams
