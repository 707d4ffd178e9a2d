import ReliableDatagrams.Execution.Executor

/-!
# Steps with a scheduler

The steps that are taken with a scheduler from outside, each with a rest behind it. Entries are
cancelled by the label of their jobs, which stands for the latest one that was scheduled with it.
-/

namespace ReliableDatagrams

/-- An executor, and the latest handle for each label. -/
structure SchedulerSession (α : Type) where
  executor : Executor α
  handles : Table α ScheduleHandle := {}
deriving Repr, Inhabited

inductive SchedulerStep (α : Type) where
  | schedule (job : Job α) (delay : Nat) (repeats : Bool)
  | cancel (label : α)
  | sleep (duration : Nat)
  | stall (duration : Nat)
  | shutDownScheduler
  | shutDownPool
  /-- Only looks. -/
  | inspect
deriving Repr

/-- What a step answers. -/
inductive SchedulerAnswer where
  | done
  | flag (value : Bool)
  | scheduled (result : Except ScheduleError ScheduleHandle)
deriving Repr

namespace SchedulerSession

variable {α : Type} [DecidableEq α]

def continueWith (session : SchedulerSession α) (executor : Executor α) :
    SchedulerSession α × SchedulerAnswer :=
  ({ session with executor }, .done)

def call (session : SchedulerSession α) : SchedulerStep α → SchedulerSession α × SchedulerAnswer
  | .schedule job delay repeats =>
    match session.executor.schedule job delay repeats with
    | (executor, .ok handle) =>
      ({ executor, handles := session.handles.insert job.label handle }, .scheduled (.ok handle))
    | (executor, .error error) => ({ session with executor }, .scheduled (.error error))
  | .cancel label =>
    match session.handles.get? label with
    | some handle =>
      let (executor, wasPending) := session.executor.cancel handle
      ({ session with executor }, .flag wasPending)
    | none => (session, .flag false)
  | .sleep duration =>
    session.continueWith (session.executor.sleepUntil (session.executor.now + duration))
  | .stall duration => session.continueWith (session.executor.stall duration)
  | .shutDownScheduler => session.continueWith session.executor.shutDownScheduler
  | .shutDownPool => session.continueWith session.executor.shutDownPool
  | .inspect => (session, .done)

def perform (session : SchedulerSession α) (step : SchedulerStep α) :
    SchedulerSession α × SchedulerAnswer :=
  let (session, answer) := session.call step
  ({ session with executor := session.executor.rest }, answer)

end SchedulerSession

end ReliableDatagrams
