/-!
# Jobs

A job takes some time, and hands over the jobs it spawns when it begins. `jobCount` counts what a
queue of jobs brings about in all; it bounds every run of the queue.
-/

namespace ReliableDatagrams

/-- A piece of work. -/
structure Job (α : Type) where
  label : α
  /-- Which firing of the label a scheduler has made this job for; 0 if none has. -/
  firing : Nat := 0
  duration : Nat := 0
  /-- The job does not come to its regular end. -/
  fails : Bool := false
  /-- The jobs that are handed over when this one begins. -/
  spawns : List (Job α) := []
deriving Repr, Inhabited

mutual

/-- The number of jobs that a job stands for: itself and all that it brings about. -/
def Job.count {α : Type} : Job α → Nat
  | ⟨_, _, _, _, spawns⟩ => jobCount spawns + 1

def jobCount {α : Type} : List (Job α) → Nat
  | [] => 0
  | job :: rest => job.count + jobCount rest

end

theorem Job.count_eq {α : Type} (job : Job α) : job.count = jobCount job.spawns + 1 := by
  cases job
  simp [Job.count]

theorem jobCount_append {α : Type} (jobs more : List (Job α)) :
    jobCount (jobs ++ more) = jobCount jobs + jobCount more := by
  induction jobs with
  | nil => simp [jobCount]
  | cons job rest ih => simp [jobCount, ih, Nat.add_assoc]

/-- What happens to a job. -/
inductive JobEvent where
  | began
  | ended
  | failed
deriving DecidableEq, Repr, Inhabited

/-- An event of a job, and when it happened. -/
structure LogEntry (α : Type) where
  time : Nat
  label : α
  firing : Nat := 0
  event : JobEvent
deriving DecidableEq, Repr, Inhabited

/-- The events of a run, in the order in which they were noted. -/
abbrev Log (α : Type) := List (LogEntry α)

namespace Job

variable {α : Type}

def note (job : Job α) (time : Nat) (event : JobEvent) : LogEntry α :=
  { time, label := job.label, firing := job.firing, event }

def lastEvent (job : Job α) : JobEvent :=
  if job.fails then .failed else .ended

/-- The job is over when it has begun, and whoever does it can go on with the next one. A job that
fails never is: even without any work it takes its worker along. -/
def isBrief (job : Job α) : Bool :=
  job.duration = 0 ∧ !job.fails

end Job

/-- A job at work, and when it will be over. -/
structure RunningJob (α : Type) where
  finish : Nat
  job : Job α
  /-- The job was at work already when the scheduler's clock last ticked. -/
  isOlderThanTick : Bool := false
deriving Repr, Inhabited

namespace RunningJob

variable {α : Type}

/-- Adds a job to a list that is sorted by the time when a job is over. Of jobs that are over at the
same time, those that began first come first. -/
def insert (running : RunningJob α) : List (RunningJob α) → List (RunningJob α)
  | [] => [running]
  | other :: rest =>
    if running.finish < other.finish then running :: other :: rest
    else other :: insert running rest

@[simp] theorem length_insert (running : RunningJob α) (others : List (RunningJob α)) :
    (insert running others).length = others.length + 1 := by
  induction others with
  | nil => rfl
  | cons other rest ih =>
    by_cases h : running.finish < other.finish <;> simp [insert, h, ih]

def starting (now : Nat) (job : Job α) : RunningJob α :=
  { finish := now + job.duration, job }

def noteEnd (running : RunningJob α) (now : Nat) : LogEntry α :=
  running.job.note now running.job.lastEvent

end RunningJob

end ReliableDatagrams
