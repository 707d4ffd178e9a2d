import Mathlib.Data.List.Infix
import ReliableDatagrams.Execution.PoolSession

/-!
# Pools serve in order

Supervisors, workers, jobs and a shutdown take turns in any order while time passes. `WorkMove` lists
what each of them can do until it waits again, and a `WorkRun` is any sequence of such moves. Two things
are kept by all of them. The counters show how the places of the pool are filled and what is queued
(`IsStaffed`). The jobs that were accepted are those that have begun, in their order, and behind them
those in the queue (`Accounts`). What a pool does from one call to the next is one of these runs, at the
end of which nothing more can be done.
-/

namespace ReliableDatagrams.Proofs

variable {α : Type}

/-- What happens in a pool. -/
inductive WorkEvent (α : Type) where
  | handedOver (job : Job α)
  /-- A worker takes the job, and the jobs that it spawns are handed over. -/
  | began (time : Nat) (job : Job α)
  | ended (time : Nat) (job : Job α)
  /-- A worker is hired in the place of one that a failing job took along. -/
  | replaced
  /-- What else supervisors, workers and a shutdown do. -/
  | arranged

namespace WorkEvent

def handed? : WorkEvent α → Option (Job α)
  | handedOver job => some job
  | _ => none

def begun? : WorkEvent α → Option (Job α)
  | began _ job => some job
  | _ => none

def ended? : WorkEvent α → Option (Job α)
  | ended _ job => some job
  | _ => none

/-- The jobs that the event adds to those that were accepted. -/
def accepts : WorkEvent α → List (Job α)
  | handedOver job => [job]
  | began _ job => job.spawns
  | _ => []

def occupies : WorkEvent α → Bool
  | began _ job => !job.isBrief
  | _ => false

def isOver : WorkEvent α → Bool
  | ended _ _ => true
  | _ => false

def noted? : WorkEvent α → Option (LogEntry α)
  | began time job => some (job.note time .began)
  | ended time job => some (job.note time job.lastEvent)
  | _ => none

end WorkEvent

/-- All jobs that a pool was given, in the order in which it was given them. -/
def acceptedJobs (timeline : List (WorkEvent α)) : List (Job α) :=
  timeline.flatMap WorkEvent.accepts

def begunJobs (timeline : List (WorkEvent α)) : List (Job α) :=
  timeline.filterMap WorkEvent.begun?

def atWork (timeline : List (WorkEvent α)) : Nat :=
  timeline.countP WorkEvent.occupies - timeline.countP WorkEvent.isOver

/-- What can be done with a pool, each time by one who then waits again. Of workers in line only the
first can take a job, but all of them learn of a shutdown. -/
inductive WorkMove (pool : WorkerPool α) (now : Nat) : WorkEvent α → WorkerPool α → Prop where
  | submit {job : Job α} {after : WorkerPool α} (taken : pool.submit job = .ok after) :
      WorkMove pool now (.handedOver job) after
  | hire (vacant : 0 < pool.vacancies) : WorkMove pool now .arranged pool.hire
  | replace (bereft : 0 < pool.bereft) (isOpen : pool.isDown = false) :
      WorkMove pool now .replaced pool.replace
  | giveUp (bereft : 0 < pool.bereft) (isDown : pool.isDown = true) :
      WorkMove pool now .arranged pool.replace
  | lineUp (arriving : 0 < pool.arriving) : WorkMove pool now .arranged pool.lineUp
  | take {others : List Waiting} {job : Job α} {rest : List (Job α)}
      (isOpen : pool.isDown = false) (first : pool.line = .worker :: others)
      (next : pool.queue = job :: rest) :
      WorkMove pool now (.began now job) (pool.take now others job rest)
  | finish {front back : List (RunningJob α)} {done : RunningJob α}
      (there : pool.running = front ++ done :: back) (due : done.finish ≤ now) :
      WorkMove pool now (.ended now done.job) (pool.finish done (front ++ back))
  | dismiss {front back : List Waiting} (isDown : pool.isDown = true)
      (there : pool.line = front ++ .worker :: back) :
      WorkMove pool now .arranged (pool.dismiss (front ++ back))
  | discard {others : List Waiting} (first : pool.line = .shutdown :: others) :
      WorkMove pool now .arranged (pool.discard others)
  | discharge (left : 0 < pool.left) : WorkMove pool now .arranged pool.discharge

/-- What may come of a pool, and what happens meanwhile. -/
inductive WorkRun (start : WorkerPool α) (since : Nat) :
    List (WorkEvent α) → WorkerPool α → Nat → Prop where
  | start : WorkRun start since [] start since
  | wait {events : List (WorkEvent α)} {pool : WorkerPool α} {now time : Nat}
      (run : WorkRun start since events pool now) (later : now ≤ time) :
      WorkRun start since events pool time
  | move {events : List (WorkEvent α)} {pool after : WorkerPool α} {now : Nat}
      {event : WorkEvent α} (run : WorkRun start since events pool now)
      (move : WorkMove pool now event after) :
      WorkRun start since (events ++ [event]) after now

/-- Nothing more can be done by those in the pool. -/
def IsAtRest (pool : WorkerPool α) (now : Nat) : Prop :=
  ∀ event after, WorkMove pool now event after → ∃ job, event = .handedOver job

section Moves

variable {pool after : WorkerPool α} {now : Nat} {event : WorkEvent α}

lemma WorkMove.unchanged (move : WorkMove pool now event after) :
    after.size = pool.size ∧ after.isDown = pool.isDown := by
  cases move with
  | submit taken =>
    unfold WorkerPool.submit at taken
    split at taken <;> cases taken
    exact ⟨rfl, rfl⟩
  | replace bereft isOpen => simp [WorkerPool.replace, isOpen]
  | giveUp bereft isDown => simp [WorkerPool.replace, isDown]
  | lineUp arriving =>
    unfold WorkerPool.lineUp
    split <;> exact ⟨rfl, rfl⟩
  | take isOpen first next =>
    unfold WorkerPool.take
    split <;> exact ⟨rfl, rfl⟩
  | finish there due =>
    unfold WorkerPool.finish
    split <;> exact ⟨rfl, rfl⟩
  | _ => exact ⟨rfl, rfl⟩

/-- What the counters of a pool show. Each place waits for its first worker, has a worker, has lost it
to a failing job, or has seen it leave; a worker is on its way to the line, in line or at work. -/
structure IsStaffed (pool : WorkerPool α) : Prop where
  places : pool.vacancies + pool.workerCount + pool.bereft + pool.left + pool.gone = pool.size
  workers : pool.workerCount = pool.arriving + pool.line.count .worker + pool.running.length
  idle : pool.idleCount = pool.line.count .worker
  queued : pool.queuedCount = pool.queue.length
  whileOpen : pool.isDown = false → .shutdown ∉ pool.line ∧ pool.left = 0 ∧ pool.gone = 0
  discarded : pool.isDown = true → .shutdown ∉ pool.line → pool.queue = []

lemma isStaffed_starting (size : Nat) : IsStaffed ({ size } : WorkerPool α) where
  places := rfl
  workers := rfl
  idle := rfl
  queued := rfl
  whileOpen _ := ⟨List.not_mem_nil, rfl, rfl⟩
  discarded _ _ := rfl

lemma IsStaffed.submit (h : IsStaffed pool) {job : Job α} (taken : pool.submit job = .ok after) :
    IsStaffed after := by
  unfold WorkerPool.submit at taken
  split at taken
  · cases taken
  · rename_i isOpen
    cases taken
    refine ⟨h.places, h.workers, h.idle, ?_, h.whileOpen, fun isDown => absurd isDown isOpen⟩
    simp [h.queued]

lemma IsStaffed.hire (h : IsStaffed pool) (vacant : 0 < pool.vacancies) : IsStaffed pool.hire := by
  obtain ⟨places, workers, idle, queued, whileOpen, discarded⟩ := h
  refine ⟨?_, ?_, idle, queued, whileOpen, discarded⟩ <;> simp only [WorkerPool.hire] <;> omega

lemma IsStaffed.replace (h : IsStaffed pool) (bereft : 0 < pool.bereft) :
    IsStaffed pool.replace := by
  obtain ⟨places, workers, idle, queued, whileOpen, discarded⟩ := h
  unfold WorkerPool.replace
  split
  · rename_i isDown
    refine ⟨by simp only; omega, workers, idle, queued, fun isOpen => ?_, discarded⟩
    exact absurd isDown (ne_true_of_eq_false isOpen)
  · exact ⟨by simp only; omega, by simp only; omega, idle, queued, whileOpen, discarded⟩

lemma IsStaffed.lineUp (h : IsStaffed pool) (arriving : 0 < pool.arriving) :
    IsStaffed pool.lineUp := by
  obtain ⟨places, workers, idle, queued, whileOpen, discarded⟩ := h
  unfold WorkerPool.lineUp
  split
  · rename_i isDown
    refine ⟨by simp only; omega, by simp only; omega, idle, queued, fun isOpen => ?_, discarded⟩
    exact absurd isDown (ne_true_of_eq_false isOpen)
  · rename_i isOpen
    have hline : (pool.line ++ [Waiting.worker]).count .worker = pool.line.count .worker + 1 := by
      rw [List.count_append, List.count_singleton_self]
    refine ⟨places, ?_, ?_, queued, fun hopen => ?_, fun isDown => absurd isDown isOpen⟩
    · simp only [hline]
      omega
    · simp only [hline, idle]
    · obtain ⟨hnone, hleft, hgone⟩ := whileOpen hopen
      exact ⟨by simp [hnone], hleft, hgone⟩

lemma IsStaffed.take (h : IsStaffed pool) (isOpen : pool.isDown = false) {others : List Waiting}
    (first : pool.line = .worker :: others) {job : Job α} {rest : List (Job α)}
    (next : pool.queue = job :: rest) (now : Nat) : IsStaffed (pool.take now others job rest) := by
  obtain ⟨places, workers, idle, queued, whileOpen, -⟩ := h
  have hline : pool.line.count .worker = others.count .worker + 1 := by
    rw [first, List.count_cons_self]
  have hqueue : pool.queue.length = rest.length + 1 := by rw [next, List.length_cons]
  have hothers : .shutdown ∉ others ∧ pool.left = 0 ∧ pool.gone = 0 := by
    obtain ⟨hnone, hleft, hgone⟩ := whileOpen isOpen
    exact ⟨fun hmem => hnone (first ▸ List.mem_cons_of_mem _ hmem), hleft, hgone⟩
  have hdown : pool.isDown = true → .shutdown ∉ others → rest ++ job.spawns = [] :=
    fun isDown => absurd isDown (ne_true_of_eq_false isOpen)
  unfold WorkerPool.take
  split <;> refine ⟨places, ?_, by simp only; omega, ?_, fun _ => hothers, hdown⟩ <;>
    simp only [List.length_append, RunningJob.length_insert] <;> omega

lemma IsStaffed.finish (h : IsStaffed pool) {done : RunningJob α} {others : List (RunningJob α)}
    (there : pool.running.length = others.length + 1) : IsStaffed (pool.finish done others) := by
  obtain ⟨places, workers, idle, queued, whileOpen, discarded⟩ := h
  unfold WorkerPool.finish
  split
  · exact ⟨by simp only; omega, by simp only; omega, idle, queued, whileOpen, discarded⟩
  · exact ⟨places, by simp only; omega, idle, queued, whileOpen, discarded⟩

lemma IsStaffed.dismiss (h : IsStaffed pool) (isDown : pool.isDown = true)
    {front back : List Waiting} (there : pool.line = front ++ .worker :: back) :
    IsStaffed (pool.dismiss (front ++ back)) := by
  obtain ⟨places, workers, idle, queued, whileOpen, discarded⟩ := h
  have hline : pool.line.count .worker = (front ++ back).count .worker + 1 := by
    simp only [there, List.count_append, List.count_cons_self, Nat.add_assoc]
  have hshutdown : .shutdown ∉ front ++ back → .shutdown ∉ pool.line := by
    rw [there]
    simp
  refine ⟨?_, ?_, ?_, queued, fun isOpen => ?_, fun _ hnone => discarded isDown (hshutdown hnone)⟩
  · simp only [WorkerPool.dismiss]
    omega
  · simp only [WorkerPool.dismiss]
    omega
  · simp only [WorkerPool.dismiss]
    omega
  · exact absurd isDown (ne_true_of_eq_false isOpen)

lemma IsStaffed.discard (h : IsStaffed pool) {others : List Waiting}
    (first : pool.line = .shutdown :: others) : IsStaffed (pool.discard others) := by
  obtain ⟨places, workers, idle, queued, whileOpen, discarded⟩ := h
  have hline : pool.line.count .worker = others.count .worker := by
    rw [first, List.count_cons_of_ne (by decide)]
  refine ⟨places, hline ▸ workers, hline ▸ idle, ?_, fun isOpen => ?_, fun _ _ => rfl⟩
  · simp [WorkerPool.discard, queued]
  · exact absurd (first ▸ List.mem_cons_self) (whileOpen isOpen).1

lemma IsStaffed.discharge (h : IsStaffed pool) (left : 0 < pool.left) :
    IsStaffed pool.discharge := by
  obtain ⟨places, workers, idle, queued, whileOpen, discarded⟩ := h
  refine ⟨by simp only [WorkerPool.discharge]; omega, workers, idle, queued, fun isOpen => ?_,
    discarded⟩
  obtain ⟨-, hleft, -⟩ := whileOpen isOpen
  omega

lemma IsStaffed.move (h : IsStaffed pool) (move : WorkMove pool now event after) :
    IsStaffed after := by
  cases move with
  | submit taken => exact h.submit taken
  | hire vacant => exact h.hire vacant
  | replace bereft isOpen => exact h.replace bereft
  | giveUp bereft isDown => exact h.replace bereft
  | lineUp arriving => exact h.lineUp arriving
  | take isOpen first next => exact h.take isOpen first next now
  | finish there due => exact h.finish (by simp [there, Nat.add_assoc])
  | dismiss isDown there => exact h.dismiss isDown there
  | discard first => exact h.discard first
  | discharge left => exact h.discharge left

/-- Whatever those in the pool do takes something from what is left to do. -/
lemma WorkMove.load_lt (move : WorkMove pool now event after) (hinside : event.handed? = none) :
    after.load < pool.load := by
  cases move with
  | submit taken => cases hinside
  | hire vacant => exact WorkerPool.load_hire vacant
  | replace bereft isOpen => exact WorkerPool.load_replace bereft
  | giveUp bereft isDown => exact WorkerPool.load_replace bereft
  | lineUp arriving => exact WorkerPool.load_lineUp arriving
  | take isOpen first next => exact WorkerPool.load_take (congrArg List.length first) next now
  | finish there due => exact WorkerPool.load_finish (by simp [there])
  | dismiss isDown there =>
    refine WorkerPool.load_dismiss ?_
    rw [there, List.length_append, List.length_append, List.length_cons, Nat.add_assoc]
  | discard first => exact WorkerPool.load_discard (congrArg List.length first)
  | discharge left => exact WorkerPool.load_discharge left

/-- The jobs of a pool that is open: what it was given has begun or is queued. -/
structure Accounts (timeline : List (WorkEvent α)) (pool : WorkerPool α) : Prop where
  accepted : acceptedJobs timeline = begunJobs timeline ++ pool.queue
  occupied : timeline.countP WorkEvent.occupies =
    timeline.countP WorkEvent.isOver + pool.running.length

lemma acceptedJobs_append_singleton (timeline : List (WorkEvent α)) (event : WorkEvent α) :
    acceptedJobs (timeline ++ [event]) = acceptedJobs timeline ++ event.accepts := by
  simp [acceptedJobs]

lemma begunJobs_append_singleton (timeline : List (WorkEvent α)) (event : WorkEvent α) :
    begunJobs (timeline ++ [event]) = begunJobs timeline ++ event.begun?.toList := by
  cases hevent : event.begun? <;> simp [begunJobs, hevent]

/-- A move that neither hands over nor begins nor ends a job leaves the jobs as they are. -/
lemma Accounts.keep {timeline : List (WorkEvent α)} (h : Accounts timeline pool)
    (haccepts : event.accepts = []) (hbegun : event.begun? = none)
    (hoccupies : event.occupies = false) (hover : event.isOver = false)
    (hqueue : after.queue = pool.queue) (hrunning : after.running = pool.running) :
    Accounts (timeline ++ [event]) after := by
  refine ⟨?_, ?_⟩
  · rw [acceptedJobs_append_singleton, begunJobs_append_singleton, haccepts, hbegun, hqueue,
      h.accepted]
    simp
  · simp [hoccupies, hover, hrunning, h.occupied]

lemma Accounts.submit {timeline : List (WorkEvent α)} (h : Accounts timeline pool) {job : Job α}
    (taken : pool.submit job = .ok after) : Accounts (timeline ++ [.handedOver job]) after := by
  unfold WorkerPool.submit at taken
  split at taken
  · cases taken
  · cases taken
    refine ⟨?_, ?_⟩
    · rw [acceptedJobs_append_singleton, begunJobs_append_singleton, h.accepted]
      simp [WorkEvent.accepts, WorkEvent.begun?]
    · simpa [WorkEvent.occupies, WorkEvent.isOver] using h.occupied

lemma Accounts.take {timeline : List (WorkEvent α)} (h : Accounts timeline pool)
    (others : List Waiting) {job : Job α} {rest : List (Job α)} (next : pool.queue = job :: rest) :
    Accounts (timeline ++ [.began now job]) (pool.take now others job rest) := by
  have hqueue : acceptedJobs (timeline ++ [.began now job]) =
      begunJobs (timeline ++ [.began now job]) ++ (rest ++ job.spawns) := by
    rw [acceptedJobs_append_singleton, begunJobs_append_singleton, h.accepted, next]
    simp [WorkEvent.accepts, WorkEvent.begun?]
  unfold WorkerPool.take
  cases hbrief : job.isBrief with
  | true =>
    refine ⟨hqueue, ?_⟩
    simpa [WorkEvent.occupies, WorkEvent.isOver, hbrief] using h.occupied
  | false =>
    refine ⟨hqueue, ?_⟩
    simp [WorkEvent.occupies, WorkEvent.isOver, hbrief, h.occupied, Nat.add_assoc]

lemma Accounts.finish {timeline : List (WorkEvent α)} (h : Accounts timeline pool)
    {done : RunningJob α} {others : List (RunningJob α)}
    (there : pool.running.length = others.length + 1) :
    Accounts (timeline ++ [.ended now done.job]) (pool.finish done others) := by
  obtain ⟨accepted, occupied⟩ := h
  refine ⟨?_, ?_⟩
  · rw [acceptedJobs_append_singleton, begunJobs_append_singleton, accepted, WorkerPool.queue_finish]
    simp [WorkEvent.accepts, WorkEvent.begun?]
  · rw [WorkerPool.running_finish]
    simp only [List.countP_append, List.countP_singleton, WorkEvent.occupies, WorkEvent.isOver,
      if_true, Bool.false_eq_true, if_false]
    omega

lemma Accounts.move {timeline : List (WorkEvent α)} (h : Accounts timeline pool)
    (isOpen : pool.isDown = false) (staffed : IsStaffed pool)
    (move : WorkMove pool now event after) : Accounts (timeline ++ [event]) after := by
  have hopen := ne_true_of_eq_false isOpen
  cases move with
  | submit taken => exact h.submit taken
  | @take others job rest isOpen first next => exact h.take others next
  | finish there due => exact h.finish (by simp [there, Nat.add_assoc])
  | replace bereft =>
    refine h.keep rfl rfl rfl rfl ?_ ?_ <;> rw [WorkerPool.replace, if_neg hopen]
  | giveUp bereft isDown => exact absurd isDown hopen
  | lineUp arriving =>
    refine h.keep rfl rfl rfl rfl ?_ ?_ <;> rw [WorkerPool.lineUp, if_neg hopen]
  | discard first => exact absurd (first ▸ List.mem_cons_self) (staffed.whileOpen isOpen).1
  | _ => exact h.keep rfl rfl rfl rfl rfl rfl

end Moves

section Runs

variable {start pool after : WorkerPool α} {since now : Nat} {events : List (WorkEvent α)}

lemma WorkRun.trans {more : List (WorkEvent α)} {later : Nat}
    (run : WorkRun start since events pool now) (further : WorkRun pool now more after later) :
    WorkRun start since (events ++ more) after later := by
  induction further with
  | start => simpa using run
  | wait _ later ih => exact .wait ih later
  | move _ move ih =>
    rw [← List.append_assoc]
    exact .move ih move

lemma WorkRun.unchanged (run : WorkRun start since events pool now) :
    pool.size = start.size ∧ pool.isDown = start.isDown := by
  induction run with
  | start => exact ⟨rfl, rfl⟩
  | wait _ _ ih => exact ih
  | move _ move ih => exact ⟨move.unchanged.1.trans ih.1, move.unchanged.2.trans ih.2⟩

lemma WorkRun.isStaffed (run : WorkRun start since events pool now) (h : IsStaffed start) :
    IsStaffed pool := by
  induction run with
  | start => exact h
  | wait _ _ ih => exact ih
  | move _ move ih => exact ih.move move

lemma WorkRun.accounts {size : Nat} (run : WorkRun { size } since events pool now) :
    Accounts events pool := by
  induction run with
  | start => exact ⟨rfl, rfl⟩
  | wait _ _ ih => exact ih
  | move run move ih =>
    exact ih.move run.unchanged.2 (run.isStaffed (isStaffed_starting size)) move

end Runs

/-- Supervisors and workers have nothing to do, whatever the time. -/
structure IsFilled (pool : WorkerPool α) : Prop where
  vacancies : pool.vacancies = 0
  bereft : pool.bereft = 0
  arriving : pool.arriving = 0
  left : pool.left = 0
  line : pool.line = [] ∨
    (∃ others, pool.line = .worker :: others) ∧ pool.isDown = false ∧ pool.queue = []

/-- A pool comes to a new state by what those in it do, and all that happens is noted. -/
structure Follows (pool : WorkerPool α) (now : Nat) (events : List (WorkEvent α)) (log : Log α)
    (after : WorkerPool α) (time : Nat) : Prop where
  run : WorkRun pool now events after time
  noted : events.filterMap WorkEvent.noted? = log
  inside : events.filterMap WorkEvent.handed? = []

section Steps

variable {pool next after between : WorkerPool α} {now time later : Nat} {log more : Log α}

lemma Follows.refl (pool : WorkerPool α) (now : Nat) : Follows pool now [] [] pool now :=
  ⟨.start, rfl, rfl⟩

lemma Follows.wait {events : List (WorkEvent α)} (h : Follows pool now events log after time)
    (hle : time ≤ later) : Follows pool now events log after later :=
  ⟨.wait h.run hle, h.noted, h.inside⟩

lemma Follows.trans {events others : List (WorkEvent α)}
    (h : Follows pool now events log between time)
    (h' : Follows between time others more after later) :
    Follows pool now (events ++ others) (log ++ more) after later :=
  ⟨h.run.trans h'.run, by rw [List.filterMap_append, h.noted, h'.noted],
    by rw [List.filterMap_append, h.inside, h'.inside, List.append_nil]⟩

lemma Follows.single {event : WorkEvent α} (move : WorkMove pool now event after)
    (hinside : event.handed? = none) :
    Follows pool now [event] event.noted?.toList after now := by
  refine ⟨.move .start move, ?_, ?_⟩
  · cases hevent : event.noted? <;> simp [hevent]
  · simp [hinside]

lemma follows_next? {noted : Log α} (h : pool.next? now = some (next, noted)) :
    ∃ events, Follows pool now events noted next now := by
  simp only [WorkerPool.next?] at h
  split at h
  · rename_i hvacant
    cases h
    exact ⟨_, .single (.hire hvacant) rfl⟩
  split at h
  · rename_i hbereft
    cases h
    cases hdown : pool.isDown with
    | false => exact ⟨_, .single (.replace hbereft hdown) rfl⟩
    | true => exact ⟨_, .single (.giveUp hbereft hdown) rfl⟩
  split at h
  · rename_i harriving
    cases h
    exact ⟨_, .single (.lineUp harriving) rfl⟩
  split at h
  · rename_i hleft
    cases h
    exact ⟨_, .single (.discharge hleft) rfl⟩
  split at h
  · cases h
  · rename_i hline
    cases h
    exact ⟨_, .single (.discard hline) rfl⟩
  · rename_i others hline
    split at h
    · rename_i hdown
      cases h
      have hfirst : pool.line = [] ++ .worker :: others := hline
      exact ⟨_, .single (.dismiss hdown hfirst) rfl⟩
    · rename_i hopen
      split at h
      · cases h
      · rename_i hqueue
        cases h
        exact ⟨_, .single (.take (eq_false_of_ne_true hopen) hline hqueue) rfl⟩

lemma isFilled_of_next? (h : pool.next? now = none) : IsFilled pool := by
  simp only [WorkerPool.next?] at h
  split at h
  · cases h
  split at h
  · cases h
  split at h
  · cases h
  split at h
  · cases h
  rename_i hvacancies hbereft harriving hleft
  refine ⟨by omega, by omega, by omega, by omega, ?_⟩
  split at h
  · rename_i hline
    exact .inl hline
  · cases h
  · rename_i others hline
    split at h
    · cases h
    · rename_i hopen
      split at h
      · rename_i hqueue
        exact .inr ⟨⟨others, hline⟩, eq_false_of_ne_true hopen, hqueue⟩
      · cases h

lemma IsFilled.isAtRest (h : IsFilled pool) (hearly : ∀ job ∈ pool.running, now < job.finish) :
    IsAtRest pool now := by
  obtain ⟨vacancies, bereft, arriving, left, line⟩ := h
  intro event after move
  cases move with
  | @submit job after taken => exact ⟨job, rfl⟩
  | hire vacant => omega
  | replace | giveUp => omega
  | lineUp => omega
  | take isOpen first next =>
    rcases line with hnone | ⟨-, -, hqueue⟩
    · rw [hnone] at first
      cases first
    · rw [hqueue] at next
      cases next
  | finish there due =>
    have hlate := hearly _ (there ▸ List.mem_append_right _ List.mem_cons_self)
    omega
  | dismiss isDown there =>
    rcases line with hnone | ⟨-, isOpen, -⟩
    · rw [hnone] at there
      exact absurd there (by simp)
    · exact absurd isDown (ne_true_of_eq_false isOpen)
  | discard first =>
    rcases line with hnone | ⟨⟨others, hworker⟩, -⟩
    · rw [hnone] at first
      cases first
    · rw [hworker] at first
      cases first
  | discharge => omega

lemma IsAtRest.isFilled (h : IsAtRest pool now) : IsFilled pool := by
  have hnone : ∀ {event : WorkEvent α} {after : WorkerPool α}, WorkMove pool now event after →
      event.handed? ≠ none := by
    intro event after move hinside
    obtain ⟨job, rfl⟩ := h event after move
    cases hinside
  refine ⟨?_, ?_, ?_, ?_, ?_⟩
  · exact Nat.eq_zero_of_not_pos fun hvacant => hnone (.hire hvacant) rfl
  · refine Nat.eq_zero_of_not_pos fun hbereft => ?_
    cases hdown : pool.isDown with
    | false => exact hnone (.replace hbereft hdown) rfl
    | true => exact hnone (.giveUp hbereft hdown) rfl
  · exact Nat.eq_zero_of_not_pos fun harriving => hnone (.lineUp harriving) rfl
  · exact Nat.eq_zero_of_not_pos fun hleft => hnone (.discharge hleft) rfl
  · cases hline : pool.line with
    | nil => exact .inl rfl
    | cons first others =>
      cases first with
      | shutdown => exact absurd rfl (hnone (.discard hline))
      | worker =>
        cases hdown : pool.isDown with
        | true =>
          have hfirst : pool.line = [] ++ .worker :: others := hline
          exact absurd rfl (hnone (.dismiss hdown hfirst))
        | false =>
          cases hqueue : pool.queue with
          | nil => exact .inr ⟨⟨others, rfl⟩, rfl, rfl⟩
          | cons job rest => exact absurd rfl (hnone (.take hdown hline hqueue))

lemma fill_follows (pool : WorkerPool α) (now : Nat) :
    ∃ events, Follows pool now events (pool.fill now).2 (pool.fill now).1 now := by
  fun_induction WorkerPool.fill pool now with
  | case1 pool hnone => exact ⟨[], .refl pool now⟩
  | case2 pool next noted hnext filled log hfill ih =>
    rw [hfill] at ih
    obtain ⟨events, hrest⟩ := ih
    obtain ⟨first, hfirst⟩ := follows_next? hnext
    exact ⟨first ++ events, hfirst.trans hrest⟩

lemma isFilled_fill (pool : WorkerPool α) (now : Nat) : IsFilled (pool.fill now).1 := by
  fun_induction WorkerPool.fill pool now with
  | case1 pool hnone => exact isFilled_of_next? hnone
  | case2 pool next noted hnext filled log hfill ih =>
    rw [hfill] at ih
    exact ih

lemma split_of_find? {isReady : RunningJob α → Bool} {running : RunningJob α}
    {others : List (RunningJob α)} (h : others.find? isReady = some running) :
    ∃ front back, others = front ++ running :: back ∧ others.eraseP isReady = front ++ back := by
  obtain ⟨hready, front, back, rfl, hfront⟩ := List.find?_eq_some_iff_append.1 h
  refine ⟨front, back, rfl, ?_⟩
  rw [List.eraseP_append_right _ fun other hmem => by simpa using hfront other hmem,
    List.eraseP_cons_of_pos hready]

lemma advance_follows (pool : WorkerPool α) {now time : Nat} (hle : now ≤ time)
    {isReady : RunningJob α → Bool} (hready : ∀ job, isReady job = true → job.finish ≤ time) :
    ∃ events, Follows pool now events (pool.advance now isReady).2
      (pool.advance now isReady).1 time := by
  fun_induction WorkerPool.advance pool now isReady with
  | case1 pool now hnone => exact ⟨[], (Follows.refl pool now).wait hle⟩
  | case2 pool now first hfirst moment filled advanced ih =>
    obtain ⟨front, back, hsplit, herase⟩ := split_of_find? hfirst
    have hmoment : moment ≤ time := Nat.max_le.2 ⟨hle, hready first (List.find?_some hfirst)⟩
    obtain ⟨later, hlater⟩ := ih hmoment
    obtain ⟨begun, hbegun⟩ :=
      fill_follows (pool.finish first (pool.running.eraseP isReady)) moment
    have hover : WorkMove pool moment (.ended moment first.job)
        (pool.finish first (pool.running.eraseP isReady)) :=
      herase ▸ .finish hsplit (Nat.le_max_right _ _)
    have hended := ((Follows.refl pool now).wait (Nat.le_max_left _ _)).trans (.single hover rfl)
    exact ⟨_, (hended.trans hbegun).trans hlater⟩

lemma isFilled_advance (h : IsFilled pool) (now : Nat) (isReady : RunningJob α → Bool) :
    IsFilled (pool.advance now isReady).1 := by
  fun_induction WorkerPool.advance pool now isReady with
  | case1 pool now hnone => exact h
  | case2 pool now first hfirst moment filled advanced ih => exact ih (isFilled_fill _ _)

lemma not_ready_advance (pool : WorkerPool α) (now : Nat) (isReady : RunningJob α → Bool) :
    ∀ job ∈ (pool.advance now isReady).1.running, isReady job = false := by
  fun_induction WorkerPool.advance pool now isReady with
  | case1 pool now hnone => simpa using hnone
  | case2 pool now first hfirst moment filled advanced ih => exact ih

lemma runUntil_follows (pool : WorkerPool α) (hle : now ≤ time) :
    ∃ events, Follows pool now events (pool.runUntil now time).2 (pool.runUntil now time).1 time := by
  obtain ⟨begun, hbegun⟩ := fill_follows pool now
  have hready : ∀ job : RunningJob α, decide (job.finish ≤ time) = true → job.finish ≤ time :=
    fun _ => of_decide_eq_true
  obtain ⟨later, hlater⟩ := advance_follows (pool.fill now).1 hle hready
  exact ⟨_, hbegun.trans hlater⟩

lemma isFilled_runUntil (pool : WorkerPool α) (now time : Nat) :
    IsFilled (pool.runUntil now time).1 :=
  isFilled_advance (isFilled_fill pool now) _ _

lemma early_runUntil (pool : WorkerPool α) (now time : Nat) :
    ∀ job ∈ (pool.runUntil now time).1.running, time < job.finish :=
  fun job hmem => Nat.lt_of_not_le (of_decide_eq_false (not_ready_advance _ _ _ job hmem))

end Steps

/-- Takes steps one after the other, and keeps the whole log. -/
def runSteps (session : PoolSession α) : List (PoolStep α) → PoolSession α × Log α
  | [] => (session, [])
  | step :: rest =>
    let (next, _, log) := session.perform step
    let (last, more) := runSteps next rest
    (last, log ++ more)

def handedBy : PoolStep α → List (Job α)
  | .submit jobs => jobs
  | _ => []

def keepsOpen : PoolStep α → Bool
  | .shutDown => false
  | _ => true

section Sessions

variable {session : PoolSession α}

lemma submitAll_run {pool : WorkerPool α} {now : Nat} (h : pool.isDown = false)
    (jobs : List (Job α)) :
    WorkRun pool now (jobs.map .handedOver) (pool.submitAll jobs).1 now := by
  induction jobs generalizing pool with
  | nil => exact .start
  | cons job rest ih =>
    have hsubmit : pool.submit job =
        .ok { pool with queue := pool.queue ++ [job], queuedCount := pool.queuedCount + 1 } :=
      if_neg (ne_true_of_eq_false h)
    have hrest := @ih
      { pool with queue := pool.queue ++ [job], queuedCount := pool.queuedCount + 1 } h
    simp only [WorkerPool.submitAll, hsubmit]
    exact (WorkRun.move .start (.submit hsubmit)).trans hrest

lemma handed_handedOver (jobs : List (Job α)) :
    (jobs.map WorkEvent.handedOver).filterMap WorkEvent.handed? = jobs ∧
      (jobs.map WorkEvent.handedOver).filterMap WorkEvent.noted? = [] := by
  induction jobs with
  | nil => exact ⟨rfl, rfl⟩
  | cons job rest ih => exact ⟨congrArg (job :: ·) ih.1, ih.2⟩

/-- The timeline is what happens while the steps are taken: it tells of all that was handed over from
outside, and of all that the log notes. -/
structure Tells (timeline : List (WorkEvent α)) (session : PoolSession α)
    (steps : List (PoolStep α)) : Prop where
  run : WorkRun session.pool session.now timeline (runSteps session steps).1.pool
    (runSteps session steps).1.now
  handed : timeline.filterMap WorkEvent.handed? = steps.flatMap handedBy
  noted : timeline.filterMap WorkEvent.noted? = (runSteps session steps).2

lemma perform_follows (hopen : session.pool.isDown = false) {step : PoolStep α}
    (hstep : keepsOpen step = true) :
    IsAtRest (session.perform step).1.pool (session.perform step).1.now ∧ ∃ events,
      WorkRun session.pool session.now events (session.perform step).1.pool
          (session.perform step).1.now ∧
        events.filterMap WorkEvent.noted? = (session.perform step).2.2 ∧
          events.filterMap WorkEvent.handed? = handedBy step := by
  cases step with
  | submit jobs =>
    obtain ⟨hhanded, hnothing⟩ := handed_handedOver jobs
    obtain ⟨events, hrun, hnoted, hinside⟩ :=
      runUntil_follows (session.pool.submitAll jobs).1 (Nat.le_refl session.now)
    refine ⟨(isFilled_runUntil _ _ _).isAtRest (early_runUntil _ _ _),
      _, (submitAll_run hopen jobs).trans hrun, ?_, ?_⟩
    · rw [List.filterMap_append, hnothing, hnoted]
      rfl
    · rw [List.filterMap_append, hhanded, hinside, List.append_nil]
      rfl
  | sleep duration =>
    obtain ⟨events, hrun, hnoted, hinside⟩ :=
      runUntil_follows session.pool (Nat.le_add_right session.now duration)
    exact ⟨(isFilled_runUntil _ _ _).isAtRest (early_runUntil _ _ _), events, hrun, hnoted, hinside⟩
  | shutDown => cases hstep

lemma exists_tells (hopen : session.pool.isDown = false) {steps : List (PoolStep α)}
    (hsteps : ∀ step ∈ steps, keepsOpen step = true) : ∃ timeline, Tells timeline session steps := by
  induction steps generalizing session with
  | nil => exact ⟨[], .start, rfl, rfl⟩
  | cons step rest ih =>
    obtain ⟨-, events, hrun, hnoted, hhanded⟩ :=
      perform_follows hopen (hsteps step List.mem_cons_self)
    obtain ⟨more, hmore⟩ := ih (hrun.unchanged.2.trans hopen) fun other hmem =>
      hsteps other (List.mem_cons_of_mem _ hmem)
    refine ⟨events ++ more, hrun.trans hmore.run, ?_, ?_⟩
    · rw [List.filterMap_append, hhanded, hmore.handed, List.flatMap_cons]
    · rw [List.filterMap_append, hnoted, hmore.noted]
      rfl

lemma isAtRest_runSteps (hopen : session.pool.isDown = false) {steps : List (PoolStep α)}
    (hsteps : ∀ step ∈ steps, keepsOpen step = true) (hsome : steps ≠ []) :
    IsAtRest (runSteps session steps).1.pool (runSteps session steps).1.now := by
  induction steps generalizing session with
  | nil => exact absurd rfl hsome
  | cons step rest ih =>
    obtain ⟨hrest, events, hrun, -, -⟩ := perform_follows hopen (hsteps step List.mem_cons_self)
    by_cases hlast : rest = []
    · rw [hlast]
      exact hrest
    · exact ih (hrun.unchanged.2.trans hopen)
        (fun other hmem => hsteps other (List.mem_cons_of_mem _ hmem)) hlast

end Sessions

/-- A pool is a queue with as many servers as it has workers, in whatever order those in it take their
turns, and whatever fails. At every moment before a shutdown the jobs that have begun are the first of
those that were accepted, in the same order, so that none has begun twice, and no more of them are at
work than there are workers. Whenever nothing more can be done at the time, the counters show the
workers, those that are idle and the jobs that wait, and no job waits while a worker is idle. A pool
that is used step by step is such a run, and comes to that point with every step. -/
theorem pool_serves_in_order (size : Nat) :
    (∀ (timeline : List (WorkEvent α)) (pool : WorkerPool α) (now : Nat),
      WorkRun { size } 0 timeline pool now →
        begunJobs timeline <+: acceptedJobs timeline ∧
        atWork timeline ≤ size ∧
        (IsAtRest pool now →
          pool.workerCount = size ∧
          pool.idleCount = size - atWork timeline ∧
          pool.queuedCount = (acceptedJobs timeline).length - (begunJobs timeline).length ∧
          (0 < pool.queuedCount → pool.idleCount = 0))) ∧
    ∀ steps : List (PoolStep α), (∀ step ∈ steps, keepsOpen step = true) →
      let last := (runSteps { pool := { size } } steps).1
      (∃ timeline, Tells timeline { pool := { size } } steps) ∧
      (steps ≠ [] → IsAtRest last.pool last.now) := by
  refine ⟨fun timeline pool now run => ?_, fun steps hsteps =>
    ⟨exists_tells rfl hsteps, isAtRest_runSteps rfl hsteps⟩⟩
  obtain ⟨accepted, occupied⟩ := run.accounts
  obtain ⟨hsize, hopen⟩ := run.unchanged
  obtain ⟨places, workers, idle, queued, whileOpen, -⟩ := run.isStaffed (isStaffed_starting size)
  obtain ⟨hnoShutdown, hleft, hgone⟩ := whileOpen hopen
  have hwork : atWork timeline = pool.running.length := by
    rw [atWork, occupied, Nat.add_sub_cancel_left]
  simp only at hsize
  refine ⟨⟨pool.queue, accepted.symm⟩, by omega, fun hrest => ?_⟩
  obtain ⟨hvacancies, hbereft, harriving, -, hline⟩ := hrest.isFilled
  refine ⟨by omega, by omega, ?_, fun hwaits => ?_⟩
  · rw [accepted, List.length_append, Nat.add_sub_cancel_left, queued]
  · rcases hline with hnobody | ⟨-, -, hempty⟩
    · rw [idle, hnobody]
      rfl
    · rw [queued, hempty] at hwaits
      cases hwaits

/-- Two workers, of which a job that fails takes one along, after it has handed over a job of its
own. -/
def twoWorkersAndAFailure : List (PoolStep String) :=
  [.submit [{ label := "long", duration := 10 },
      { label := "failing", duration := 5, fails := true,
        spawns := [{ label := "inner", duration := 7 }] },
      { label := "brief" }],
    .sleep 8, .submit [{ label := "last", duration := 1, fails := true }]]

theorem twoWorkersAndAFailure_in_order :
    (∀ step ∈ twoWorkersAndAFailure, keepsOpen step = true) ∧
    let last := (runSteps { pool := { size := 2 } } twoWorkersAndAFailure).1
    ∃ timeline, Tells timeline { pool := { size := 2 } } twoWorkersAndAFailure ∧
      (timeline.filterMap WorkEvent.noted?).map (fun entry => (entry.time, entry.label)) =
        [(0, "long"), (0, "failing"), (5, "failing"), (5, "brief"), (5, "inner")] ∧
      WorkRun { size := 2 } 0 timeline last.pool last.now ∧
      begunJobs timeline <+: acceptedJobs timeline ∧
      atWork timeline ≤ 2 ∧
      IsAtRest last.pool last.now ∧
      last.pool.workerCount = 2 ∧
      last.pool.idleCount = 2 - atWork timeline ∧
      last.pool.queuedCount = (acceptedJobs timeline).length - (begunJobs timeline).length ∧
      last.pool.queuedCount = 1 ∧ last.pool.idleCount = 0 := by
  have hopen : ∀ step ∈ twoWorkersAndAFailure, keepsOpen step = true := by decide
  obtain ⟨hmoments, hsessions⟩ := @pool_serves_in_order String 2
  obtain ⟨⟨timeline, htells⟩, hrest⟩ := hsessions twoWorkersAndAFailure hopen
  have hlast := hrest (List.cons_ne_nil _ _)
  obtain ⟨hbegun, hbounded, hcounters⟩ := hmoments timeline _ _ htells.run
  obtain ⟨hworkers, hidle, hqueued, hbusy⟩ := hcounters hlast
  have hone : (runSteps { pool := { size := 2 } } twoWorkersAndAFailure).1.pool.queuedCount = 1 := by
    decide +kernel
  refine ⟨hopen, timeline, htells, ?_, htells.run, hbegun, hbounded, hlast, hworkers, hidle, hqueued,
    hone, hbusy ?_⟩
  · rw [htells.noted]
    decide +kernel
  · rw [hone]
    exact Nat.one_pos

end ReliableDatagrams.Proofs
