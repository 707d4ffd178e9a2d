import Mathlib.Tactic.Lemma
import ReliableDatagrams.Execution.SchedulerSession

/-!
# Runs of a scheduler with a pool

Jobs are scheduled and cancelled, time passes, also in leaps, and scheduler and pool may be shut down,
all in any order. What a run has done is told in turns: a call, its answer, and the ticks that were
handled meanwhile, each with the time and the entries that it fired.

Time passes in two ways only, by ticks and between them, and requests are read when a caller waits.
What is kept by all three (`KeptByTime`) is kept by every call that takes time, so that a property of
runs is shown for a tick, for a pause, for a rest and for what the other calls do after it. The
executor's own count of what was fired is the first such property (`firingCount_run`).
-/

namespace ReliableDatagrams.Proofs

variable {α : Type}

/-- A tick as it was handled: when, and which entries were due. -/
structure HandledTick (α : Type) where
  time : Nat
  fired : List (ScheduleEntry α)

def nextHandled (executor : Executor α) : HandledTick α where
  time := executor.tickTime
  fired := (executor.scheduler.entries.map fun entry =>
    entry.creditUntil executor.tickTime).filter ScheduleEntry.isDue

variable [DecidableEq α]

def ticksBy (executor : Executor α) (limit : Nat) : List (HandledTick α) :=
  if executor.scheduler.isOpen ∧ 0 < executor.scheduler.period ∧
      executor.scheduler.nextTick ≤ limit then
    nextHandled executor :: ticksBy executor.tick limit
  else []
termination_by limit + 1 - executor.scheduler.nextTick
decreasing_by
  have := executor.nextTick_tick
  omega

def ticksAsleep (executor : Executor α) (time : Nat) : List (HandledTick α) :=
  let ticked := executor.rest.runTicks time
  let rested := ticked.advanceTo (max ticked.now time)
  ticksBy executor.rest time ++ ticksBy rested rested.now

/-- What can be done with a scheduler from outside. -/
inductive SchedulerCall (α : Type) where
  | schedule (job : Job α) (delay : Nat) (repeats : Bool)
  | cancel (handle : ScheduleHandle)
  | sleep (duration : Nat)
  | stall (duration : Nat)
  | shutDownScheduler
  | shutDownPool

/-- A call, what it answered, and the ticks that were handled before it returned. -/
structure Turn (α : Type) where
  call : SchedulerCall α
  answer : SchedulerAnswer
  ticks : List (HandledTick α)

def makeCall (executor : Executor α) : SchedulerCall α → Executor α × SchedulerAnswer
  | .schedule job delay repeats =>
    let (executor, result) := executor.schedule job delay repeats
    (executor, .scheduled result)
  | .cancel handle =>
    let (executor, wasPending) := executor.cancel handle
    (executor, .flag wasPending)
  | .sleep duration => (executor.sleepUntil (executor.now + duration), .done)
  | .stall duration => (executor.stall duration, .done)
  | .shutDownScheduler => (executor.shutDownScheduler, .done)
  | .shutDownPool => (executor.shutDownPool, .done)

def ticksDuring (executor : Executor α) : SchedulerCall α → List (HandledTick α)
  | .sleep duration => ticksAsleep executor (executor.now + duration)
  | .stall duration =>
    ticksAsleep { executor with now := executor.now + duration } (executor.now + duration)
  | .shutDownPool =>
    match executor.backend with
    | .pool pool =>
      ticksAsleep { executor with backend := .pool pool.close } (pool.lastFinish executor.now)
    | .scheduler _ _ => []
  | _ => []

def executorAfter (executor : Executor α) (calls : List (SchedulerCall α)) : Executor α :=
  calls.foldl (fun executor call => (makeCall executor call).1) executor

/-- What comes of calls that are made one after the other. -/
def turnsOf (executor : Executor α) : List (SchedulerCall α) → List (Turn α)
  | [] => []
  | call :: rest =>
    { call, answer := (makeCall executor call).2, ticks := ticksDuring executor call } ::
      turnsOf (makeCall executor call).1 rest

/-- All ticks that are handled while calls are made one after the other. -/
def ticksAfter (executor : Executor α) (calls : List (SchedulerCall α)) : List (HandledTick α) :=
  (turnsOf executor calls).flatMap Turn.ticks

def HasPool (executor : Executor α) : Prop :=
  ∃ pool, executor.backend = .pool pool

omit [DecidableEq α] in
lemma hasPool_withPool (period workers : Nat) :
    HasPool (Executor.withPool period workers : Executor α) :=
  ⟨{ size := workers }, rfl⟩

def firingCount (executor : Executor α) (label : α) : Nat :=
  (executor.firings.get? label).getD 0

/-- Time passes, and nothing is fired. -/
structure Passes (executor after : Executor α) : Prop where
  scheduler : after.scheduler = executor.scheduler
  now : executor.now ≤ after.now
  firings : after.firings = executor.firings
  pool : HasPool executor → HasPool after

omit [DecidableEq α] in
lemma Passes.trans {executor between after : Executor α} (h : Passes executor between)
    (hlater : Passes between after) : Passes executor after :=
  ⟨hlater.scheduler.trans h.scheduler, Nat.le_trans h.now hlater.now,
    hlater.firings.trans h.firings, fun hpool => hlater.pool (h.pool hpool)⟩

omit [DecidableEq α] in
lemma passes_advance (executor : Executor α) {time : Nat} (h : executor.now ≤ time)
    (isReady : RunningJob α → Bool) : Passes executor (executor.advance time isReady) := by
  refine ⟨rfl, h, rfl, ?_⟩
  rintro ⟨pool, hpool⟩
  refine ⟨(pool.advance executor.now isReady).1, ?_⟩
  unfold Executor.advance Executor.record
  rw [hpool]
  rfl

/-- The requests are read, and no time passes. -/
structure ReadsRequests (executor after : Executor α) : Prop where
  scheduler : after.scheduler = executor.scheduler.readCommands executor.now
  now : after.now = executor.now
  firings : after.firings = executor.firings
  pool : HasPool executor → HasPool after

omit [DecidableEq α] in
lemma reads_rest (executor : Executor α) : ReadsRequests executor executor.rest := by
  refine ⟨rfl, rfl, rfl, ?_⟩
  rintro ⟨pool, hpool⟩
  refine ⟨(pool.settle executor.now).1, ?_⟩
  unfold Executor.rest Executor.record Backend.settle
  rw [hpool]

/-- The time of the tick after one that was planned for a time and handled at another. -/
def followingTick (period planned handled : Nat) : Nat :=
  let next := (if planned + Scheduler.tolerance < handled then handled else planned) + period
  if next ≤ handled then handled + period - (handled - next) % period else next

/-- What a tick does when there is a pool: the entries that are due are fired, each once, and either
start anew or go. -/
structure Ticks (executor after : Executor α) : Prop where
  now : after.now = executor.tickTime
  commands : after.scheduler.commands = executor.scheduler.commands
  entries : after.scheduler.entries = (executor.scheduler.entries.map fun entry =>
    entry.creditUntil executor.tickTime).filterMap ScheduleEntry.afterTick
  nextTick : after.scheduler.nextTick =
    followingTick executor.scheduler.period executor.scheduler.nextTick executor.tickTime
  period : after.scheduler.period = executor.scheduler.period
  isOpen : after.scheduler.isOpen = executor.scheduler.isOpen
  nextHandle : after.scheduler.nextHandle = executor.scheduler.nextHandle
  pool : HasPool after
  firings : ∀ label, firingCount after label = firingCount executor label +
    (nextHandled executor).fired.countP fun entry => entry.job.label = label

lemma firingCount_countFiring (executor : Executor α) (job : Job α) (label : α) :
    firingCount (executor.countFiring job).1 label =
      firingCount executor label + if job.label = label then 1 else 0 := by
  unfold firingCount Executor.countFiring
  dsimp only
  rw [Table.get?_insert]
  split
  · rename_i hlabel
    rw [hlabel]
    rfl
  · rfl

lemma firingCount_countFirings (executor : Executor α) (jobs : List (Job α)) (label : α) :
    firingCount (executor.countFirings jobs).1 label =
      firingCount executor label + jobs.countP fun job => job.label = label := by
  induction jobs generalizing executor with
  | nil => rfl
  | cons job rest ih =>
    have hfirst := firingCount_countFiring executor job label
    have hrest := ih (executor.countFiring job).1
    simp only [Executor.countFirings, hrest, hfirst, List.countP_cons, decide_eq_true_eq]
    omega

lemma backend_countFirings (executor : Executor α) (jobs : List (Job α)) :
    (executor.countFirings jobs).1.backend = executor.backend ∧
      (executor.countFirings jobs).1.now = executor.now := by
  induction jobs generalizing executor with
  | nil => exact ⟨rfl, rfl⟩
  | cons job rest ih => exact ih (executor.countFiring job).1

omit [DecidableEq α] in
lemma skipTicks_eq (scheduler : Scheduler α) (now : Nat) :
    scheduler.skipTicks now = { scheduler with
      nextTick := if scheduler.nextTick ≤ now
        then now + scheduler.period - (now - scheduler.nextTick) % scheduler.period
        else scheduler.nextTick } := by
  unfold Scheduler.skipTicks
  split <;> rfl

omit [DecidableEq α] in
lemma skipTicks_tick (scheduler : Scheduler α) (now : Nat) :
    (scheduler.tick now).1.skipTicks now =
      { scheduler with
        entries := (scheduler.entries.map fun entry =>
          entry.creditUntil now).filterMap ScheduleEntry.afterTick
        nextTick := followingTick scheduler.period scheduler.nextTick now } := by
  rw [skipTicks_eq]
  rfl

omit [DecidableEq α] in
/-- With a pool, what a tick fires is handed to the pool, which takes no time. -/
lemma runDue_of_pool {executor : Executor α} {pool : WorkerPool α}
    (h : executor.backend = .pool pool) (due : List (Job α)) :
    executor.runDue due =
      { executor with
        backend := .pool ((pool.submitAll due).1.settle executor.now).1
        history :=
          ((pool.submitAll due).1.settle executor.now).2.reverse ++ executor.history } := by
  unfold Executor.runDue
  rw [h]
  rfl

lemma ticks_tick {executor : Executor α} (h : HasPool executor) : Ticks executor executor.tick := by
  have happroach : Passes executor executor.approachTick :=
    passes_advance executor (Nat.le_max_left _ _) _
  obtain ⟨pool, hpool⟩ := happroach.pool h
  let due := (nextHandled executor).fired.map fun entry => entry.job
  let ticked : Executor α := { executor.approachTick with
    scheduler := (executor.scheduler.tick executor.tickTime).1 }
  obtain ⟨hbackend, hnow⟩ := backend_countFirings ticked due
  have hscheduler := Executor.scheduler_countFirings ticked due
  have hcounts := firingCount_countFirings ticked due
  have htick : executor.tick = Executor.runDue { (ticked.countFirings due).1 with
      scheduler := (ticked.countFirings due).1.scheduler.skipTicks (ticked.countFirings due).1.now
      backend := .pool pool.noteTick } (ticked.countFirings due).2 := by
    have hticked : (ticked.countFirings due).1.backend = .pool pool := hbackend.trans hpool
    unfold Executor.tick
    dsimp only
    split
    · rename_i found hfound
      rw [show found = pool from Backend.pool.inj (hfound.symm.trans hticked)]
      rfl
    · rename_i spawned beside hfound
      cases hfound.symm.trans hticked
  have hafter : executor.tick.scheduler =
      (executor.scheduler.tick executor.tickTime).1.skipTicks executor.tickTime := by
    rw [htick, runDue_of_pool rfl]
    dsimp only
    rw [hscheduler, hnow]
    rfl
  rw [skipTicks_tick] at hafter
  refine ⟨?_, by rw [hafter], by rw [hafter], by rw [hafter], by rw [hafter], by rw [hafter],
    by rw [hafter], ?_, ?_⟩
  · rw [htick, runDue_of_pool rfl]
    exact hnow
  · rw [htick, runDue_of_pool rfl]
    exact ⟨_, rfl⟩
  · intro label
    have hlabels : due.countP (fun job => job.label = label) =
        (nextHandled executor).fired.countP fun entry => entry.job.label = label := List.countP_map
    rw [htick, runDue_of_pool rfl, ← hlabels]
    exact hcounts label

/-- What holds of an executor and the ticks that it has handled so far holds on while time passes. -/
structure KeptByTime (Inv : Executor α → List (HandledTick α) → Prop) : Prop where
  tick : ∀ {executor after ticks}, Inv executor ticks → executor.scheduler.isOpen = true →
    0 < executor.scheduler.period → Ticks executor after →
      Inv after (ticks ++ [nextHandled executor])
  pass : ∀ {executor after ticks}, Inv executor ticks → Passes executor after → Inv after ticks
  read : ∀ {executor after ticks}, Inv executor ticks → ReadsRequests executor after → Inv after ticks

def SchedulerCall.takesTime : SchedulerCall α → Bool
  | .sleep _ | .stall _ | .shutDownPool => true
  | .schedule .. | .cancel _ | .shutDownScheduler => false

/-- The executor when a call that waits has let the others have their turn, and before it does anything
else. -/
def woken (executor : Executor α) : SchedulerCall α → Executor α
  | .schedule .. => executor
  | .stall duration => Executor.rest { executor with now := executor.now + duration }
  | .shutDownPool =>
    match executor.backend with
    | .pool pool => Executor.rest { executor with backend := .pool pool.close }
    | .scheduler _ _ => executor
  | .cancel _ | .sleep _ | .shutDownScheduler => executor.rest

section KeptByTime

variable {Inv : Executor α → List (HandledTick α) → Prop} {executor : Executor α}
  {ticks : List (HandledTick α)}

lemma KeptByTime.runTicks (h : KeptByTime Inv) (hpool : HasPool executor)
    (hinv : Inv executor ticks) (limit : Nat) :
    HasPool (executor.runTicks limit) ∧
      Inv (executor.runTicks limit) (ticks ++ ticksBy executor limit) := by
  fun_induction Executor.runTicks executor limit generalizing ticks with
  | case1 executor hgo ih =>
    have hticks := ticks_tick hpool
    rw [ticksBy, if_pos hgo, List.append_cons]
    exact ih hticks.pool (h.tick hinv hgo.1 hgo.2.1 hticks)
  | case2 executor hstop =>
    rw [ticksBy, if_neg hstop, List.append_nil]
    exact ⟨hpool, hinv⟩

lemma KeptByTime.sleepUntil (h : KeptByTime Inv) (hpool : HasPool executor)
    (hinv : Inv executor.rest ticks) (time : Nat) :
    HasPool (executor.sleepUntil time) ∧
      Inv (executor.sleepUntil time) (ticks ++ ticksAsleep executor time) := by
  obtain ⟨hticked, hfirst⟩ := h.runTicks ((reads_rest executor).pool hpool) hinv time
  have hrests : Passes (executor.rest.runTicks time)
      ((executor.rest.runTicks time).advanceTo (max (executor.rest.runTicks time).now time)) :=
    passes_advance _ (Nat.le_max_left _ _) _
  rw [ticksAsleep, ← List.append_assoc]
  exact h.runTicks (hrests.pool hticked) (h.pass hfirst hrests) _

omit [DecidableEq α] in
lemma passes_leap (executor : Executor α) (duration : Nat) :
    Passes executor { executor with now := executor.now + duration } :=
  ⟨rfl, Nat.le_add_right _ _, rfl, id⟩

omit [DecidableEq α] in
lemma passes_close (executor : Executor α) (pool : WorkerPool α) :
    Passes executor { executor with backend := .pool pool.close } :=
  ⟨rfl, Nat.le_refl _, rfl, fun _ => ⟨_, rfl⟩⟩

lemma KeptByTime.wake (h : KeptByTime Inv) (hinv : Inv executor ticks) (call : SchedulerCall α) :
    Inv (woken executor call) ticks := by
  cases call with
  | schedule => exact hinv
  | cancel | sleep | shutDownScheduler => exact h.read hinv (reads_rest _)
  | stall duration => exact h.read (h.pass hinv (passes_leap executor duration)) (reads_rest _)
  | shutDownPool =>
    dsimp only [woken]
    split
    · exact h.read (h.pass hinv (passes_close executor _)) (reads_rest _)
    · exact hinv

/-- A call that takes time is a sleep, after something that takes none. -/
lemma KeptByTime.call (h : KeptByTime Inv) (hpool : HasPool executor) {call : SchedulerCall α}
    (hinv : Inv (woken executor call) ticks) (hcall : call.takesTime = true) :
    HasPool (makeCall executor call).1 ∧
      Inv (makeCall executor call).1 (ticks ++ ticksDuring executor call) := by
  cases call with
  | schedule | cancel | shutDownScheduler => cases hcall
  | sleep duration => exact h.sleepUntil hpool hinv _
  | stall duration => exact h.sleepUntil ((passes_leap executor duration).pool hpool) hinv _
  | shutDownPool =>
    obtain ⟨pool, hbackend⟩ := hpool
    have hmade : (makeCall executor .shutDownPool).1 =
        Executor.sleepUntil { executor with backend := .pool pool.close }
          (pool.lastFinish executor.now) := by
      simp only [makeCall, Executor.shutDownPool, hbackend]
    have hticks : ticksDuring executor .shutDownPool =
        ticksAsleep { executor with backend := .pool pool.close }
          (pool.lastFinish executor.now) := by
      simp only [ticksDuring, hbackend]
    have hwoken : woken executor .shutDownPool =
        Executor.rest { executor with backend := .pool pool.close } := by
      simp only [woken, hbackend]
    rw [hmade, hticks]
    rw [hwoken] at hinv
    exact h.sleepUntil ⟨_, rfl⟩ hinv _

end KeptByTime

lemma ticksDuring_eq_nil (executor : Executor α) {call : SchedulerCall α}
    (h : call.takesTime = false) : ticksDuring executor call = [] := by
  cases call with
  | schedule | cancel | shutDownScheduler => rfl
  | sleep | stall | shutDownPool => cases h

/-- The job with the number of its firing. -/
def numberedJob (executor : Executor α) (job : Job α) : Job α :=
  (executor.countFiring job).2

/-- What comes of scheduling a job when there is a pool. -/
inductive Schedules (executor : Executor α) (job : Job α) (delay : Nat) (repeats : Bool) :
    Executor α × Except ScheduleError ScheduleHandle → Prop where
  /-- Nothing, except that a handle may have been drawn. -/
  | rejected (error : ScheduleError) {number : Nat}
      (drawn : number = executor.scheduler.nextHandle ∨ number = executor.scheduler.nextHandle + 1) :
      Schedules executor job delay repeats
        ({ executor with scheduler := { executor.scheduler with nextHandle := number } },
          .error error)
  /-- The job goes to the pool. -/
  | atOnce {pool queued : WorkerPool α} (there : executor.backend = .pool pool)
      (taken : pool.submit (numberedJob executor job) = .ok queued) (noDelay : delay = 0)
      (once : repeats = false) :
      Schedules executor job delay repeats
        ({ executor with
            scheduler := executor.scheduler.drawHandle.1
            backend := .pool queued
            firings := (executor.countFiring job).1.firings },
          .ok executor.scheduler.drawHandle.2)
  /-- The job waits. -/
  | sent (isOpen : executor.scheduler.isOpen = true) (waits : delay ≠ 0) :
      Schedules executor job delay repeats
        ({ executor with
            scheduler := executor.scheduler.drawHandle.1.send
              { handle := executor.scheduler.drawHandle.2, job, delay, repeats } },
          .ok executor.scheduler.drawHandle.2)

lemma schedules (executor : Executor α) (h : HasPool executor) (job : Job α) (delay : Nat)
    (repeats : Bool) :
    Schedules executor job delay repeats (executor.schedule job delay repeats) := by
  obtain ⟨now, scheduler, _, firings, history⟩ := executor
  obtain ⟨pool, rfl⟩ := h
  unfold Executor.schedule
  dsimp only
  by_cases hnever : delay = 0 ∧ repeats = true
  · rw [if_pos hnever]
    exact .rejected _ (.inl rfl)
  rw [if_neg hnever]
  by_cases hdelay : delay = 0
  · rw [if_pos hdelay]
    have honce : repeats = false := Bool.eq_false_iff.2 fun hrepeats => hnever ⟨hdelay, hrepeats⟩
    dsimp only [Executor.fireNow, Executor.countFiring]
    cases htaken : pool.submit { job with firing := (firings.get? job.label).getD 0 + 1 } with
    | error error => exact .rejected _ (.inr rfl)
    | ok queued => exact .atOnce rfl htaken hdelay honce
  · rw [if_neg hdelay]
    by_cases hopen : scheduler.drawHandle.1.isOpen = true
    · rw [if_pos hopen]
      exact .sent hopen hdelay
    · rw [if_neg hopen]
      exact .rejected _ (.inr rfl)

lemma hasPool_schedule {executor : Executor α} (h : HasPool executor) (job : Job α) (delay : Nat)
    (repeats : Bool) : HasPool (executor.schedule job delay repeats).1 := by
  have hschedules := schedules executor h job delay repeats
  generalize executor.schedule job delay repeats = outcome at hschedules
  cases hschedules with
  | rejected => exact h
  | atOnce => exact ⟨_, rfl⟩
  | sent => exact h

/-- What a call that takes no time does to the clock and to the scheduler, after its rest if it
waits. -/
inductive InstantMove (executor after : Executor α) : SchedulerCall α → Prop where
  /-- A handle may be drawn, but no entry comes or goes. -/
  | drew {job : Job α} {delay : Nat} {repeats : Bool} {number : Nat}
      (now : after.now = executor.now)
      (drawn : number = executor.scheduler.nextHandle ∨ number = executor.scheduler.nextHandle + 1)
      (scheduler : after.scheduler = { executor.scheduler with nextHandle := number }) :
      InstantMove executor after (.schedule job delay repeats)
  | sent {job : Job α} {delay : Nat} {repeats : Bool} (now : after.now = executor.now)
      (isOpen : executor.scheduler.isOpen = true)
      (scheduler : after.scheduler = executor.scheduler.drawHandle.1.send
        { handle := executor.scheduler.drawHandle.2, job, delay, repeats }) :
      InstantMove executor after (.schedule job delay repeats)
  | cancelled {handle : ScheduleHandle} (now : after.now = executor.now)
      (scheduler : after.scheduler = (executor.scheduler.cancel handle).1) :
      InstantMove executor after (.cancel handle)
  | shutDown (now : after.now = executor.now)
      (scheduler : after.scheduler = executor.scheduler.close) :
      InstantMove executor after .shutDownScheduler

lemma instant_move {executor : Executor α} (hpool : HasPool executor) {call : SchedulerCall α}
    (hinstant : call.takesTime = false) :
    InstantMove (woken executor call) (makeCall executor call).1 call := by
  cases call with
  | sleep | stall | shutDownPool => cases hinstant
  | cancel handle => exact .cancelled rfl rfl
  | shutDownScheduler => exact .shutDown rfl rfl
  | schedule job delay repeats =>
    have hschedules := schedules executor hpool job delay repeats
    simp only [makeCall, woken]
    generalize executor.schedule job delay repeats = outcome at hschedules
    cases hschedules with
    | rejected error drawn => exact .drew rfl drawn rfl
    | atOnce => exact .drew rfl (.inr rfl) rfl
    | sent isOpen => exact .sent rfl isOpen rfl

section Runs

variable {Inv : Executor α → List (HandledTick α) → Prop} {executor : Executor α}
  {ticks : List (HandledTick α)}

lemma hasPool_makeCall (hpool : HasPool executor) (call : SchedulerCall α) :
    HasPool (makeCall executor call).1 := by
  cases hcall : call.takesTime with
  | true =>
    have hkept : KeptByTime fun (_ : Executor α) (_ : List (HandledTick α)) => True :=
      ⟨fun _ _ _ _ => trivial, fun _ _ => trivial, fun _ _ => trivial⟩
    exact (@KeptByTime.call α _ _ executor [] hkept hpool call trivial hcall).1
  | false =>
    cases call with
    | schedule job delay repeats => exact hasPool_schedule hpool job delay repeats
    | cancel | shutDownScheduler => exact (reads_rest executor).pool hpool
    | sleep | stall | shutDownPool => cases hcall

lemma hasPool_run (hpool : HasPool executor) (calls : List (SchedulerCall α)) :
    HasPool (executorAfter executor calls) := by
  induction calls generalizing executor with
  | nil => exact hpool
  | cons call rest ih => exact ih (hasPool_makeCall hpool call)

lemma KeptByTime.step (h : KeptByTime Inv) {allowed : SchedulerCall α → Prop}
    (hinstant : ∀ {executor after ticks call}, Inv executor ticks → allowed call →
      InstantMove executor after call → Inv after ticks)
    (hpool : HasPool executor) {call : SchedulerCall α} (hcall : allowed call)
    (hinv : Inv (woken executor call) ticks) :
    Inv (makeCall executor call).1 (ticks ++ ticksDuring executor call) := by
  cases htakes : call.takesTime with
  | true => exact (h.call hpool hinv htakes).2
  | false =>
    rw [ticksDuring_eq_nil executor htakes, List.append_nil]
    exact hinstant hinv hcall (instant_move hpool htakes)

lemma KeptByTime.run_from (h : KeptByTime Inv) (allowed : SchedulerCall α → Prop)
    (hinstant : ∀ {executor after ticks call}, Inv executor ticks → allowed call →
      InstantMove executor after call → Inv after ticks)
    (hpool : HasPool executor) (hinv : Inv executor ticks) {calls : List (SchedulerCall α)}
    (hcalls : ∀ call ∈ calls, allowed call) :
    Inv (executorAfter executor calls) (ticks ++ ticksAfter executor calls) := by
  induction calls generalizing executor ticks with
  | nil => exact (List.append_nil ticks).symm ▸ hinv
  | cons call rest ih =>
    have hstep := h.step hinstant hpool (hcalls call List.mem_cons_self) (h.wake hinv call)
    have hrest := ih (hasPool_makeCall hpool call) hstep fun other hmem =>
      hcalls other (List.mem_cons_of_mem _ hmem)
    rw [List.append_assoc] at hrest
    exact hrest

/-- What is kept by time, and by the calls of a kind that take none, is kept by runs of such calls. -/
lemma KeptByTime.run (h : KeptByTime Inv) (allowed : SchedulerCall α → Prop)
    (hinstant : ∀ {executor after ticks call}, Inv executor ticks → allowed call →
      InstantMove executor after call → Inv after ticks)
    (hpool : HasPool executor) (hinv : Inv executor []) {calls : List (SchedulerCall α)}
    (hcalls : ∀ call ∈ calls, allowed call) :
    Inv (executorAfter executor calls) (ticksAfter executor calls) :=
  h.run_from allowed hinstant hpool hinv hcalls

/-- The jobs that were fired in a turn, at once or by a tick. -/
def Turn.fired (turn : Turn α) : List (Job α) :=
  (match turn.call, turn.answer with
    | .schedule job 0 _, .scheduled (.ok _) => [job]
    | _, _ => []) ++
  (turn.ticks.flatMap HandledTick.fired).map fun entry => entry.job

lemma firingCount_call (hpool : HasPool executor) (call : SchedulerCall α) (label : α) :
    firingCount (makeCall executor call).1 label = firingCount executor label +
      (Turn.fired ⟨call, (makeCall executor call).2, ticksDuring executor call⟩).countP
        fun job => job.label = label := by
  cases hcall : call.takesTime with
  | true =>
    have hkept : KeptByTime fun (after : Executor α) ticks =>
        firingCount after label = firingCount executor label +
          ((ticks.flatMap HandledTick.fired).map fun entry => entry.job).countP
            fun job => job.label = label := by
      refine ⟨fun hinv _ _ hticks => ?_, fun hinv hpasses => ?_, fun hinv hreads => ?_⟩
      · rw [hticks.firings label, hinv, List.flatMap_append, List.map_append, List.countP_append,
          Nat.add_assoc]
        simp [List.countP_map, Function.comp_def]
      · rw [← hinv, firingCount, firingCount, hpasses.firings]
      · rw [← hinv, firingCount, firingCount, hreads.firings]
    have hfired : Turn.fired ⟨call, (makeCall executor call).2, ticksDuring executor call⟩ =
        ((ticksDuring executor call).flatMap HandledTick.fired).map fun entry => entry.job := by
      cases call with
      | schedule | cancel | shutDownScheduler => cases hcall
      | sleep | stall | shutDownPool => rfl
    rw [hfired]
    exact (@KeptByTime.call α _ _ executor [] hkept hpool call
      (hkept.wake (Nat.add_zero _).symm call) hcall).2
  | false =>
    cases call with
    | sleep | stall | shutDownPool => cases hcall
    | cancel | shutDownScheduler => rfl
    | schedule job delay repeats =>
      have hschedules := schedules executor hpool job delay repeats
      simp only [makeCall, ticksDuring]
      generalize executor.schedule job delay repeats = outcome at hschedules
      cases hschedules with
      | rejected => cases delay <;> rfl
      | atOnce there taken noDelay once =>
        subst noDelay
        have hone : [job].countP (fun job => job.label = label) =
            if job.label = label then 1 else 0 := by
          simp only [List.countP_singleton, decide_eq_true_eq]
        exact (firingCount_countFiring executor job label).trans (congrArg _ hone.symm)
      | sent isOpen waits =>
        obtain ⟨delay, rfl⟩ := Nat.exists_eq_succ_of_ne_zero waits
        rfl

lemma firingCount_run (hpool : HasPool executor) (calls : List (SchedulerCall α)) (label : α) :
    firingCount (executorAfter executor calls) label = firingCount executor label +
      ((turnsOf executor calls).flatMap Turn.fired).countP fun job => job.label = label := by
  induction calls generalizing executor with
  | nil => rfl
  | cons call rest ih =>
    have hrest := ih (hasPool_run hpool [call])
    have hfirst := firingCount_call hpool call label
    rw [turnsOf, List.flatMap_cons, List.countP_append, ← Nat.add_assoc, ← hfirst]
    exact hrest

/-- What waits at a scheduler, read or not. -/
def pendingRequests (scheduler : Scheduler α) : List (ScheduleRequest α) :=
  (scheduler.entries.map fun entry => entry.toScheduleRequest) ++ scheduler.commands

/-- The handles of all that waits have been drawn. -/
def HandlesDrawn (executor : Executor α) : Prop :=
  ∀ request ∈ pendingRequests executor.scheduler,
    request.handle.number < executor.scheduler.nextHandle

omit [DecidableEq α] in
lemma eq_of_afterTick {entry after : ScheduleEntry α} (h : entry.afterTick = some after) :
    after = { entry with credit := after.credit } := by
  unfold ScheduleEntry.afterTick at h
  split at h
  · split at h
    · cases h
      rfl
    · cases h
  · cases h
    rfl

omit [DecidableEq α] in
lemma pendingRequests_readCommands (scheduler : Scheduler α) (now : Nat) :
    pendingRequests (scheduler.readCommands now) = pendingRequests scheduler := by
  simp [pendingRequests, Scheduler.readCommands, ScheduleRequest.enter, Function.comp_def]

omit [DecidableEq α] in
lemma pendingRequests_send (scheduler : Scheduler α) (request : ScheduleRequest α) :
    pendingRequests (scheduler.drawHandle.1.send request) = pendingRequests scheduler ++ [request] :=
  (List.append_assoc _ _ _).symm

omit [DecidableEq α] in
lemma pendingRequests_cancel (scheduler : Scheduler α) (handle : ScheduleHandle) :
    (pendingRequests (scheduler.cancel handle).1).Sublist (pendingRequests scheduler) :=
  (List.filter_sublist.map _).append (List.Sublist.refl _)

lemma pendingRequests_tick {after : Executor α} (hticks : Ticks executor after) :
    (pendingRequests after.scheduler).Sublist (pendingRequests executor.scheduler) := by
  have hleft : (after.scheduler.entries.map fun entry => entry.toScheduleRequest) =
      (executor.scheduler.entries.filter fun entry =>
        (entry.creditUntil executor.tickTime).afterTick.isSome).map fun entry =>
          entry.toScheduleRequest := by
    rw [hticks.entries]
    induction executor.scheduler.entries with
    | nil => rfl
    | cons entry rest ih =>
      rw [List.map_cons, List.filterMap_cons, List.filter_cons]
      cases hafter : (entry.creditUntil executor.tickTime).afterTick with
      | none => exact ih
      | some left =>
        have hsame : left.toScheduleRequest = entry.toScheduleRequest := by
          rw [eq_of_afterTick hafter]
          rfl
        simpa [hsame] using ih
  unfold pendingRequests
  rw [hleft, hticks.commands]
  exact (List.filter_sublist.map _).append (List.Sublist.refl _)

lemma handlesDrawn_run (hpool : HasPool executor) (h : HandlesDrawn executor)
    (calls : List (SchedulerCall α)) : HandlesDrawn (executorAfter executor calls) := by
  have hkept : KeptByTime fun (executor : Executor α) _ => HandlesDrawn executor := by
    refine ⟨fun h _ _ hticks request hmem => ?_, fun h hpasses => ?_, fun h hreads => ?_⟩
    · rw [hticks.nextHandle]
      exact h request ((pendingRequests_tick hticks).subset hmem)
    · unfold HandlesDrawn
      rw [hpasses.scheduler]
      exact h
    · unfold HandlesDrawn
      rw [hreads.scheduler, pendingRequests_readCommands]
      exact h
  refine hkept.run (fun _ => True) ?_ hpool h fun _ _ => trivial
  intro executor after _ call h _ hmove request hmem
  cases hmove with
  | drew _ drawn scheduler =>
    rw [scheduler] at hmem ⊢
    have := h request hmem
    dsimp only
    omega
  | sent _ _ scheduler =>
    rw [scheduler] at hmem ⊢
    rw [pendingRequests_send] at hmem
    rcases List.mem_append.1 hmem with hold | hnew
    · exact Nat.lt_succ_of_lt (h request hold)
    · rw [List.mem_singleton.1 hnew]
      exact Nat.lt_succ_self _
  | cancelled _ scheduler =>
    rw [scheduler] at hmem ⊢
    exact h request ((pendingRequests_cancel _ _).subset hmem)
  | shutDown _ scheduler =>
    rw [scheduler] at hmem
    exact absurd hmem List.not_mem_nil

end Runs

end ReliableDatagrams.Proofs
