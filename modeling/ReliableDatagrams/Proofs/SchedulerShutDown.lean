import ReliableDatagrams.Proofs.ExecutorRuns

/-!
# Schedulers that are shut down

A scheduler that is shut down has no entries, reads no requests and ticks no more. Nothing is pending,
nothing can be cancelled, and a call that is refused leaves no trace but the handle that it may have
drawn.

Only one kind of job is not refused. A job without delay needs no tick and goes to the pool at once, and
a pool that is not shut down itself takes it, since nobody asks the scheduler. `taken_after_shutDown_iff`
says that there is no other way, `begins_after_shutDown` is such a run. Without a pool the scheduler is
asked, and refuses these jobs too.
-/

namespace ReliableDatagrams.Proofs

variable {α : Type}

/-- An executor as it is made, with a pool of some workers or without a pool. -/
def executorWith (period : Nat) : Option Nat → Executor α
  | some workers => .withPool period workers
  | none => .withoutPool period

def PoolIsOpen (executor : Executor α) : Prop :=
  ∃ pool, executor.backend = .pool pool ∧ pool.isDown = false

/-- The scheduler takes no requests, and has neither requests nor entries. -/
structure IsShutDown (executor : Executor α) : Prop where
  closed : executor.scheduler.isOpen = false
  read : executor.scheduler.commands = []
  empty : executor.scheduler.entries = []

/-- The executor with another number for its next handle. -/
def withHandle (number : Nat) (executor : Executor α) : Executor α :=
  { executor with scheduler := { executor.scheduler with nextHandle := number } }

lemma isShutDown_shutDownScheduler (executor : Executor α) :
    IsShutDown executor.shutDownScheduler :=
  ⟨rfl, rfl, rfl⟩

/-- Whether a scheduler is shut down is for the scheduler to say. -/
lemma IsShutDown.congr {executor after : Executor α} (h : IsShutDown executor)
    (hsame : after.scheduler = executor.scheduler) : IsShutDown after :=
  ⟨by rw [hsame]; exact h.closed, by rw [hsame]; exact h.read, by rw [hsame]; exact h.empty⟩

lemma IsShutDown.passes_rest {executor : Executor α} (h : IsShutDown executor) :
    Passes executor executor.rest := by
  have hreads := reads_rest executor
  refine ⟨?_, Nat.le_refl _, rfl, hreads.pool⟩
  rw [hreads.scheduler, Scheduler.readCommands, h.read, List.map_nil, List.append_nil, ← h.read]

variable [DecidableEq α]

section Time

variable {executor : Executor α} (h : IsShutDown executor)

include h

omit [DecidableEq α] in
lemma IsShutDown.no_tick (limit : Nat) :
    ¬(executor.scheduler.isOpen ∧ 0 < executor.scheduler.period ∧
      executor.scheduler.nextTick ≤ limit) := by
  rintro ⟨hopen, -⟩
  rw [h.closed] at hopen
  cases hopen

lemma IsShutDown.runTicks (limit : Nat) : executor.runTicks limit = executor := by
  rw [Executor.runTicks, if_neg (h.no_tick limit)]

lemma IsShutDown.ticksBy (limit : Nat) : ticksBy executor limit = [] := by
  rw [Proofs.ticksBy, if_neg (h.no_tick limit)]

lemma IsShutDown.sleepUntil (time : Nat) :
    executor.sleepUntil time = executor.rest.advanceTo (max executor.now time) := by
  have hrest : IsShutDown executor.rest := h.congr h.passes_rest.scheduler
  have hpaused : IsShutDown (executor.rest.advanceTo (max executor.now time)) := hrest.congr rfl
  rw [Executor.sleepUntil, hrest.runTicks]
  exact hpaused.runTicks _

lemma IsShutDown.ticksAsleep (time : Nat) : ticksAsleep executor time = [] := by
  have hrest : IsShutDown executor.rest := h.congr h.passes_rest.scheduler
  have hpaused : IsShutDown (executor.rest.advanceTo (max executor.now time)) := hrest.congr rfl
  rw [Proofs.ticksAsleep, hrest.runTicks, hrest.ticksBy]
  exact hpaused.ticksBy _

end Time

/-- What comes of giving a job to a scheduler that is shut down. -/
inductive SchedulesLate (executor : Executor α) (job : Job α) (delay : Nat) (repeats : Bool) :
    Executor α × Except ScheduleError ScheduleHandle → Prop where
  /-- Nothing, except that a handle may have been drawn. -/
  | refused (error : ScheduleError) (number : Nat)
      (notFit : ¬(delay = 0 ∧ repeats = false ∧ PoolIsOpen executor)) :
      SchedulesLate executor job delay repeats (withHandle number executor, .error error)
  /-- The job goes to the pool. -/
  | taken {pool queued : WorkerPool α} (there : executor.backend = .pool pool)
      (isOpen : pool.isDown = false) (queues : pool.submit (numberedJob executor job) = .ok queued)
      (noDelay : delay = 0) (once : repeats = false) :
      SchedulesLate executor job delay repeats
        ({ executor with
            scheduler := executor.scheduler.drawHandle.1
            backend := .pool queued
            firings := (executor.countFiring job).1.firings },
          .ok executor.scheduler.drawHandle.2)

lemma fireNow_of_down {executor : Executor α} {pool : WorkerPool α}
    (hpool : executor.backend = .pool pool) (hdown : pool.isDown = true) (job : Job α) :
    executor.fireNow job = .error (.refused .poolIsDown) := by
  obtain ⟨now, scheduler, _, firings, history⟩ := executor
  subst hpool
  simp only [Executor.fireNow, Executor.countFiring, WorkerPool.submit, hdown, if_true]

lemma fireNow_of_taken {executor : Executor α} {pool queued : WorkerPool α}
    (hpool : executor.backend = .pool pool) {job : Job α}
    (htaken : pool.submit (numberedJob executor job) = .ok queued) :
    executor.fireNow job =
      .ok { executor with
        backend := .pool queued
        firings := (executor.countFiring job).1.firings } := by
  obtain ⟨now, scheduler, _, firings, history⟩ := executor
  subst hpool
  unfold numberedJob at htaken
  dsimp only [Executor.fireNow, Executor.countFiring] at htaken ⊢
  rw [htaken]

lemma fireNow_of_closed {executor : Executor α} {spawned : List (Job α)}
    {beside : List (RunningJob α)} (hpool : executor.backend = .scheduler spawned beside)
    (hclosed : executor.scheduler.isOpen = false) (job : Job α) :
    executor.fireNow job = .error .schedulerIsDown := by
  obtain ⟨now, scheduler, _, firings, history⟩ := executor
  subst hpool
  simp only [Executor.fireNow, Executor.countFiring]
  exact if_neg (ne_true_of_eq_false hclosed)

/-- A job without delay goes where it is fired, once a handle has been drawn for it. -/
lemma schedule_of_fired {executor after : Executor α} {job : Job α}
    (h : (withHandle (executor.scheduler.nextHandle + 1) executor).fireNow job = .ok after) :
    executor.schedule job 0 false = (after, .ok executor.scheduler.drawHandle.2) := by
  have hfire : { executor with scheduler := executor.scheduler.drawHandle.1 }.fireNow job =
      .ok after := h
  unfold Executor.schedule
  rw [if_neg fun hnever => Bool.false_ne_true hnever.2]
  dsimp only
  rw [if_pos rfl, hfire]

lemma schedule_of_unfired {executor : Executor α} {job : Job α} {error : ScheduleError}
    (h : (withHandle (executor.scheduler.nextHandle + 1) executor).fireNow job = .error error) :
    executor.schedule job 0 false =
      (withHandle (executor.scheduler.nextHandle + 1) executor, .error error) := by
  have hfire : { executor with scheduler := executor.scheduler.drawHandle.1 }.fireNow job =
      .error error := h
  unfold Executor.schedule
  rw [if_neg fun hnever => Bool.false_ne_true hnever.2]
  dsimp only
  rw [if_pos rfl, hfire]
  rfl

lemma IsShutDown.schedule {executor : Executor α} (h : IsShutDown executor) (job : Job α)
    (delay : Nat) (repeats : Bool) :
    SchedulesLate executor job delay repeats (executor.schedule job delay repeats) := by
  let drawn : Executor α := Proofs.withHandle (executor.scheduler.nextHandle + 1) executor
  have hclosed : drawn.scheduler.isOpen = false := h.closed
  by_cases hnever : delay = 0 ∧ repeats = true
  · rw [Executor.schedule, if_pos hnever]
    refine .refused _ executor.scheduler.nextHandle fun hfit => ?_
    rw [hfit.2.1] at hnever
    cases hnever.2
  by_cases hdelay : delay = 0
  · subst hdelay
    obtain rfl : repeats = false := Bool.eq_false_iff.2 fun hrepeats => hnever ⟨rfl, hrepeats⟩
    cases hbackend : executor.backend with
    | scheduler spawned beside =>
      have hdrawn : drawn.backend = .scheduler spawned beside := hbackend
      rw [schedule_of_unfired (fireNow_of_closed hdrawn hclosed job)]
      refine .refused _ _ ?_
      rintro ⟨-, -, pool, hpool, -⟩
      cases hbackend.symm.trans hpool
    | pool pool =>
      have hdrawn : drawn.backend = .pool pool := hbackend
      by_cases hdown : pool.isDown = true
      · rw [schedule_of_unfired (fireNow_of_down hdrawn hdown job)]
        refine .refused _ _ ?_
        rintro ⟨-, -, other, hother, hopen⟩
        rw [← Backend.pool.inj (hbackend.symm.trans hother), hdown] at hopen
        cases hopen
      · have htaken : pool.submit (numberedJob executor job) = .ok _ := if_neg hdown
        rw [schedule_of_fired (fireNow_of_taken hdrawn htaken)]
        exact .taken hbackend (Bool.eq_false_iff.2 hdown) htaken rfl rfl
  · rw [Executor.schedule, if_neg hnever]
    dsimp only
    rw [if_neg hdelay]
    change SchedulesLate executor job delay repeats (if drawn.scheduler.isOpen then _ else _)
    rw [hclosed, if_neg Bool.false_ne_true]
    exact .refused _ _ fun hfit => hdelay hfit.1

lemma IsShutDown.passes {executor : Executor α} (h : IsShutDown executor) {call : SchedulerCall α}
    (htakes : call.takesTime = true) :
    Passes executor (makeCall executor call).1 ∧ ticksDuring executor call = [] := by
  have hsleeps : ∀ {sleeper : Executor α}, Passes executor sleeper → ∀ time,
      Passes executor (sleeper.sleepUntil time) ∧ Proofs.ticksAsleep sleeper time = [] := by
    intro sleeper hpasses time
    have hsleeper : IsShutDown sleeper := h.congr hpasses.scheduler
    rw [hsleeper.sleepUntil]
    exact ⟨(hpasses.trans hsleeper.passes_rest).trans
      (passes_advance sleeper.rest (Nat.le_max_left _ _) _), hsleeper.ticksAsleep time⟩
  have hsame : Passes executor executor := ⟨rfl, Nat.le_refl _, rfl, id⟩
  cases call with
  | schedule | cancel | shutDownScheduler => cases htakes
  | sleep duration => exact hsleeps hsame (executor.now + duration)
  | stall duration => exact hsleeps (passes_leap executor duration) (executor.now + duration)
  | shutDownPool =>
    simp only [makeCall, ticksDuring, Executor.shutDownPool]
    cases executor.backend with
    | scheduler spawned beside => exact ⟨hsame, rfl⟩
    | pool pool => exact hsleeps (passes_close executor pool) (pool.lastFinish executor.now)

lemma IsShutDown.call {executor : Executor α} (h : IsShutDown executor) (call : SchedulerCall α) :
    IsShutDown (makeCall executor call).1 ∧ ticksDuring executor call = [] := by
  cases htakes : call.takesTime with
  | true => exact ⟨h.congr (h.passes htakes).1.scheduler, (h.passes htakes).2⟩
  | false =>
    refine ⟨?_, ticksDuring_eq_nil executor htakes⟩
    cases call with
    | sleep | stall | shutDownPool => cases htakes
    | shutDownScheduler => exact ⟨rfl, rfl, rfl⟩
    | cancel handle =>
      have hrest : IsShutDown executor.rest := h.congr h.passes_rest.scheduler
      refine ⟨hrest.closed, hrest.read, ?_⟩
      simp only [makeCall, Executor.cancel, Scheduler.cancel, hrest.empty, List.filter_nil]
    | schedule job delay repeats =>
      have hschedules := h.schedule job delay repeats
      simp only [makeCall]
      generalize executor.schedule job delay repeats = outcome at hschedules
      cases hschedules with
      | refused | taken => exact ⟨h.closed, h.read, h.empty⟩

lemma IsShutDown.run {executor : Executor α} (h : IsShutDown executor)
    (calls : List (SchedulerCall α)) :
    IsShutDown (executorAfter executor calls) ∧ ticksAfter executor calls = [] := by
  induction calls generalizing executor with
  | nil => exact ⟨h, rfl⟩
  | cons call rest ih =>
    obtain ⟨hnext, hnone⟩ := h.call call
    obtain ⟨hlater, hrest⟩ := ih hnext
    refine ⟨hlater, ?_⟩
    unfold ticksAfter at hrest ⊢
    rw [turnsOf, List.flatMap_cons, hnone, hrest, List.nil_append]

omit [DecidableEq α] in
lemma IsShutDown.withHandle {executor : Executor α} (h : IsShutDown executor) (number : Nat) :
    IsShutDown (withHandle number executor) :=
  ⟨h.closed, h.read, h.empty⟩

/-- A call does the same whatever the next handle is, as there are no entries to give one to. -/
lemma IsShutDown.sleepUntil_withHandle {executor : Executor α} (h : IsShutDown executor)
    (number time : Nat) :
    (Proofs.withHandle number executor).sleepUntil time =
      Proofs.withHandle number (executor.sleepUntil time) := by
  rw [h.sleepUntil, (h.withHandle number).sleepUntil]
  rfl

lemma IsShutDown.schedule_withHandle {executor : Executor α} (h : IsShutDown executor) (number : Nat)
    (job : Job α) (delay : Nat) (repeats : Bool) :
    ∃ next, ((Proofs.withHandle number executor).schedule job delay repeats).1 =
      Proofs.withHandle next (executor.schedule job delay repeats).1 := by
  have hfirst := h.schedule job delay repeats
  have hsecond := (h.withHandle number).schedule job delay repeats
  generalize executor.schedule job delay repeats = outcome at hfirst
  generalize (Proofs.withHandle number executor).schedule job delay repeats = later at hsecond
  cases hfirst with
  | refused error first notFit =>
    cases hsecond with
    | refused _ second => exact ⟨second, rfl⟩
    | taken there isOpen _ noDelay once =>
      exact absurd ⟨noDelay, once, _, there, isOpen⟩ notFit
  | taken there isOpen queues noDelay once =>
    cases hsecond with
    | refused _ _ notFit => exact absurd ⟨noDelay, once, _, there, isOpen⟩ notFit
    | taken thereToo _ queuesToo =>
      obtain rfl := Backend.pool.inj (there.symm.trans thereToo)
      obtain rfl := Except.ok.inj (queues.symm.trans queuesToo)
      exact ⟨number + 1, rfl⟩

lemma IsShutDown.call_withHandle {executor : Executor α} (h : IsShutDown executor) (number : Nat)
    (call : SchedulerCall α) :
    ∃ next, (makeCall (Proofs.withHandle number executor) call).1 =
      Proofs.withHandle next (makeCall executor call).1 := by
  cases call with
  | schedule job delay repeats => exact h.schedule_withHandle number job delay repeats
  | cancel handle => exact ⟨number, rfl⟩
  | sleep duration => exact ⟨number, h.sleepUntil_withHandle number _⟩
  | stall duration =>
    have hleap : IsShutDown { executor with now := executor.now + duration } := h.congr rfl
    exact ⟨number, hleap.sleepUntil_withHandle number _⟩
  | shutDownScheduler => exact ⟨number, rfl⟩
  | shutDownPool =>
    refine ⟨number, ?_⟩
    obtain ⟨now, scheduler, backend, firings, history⟩ := executor
    cases backend with
    | pool pool =>
      have hcloses : IsShutDown
          { now, scheduler, backend := .pool pool.close, firings, history : Executor α } :=
        h.congr rfl
      exact hcloses.sleepUntil_withHandle number _
    | scheduler spawned beside => rfl

lemma IsShutDown.run_withHandle {executor : Executor α} (h : IsShutDown executor) (number : Nat)
    (calls : List (SchedulerCall α)) :
    ∃ next, executorAfter (Proofs.withHandle number executor) calls =
      Proofs.withHandle next (executorAfter executor calls) := by
  induction calls generalizing executor number with
  | nil => exact ⟨number, rfl⟩
  | cons call rest ih =>
    obtain ⟨next, hnext⟩ := h.call_withHandle number call
    have hrest := ih (h.call call).1 next
    rw [← hnext] at hrest
    exact hrest

lemma IsShutDown.firingCount_call {executor : Executor α} (h : IsShutDown executor)
    (call : SchedulerCall α) (label : α) :
    firingCount (makeCall executor call).1 label = firingCount executor label +
      (Turn.fired ⟨call, (makeCall executor call).2, []⟩).countP fun job => job.label = label := by
  cases htakes : call.takesTime with
  | true =>
    have hnone : Turn.fired ⟨call, (makeCall executor call).2, []⟩ = [] := by
      cases call with
      | schedule | cancel | shutDownScheduler => cases htakes
      | sleep | stall | shutDownPool => rfl
    rw [hnone, firingCount, (h.passes htakes).1.firings]
    rfl
  | false =>
    cases call with
    | sleep | stall | shutDownPool => cases htakes
    | cancel | shutDownScheduler => rfl
    | schedule job delay repeats =>
      have hschedules := h.schedule job delay repeats
      simp only [makeCall]
      generalize executor.schedule job delay repeats = outcome at hschedules
      cases hschedules with
      | refused => cases delay <;> rfl
      | taken _ _ _ noDelay =>
        subst noDelay
        have hone : [job].countP (fun job => job.label = label) =
            if job.label = label then 1 else 0 := by
          simp only [List.countP_singleton, decide_eq_true_eq]
        exact (firingCount_countFiring executor job label).trans (congrArg _ hone.symm)

lemma IsShutDown.firingCount_run {executor : Executor α} (h : IsShutDown executor)
    (calls : List (SchedulerCall α)) (label : α) :
    firingCount (executorAfter executor calls) label = firingCount executor label +
      ((turnsOf executor calls).flatMap Turn.fired).countP fun job => job.label = label := by
  induction calls generalizing executor with
  | nil => rfl
  | cons call rest ih =>
    have hfirst := h.firingCount_call call label
    have hrest := ih (h.call call).1
    rw [turnsOf, List.flatMap_cons, List.countP_append, ← Nat.add_assoc, (h.call call).2, ← hfirst]
    exact hrest

/-- How an executor answers whose scheduler is shut down. -/
structure IsOutOfService (executor : Executor α) : Prop where
  pendingCount : executor.scheduler.pendingCount = 0
  cancel : ∀ handle, (executor.cancel handle).2 = false
  taken : ∀ job delay repeats, (∃ handle, (executor.schedule job delay repeats).2 = .ok handle) ↔
    delay = 0 ∧ repeats = false ∧ PoolIsOpen executor
  /-- A refused job never begins: all goes on as without the call. -/
  refused : ∀ job delay repeats error, (executor.schedule job delay repeats).2 = .error error →
    ∀ later, ∃ next, executorAfter (executor.schedule job delay repeats).1 later =
      withHandle next (executorAfter executor later)
  handedOver : ∀ job delay repeats handle, (executor.schedule job delay repeats).2 = .ok handle →
    ∃ pool queued, executor.backend = .pool pool ∧
      pool.submit (numberedJob executor job) = .ok queued ∧
      (executor.schedule job delay repeats).1.backend = .pool queued

lemma IsShutDown.outOfService {executor : Executor α} (h : IsShutDown executor) :
    IsOutOfService executor := by
  refine ⟨?_, fun handle => ?_, fun job delay repeats => ?_, fun job delay repeats error hrefused => ?_,
    fun job delay repeats handle htaken => ?_⟩
  · rw [Scheduler.pendingCount, h.empty, h.read]
    rfl
  · have hrest : IsShutDown executor.rest := h.congr h.passes_rest.scheduler
    simp only [Executor.cancel, Scheduler.cancel, Scheduler.isPending, hrest.empty, List.any_nil]
  · have hschedules := h.schedule job delay repeats
    generalize executor.schedule job delay repeats = outcome at hschedules
    cases hschedules with
    | refused error number notFit =>
      refine ⟨?_, fun hfit => absurd hfit notFit⟩
      rintro ⟨handle, hresult⟩
      cases hresult
    | taken there isOpen _ noDelay once =>
      exact ⟨fun _ => ⟨noDelay, once, _, there, isOpen⟩, fun _ => ⟨_, rfl⟩⟩
  · have hschedules := h.schedule job delay repeats
    generalize executor.schedule job delay repeats = outcome at hschedules hrefused
    cases hschedules with
    | refused _ number => exact h.run_withHandle number
    | taken => cases hrefused
  · have hschedules := h.schedule job delay repeats
    generalize executor.schedule job delay repeats = outcome at hschedules htaken
    cases hschedules with
    | refused => cases htaken
    | taken there _ queues => exact ⟨_, _, there, queues, rfl⟩

/-- After any run and a shutdown of the scheduler, whatever is called later, nothing is pending, nothing
can be cancelled and no entry is fired. A job is taken if and only if it has no delay, does not repeat
and there is a pool that is not shut down, which it goes to; a refused one never begins. -/
theorem taken_after_shutDown_iff (period : Nat) (workers : Option Nat)
    (calls later : List (SchedulerCall α)) :
    let shut : Executor α := (executorAfter (executorWith period workers) calls).shutDownScheduler
    IsOutOfService (executorAfter shut later) ∧ ticksAfter shut later = [] ∧
      ∀ label, firingCount (executorAfter shut later) label = firingCount shut label +
        ((turnsOf shut later).flatMap Turn.fired).countP fun job => job.label = label := by
  intro shut
  have hshut : IsShutDown shut := isShutDown_shutDownScheduler _
  obtain ⟨hlater, hnone⟩ := hshut.run later
  exact ⟨hlater.outOfService, hnone, hshut.firingCount_run later⟩

/-- An entry that is due again and again is not fired after the shutdown, and a job with a delay is
refused. A job without delay begins. -/
theorem taken_after_shutDown_iff_without_delay :
    let calls : List (SchedulerCall String) := [.schedule { label := "each" } 30 true, .sleep 60]
    let later : List (SchedulerCall String) :=
      [.schedule { label := "late" } 30 false, .schedule { label := "now" } 0 false, .sleep 100]
    let shut := (executorAfter (executorWith 50 (some 1)) calls).shutDownScheduler
    let executor := executorAfter shut later
    IsOutOfService executor ∧ ticksAfter shut later = [] ∧
      ["each", "late", "now"].map (firingCount executor) = [1, 0, 1] := by
  intro calls later shut executor
  obtain ⟨hservice, hnone, -⟩ := taken_after_shutDown_iff 50 (some 1) calls later
  exact ⟨hservice, hnone, by decide +kernel⟩

/-- With a pool, a job without delay begins although the scheduler is shut down. -/
theorem begins_after_shutDown :
    let shut : Executor String := (executorAfter (executorWith 50 (some 1)) []).shutDownScheduler
    let outcome := shut.schedule { label := "late" } 0 false
    outcome.2 = .ok ⟨1⟩ ∧
      outcome.1.rest.history = [{ time := 0, label := "late", firing := 1, event := .began }] := by
  intro shut outcome
  have htaken : outcome.2.toOption = some ⟨1⟩ := by decide +kernel
  cases hresult : outcome.2 with
  | error error =>
    rw [hresult] at htaken
    cases htaken
  | ok handle =>
    rw [hresult] at htaken
    exact ⟨congrArg Except.ok (Option.some.inj htaken), by decide +kernel⟩

end ReliableDatagrams.Proofs
