import ReliableDatagrams.Proofs.ServedInOrder

/-!
# Shutting a pool down

A shutdown is called at any moment of a run, while workers wait for the receiver, come to the line or are
at work, and while supervisors are about to replace those that failed. From the call on no job is
accepted or begins and no worker is replaced, whoever gets the next turn (`WorkMove.windsDown`). As long
as the shutdown has not returned there is something left to do, and less of it after each move; when it
returns nobody is left, and the pool never changes again.
-/

namespace ReliableDatagrams.Proofs

variable {α : Type}

def endedJobs (events : List (WorkEvent α)) : List (Job α) :=
  events.filterMap WorkEvent.ended?

/-- The event is one that a shutdown lets happen. -/
def WorkEvent.isClosing : WorkEvent α → Bool
  | ended _ _ => true
  | arranged => true
  | _ => false

section Closing

variable {pool after : WorkerPool α} {now later : Nat} {event : WorkEvent α}
  {events : List (WorkEvent α)}

lemma IsStaffed.close (h : IsStaffed pool) : IsStaffed pool.close := by
  unfold WorkerPool.close
  split
  · exact h
  · rename_i hopen
    have hline : (pool.line ++ [Waiting.shutdown]).count .worker = pool.line.count .worker := by
      rw [List.count_append, List.count_singleton]
      rfl
    refine ⟨h.places, ?_, ?_, h.queued, fun isOpen => ?_, fun _ hnone => ?_⟩
    · simpa only [hline] using h.workers
    · simpa only [hline] using h.idle
    · cases isOpen
    · exact absurd (List.mem_append_right _ List.mem_cons_self) hnone

/-- While a pool is down, a move at most ends a job that is at work. -/
lemma WorkMove.windsDown (h : pool.isDown = true) (move : WorkMove pool now event after) :
    event.isClosing = true ∧ after.running.Sublist pool.running ∧
      (pool.running.map RunningJob.job).Perm
        (event.ended?.toList ++ after.running.map RunningJob.job) := by
  have hkept : after.running = pool.running → event.ended? = none →
      after.running.Sublist pool.running ∧ (pool.running.map RunningJob.job).Perm
        (event.ended?.toList ++ after.running.map RunningJob.job) := by
    intro hrunning hnone
    rw [hrunning, hnone]
    exact ⟨.refl _, .refl _⟩
  cases move with
  | submit taken =>
    rw [WorkerPool.submit, if_pos h] at taken
    cases taken
  | replace bereft isOpen => exact absurd h (ne_true_of_eq_false isOpen)
  | take isOpen first next => exact absurd h (ne_true_of_eq_false isOpen)
  | giveUp bereft isDown =>
    refine ⟨rfl, hkept ?_ rfl⟩
    rw [WorkerPool.replace, if_pos h]
  | lineUp arriving =>
    refine ⟨rfl, hkept ?_ rfl⟩
    rw [WorkerPool.lineUp, if_pos h]
  | @finish front back done there due =>
    rw [WorkerPool.running_finish, there]
    refine ⟨rfl, (List.Sublist.refl front).append (List.sublist_cons_self done back), ?_⟩
    simp only [List.map_append, List.map_cons]
    exact List.perm_middle
  | _ => exact ⟨rfl, hkept rfl rfl⟩

lemma WorkRun.windsDown (h : pool.isDown = true) (run : WorkRun pool now events after later) :
    (∀ event ∈ events, event.isClosing = true) ∧ after.running.Sublist pool.running ∧
      (pool.running.map RunningJob.job).Perm
        (endedJobs events ++ after.running.map RunningJob.job) := by
  induction run with
  | start => exact ⟨fun _ hmem => absurd hmem List.not_mem_nil, .refl _, .refl _⟩
  | wait _ _ ih => exact ih
  | @move events between after now event run move ih =>
    obtain ⟨hclosing, hsublist, hperm⟩ := ih
    obtain ⟨hevent, hnext, hmoved⟩ := move.windsDown (run.unchanged.2.trans h)
    refine ⟨fun other hmem => ?_, hnext.trans hsublist, hperm.trans ?_⟩
    · rcases List.mem_append.1 hmem with hold | hnew
      · exact hclosing other hold
      · exact List.mem_singleton.1 hnew ▸ hevent
    · have hended : endedJobs (events ++ [event]) = endedJobs events ++ event.ended?.toList := by
        cases hover : event.ended? <;> simp [endedJobs, hover]
      rw [hended, List.append_assoc]
      exact hmoved.append_left _

lemma submitAll_of_down (h : pool.isDown = true) (jobs : List (Job α)) :
    pool.submitAll jobs = (pool, jobs.map fun _ => .error .poolIsDown) := by
  induction jobs with
  | nil => rfl
  | cons job rest ih =>
    have hsubmit : pool.submit job = .error .poolIsDown := if_pos h
    simp only [WorkerPool.submitAll, hsubmit, ih, List.map_cons]

/-- What happens between the call of a shutdown, with the pool as it was before, and any later
moment. -/
structure WindsDown (pool : WorkerPool α) (events : List (WorkEvent α)) (after : WorkerPool α) :
    Prop where
  accepted : acceptedJobs events = []
  begun : begunJobs events = []
  kept : .replaced ∉ events
  ended : (pool.running.map RunningJob.job).Perm
    (endedJobs events ++ after.running.map RunningJob.job)
  refuses : ∀ jobs, after.submitAll jobs = (after, jobs.map fun _ => .error .poolIsDown)
  again : after.close = after

lemma windsDown_of_run (run : WorkRun pool.close now events after later) :
    WindsDown pool events after := by
  have hdown : after.isDown = true := run.unchanged.2.trans pool.isDown_close
  obtain ⟨hclosing, -, hperm⟩ := run.windsDown pool.isDown_close
  rw [WorkerPool.running_close] at hperm
  refine ⟨?_, ?_, fun hmem => ?_, hperm, submitAll_of_down hdown, if_pos hdown⟩
  · refine List.flatMap_eq_nil_iff.2 fun event hmem => ?_
    have := hclosing event hmem
    cases event <;> first | rfl | cases this
  · refine List.filterMap_eq_nil_iff.2 fun event hmem => ?_
    have := hclosing event hmem
    cases event <;> first | rfl | cases this
  · cases hclosing _ hmem

/-- A pool that nothing changes any more. -/
structure IsDownForGood (pool : WorkerPool α) : Prop where
  running : pool.running = []
  workers : pool.workerCount = 0
  idle : pool.idleCount = 0
  queued : pool.queuedCount = 0
  unchanged : ∀ (now : Nat) (events : List (WorkEvent α)) (after : WorkerPool α) (later : Nat),
    WorkRun pool now events after later → events = [] ∧ after = pool
  again : ∀ now, (⟨pool, now⟩ : PoolSession α).perform .shutDown = (⟨pool, now⟩, [], [])

lemma hasShutDown_iff (pool : WorkerPool α) : pool.hasShutDown = true ↔
    pool.isDown = true ∧ .shutdown ∉ pool.line ∧ pool.gone = pool.size := by
  simp [WorkerPool.hasShutDown]

lemma eq_nil_of_count {line : List Waiting} (hworker : line.count .worker = 0)
    (hshutdown : .shutdown ∉ line) : line = [] := by
  refine List.eq_nil_iff_forall_not_mem.2 fun waiting hmem => ?_
  cases waiting with
  | worker => exact List.count_eq_zero.1 hworker hmem
  | shutdown => exact hshutdown hmem

lemma IsStaffed.deserted (h : IsStaffed pool) (hover : pool.hasShutDown = true) :
    pool.running = [] ∧ pool.line = [] ∧ pool.queue = [] := by
  obtain ⟨hdown, hline, hgone⟩ := (hasShutDown_iff pool).1 hover
  obtain ⟨places, workers, idle, queued, -, discarded⟩ := h
  exact ⟨List.length_eq_zero_iff.1 (by omega), eq_nil_of_count (by omega) hline,
    discarded hdown hline⟩

lemma IsStaffed.not_move (h : IsStaffed pool) (hover : pool.hasShutDown = true) :
    ¬ WorkMove pool now event after := by
  obtain ⟨hrunning, hnobody, -⟩ := h.deserted hover
  obtain ⟨hdown, -, hgone⟩ := (hasShutDown_iff pool).1 hover
  obtain ⟨places, workers, -⟩ := h
  intro move
  cases move with
  | submit taken =>
    rw [WorkerPool.submit, if_pos hdown] at taken
    cases taken
  | take isOpen => exact absurd hdown (ne_true_of_eq_false isOpen)
  | finish there =>
    rw [hrunning] at there
    exact absurd there (by simp)
  | dismiss isDown there =>
    rw [hnobody] at there
    exact absurd there (by simp)
  | discard first =>
    rw [hnobody] at first
    cases first
  | _ => omega

lemma IsStaffed.unchanged_run (h : IsStaffed pool) (hover : pool.hasShutDown = true)
    (run : WorkRun pool now events after later) : events = [] ∧ after = pool := by
  induction run with
  | start => exact ⟨rfl, rfl⟩
  | wait _ _ ih => exact ih
  | move _ move ih =>
    obtain ⟨-, rfl⟩ := ih
    exact absurd move (h.not_move hover)

lemma IsStaffed.isDownForGood (h : IsStaffed pool) (hover : pool.hasShutDown = true) :
    IsDownForGood pool := by
  obtain ⟨hrunning, hnobody, hqueue⟩ := h.deserted hover
  obtain ⟨hdown, -, hgone⟩ := (hasShutDown_iff pool).1 hover
  have hclose : pool.close = pool := if_pos hdown
  refine ⟨hrunning, ?_, ?_, ?_, fun _ _ _ _ => h.unchanged_run hover, fun now => ?_⟩
  · have := h.places
    omega
  · rw [h.idle, hnobody]
    rfl
  · rw [h.queued, hqueue]
    rfl
  · have hlast : pool.lastFinish now = now := by
      rw [WorkerPool.lastFinish, hrunning]
      rfl
    obtain ⟨events, hrun, hnoted, -⟩ := runUntil_follows pool (Nat.le_refl now)
    obtain ⟨rfl, hsame⟩ := h.unchanged_run hover hrun
    simp only [PoolSession.perform, PoolSession.advanceTo, hclose, hlast, hsame]
    rw [← hnoted]
    rfl

/-- A shutdown has returned when nobody in the pool has anything to do and no job is at work. -/
lemma IsStaffed.hasShutDown (h : IsStaffed pool) (hdown : pool.isDown = true)
    (hfilled : IsFilled pool) (hrunning : pool.running = []) : pool.hasShutDown = true := by
  obtain ⟨hvacancies, hbereft, harriving, hleft, hline⟩ := hfilled
  have hnobody : pool.line = [] := by
    rcases hline with hnobody | ⟨-, hopen, -⟩
    · exact hnobody
    · exact absurd hdown (ne_true_of_eq_false hopen)
  obtain ⟨places, workers, -⟩ := h
  rw [hnobody, hrunning] at workers
  simp only [List.count_nil, List.length_nil] at workers
  exact (hasShutDown_iff pool).2 ⟨hdown, by rw [hnobody]; exact List.not_mem_nil, by omega⟩

/-- Until it returns, somebody has something to do, at the latest when a job at work is over. -/
lemma IsStaffed.exists_move (h : IsStaffed pool) (hdown : pool.isDown = true)
    (hover : pool.hasShutDown = false) (now : Nat) :
    ∃ time event next, now ≤ time ∧ WorkMove pool time event next := by
  by_contra hnone
  have hstuck : ∀ {time : Nat} {event : WorkEvent α} {next : WorkerPool α}, now ≤ time →
      ¬ WorkMove pool time event next := fun hle move => hnone ⟨_, _, _, hle, move⟩
  have hrest : IsAtRest pool now := fun event next move => absurd move (hstuck (Nat.le_refl now))
  have hrunning : pool.running = [] := by
    cases hjobs : pool.running with
    | nil => rfl
    | cons first rest =>
      have hsplit : pool.running = [] ++ first :: rest := hjobs
      exact absurd (.finish hsplit (Nat.le_max_right now first.finish))
        (hstuck (Nat.le_max_left _ _))
  rw [h.hasShutDown hdown hrest.isFilled hrunning] at hover
  cases hover

end Closing

lemma le_lastFinish (pool : WorkerPool α) (now : Nat) :
    now ≤ pool.lastFinish now ∧ ∀ job ∈ pool.running, job.finish ≤ pool.lastFinish now := by
  unfold WorkerPool.lastFinish
  induction pool.running generalizing now with
  | nil => exact ⟨Nat.le_refl _, fun _ hmem => absurd hmem List.not_mem_nil⟩
  | cons first rest ih =>
    obtain ⟨hnow, hrest⟩ := ih (max now first.finish)
    refine ⟨Nat.le_trans (Nat.le_max_left _ _) hnow, fun job hmem => ?_⟩
    rcases List.mem_cons.1 hmem with rfl | hmem
    · exact Nat.le_trans (Nat.le_max_right _ _) hnow
    · exact hrest job hmem

/-- A shutdown that waits for the last job has returned when that job is over. -/
lemma perform_shutDown {pool : WorkerPool α} (h : IsStaffed pool) (now : Nat) :
    let shutDown := (⟨pool, now⟩ : PoolSession α).perform .shutDown
    shutDown.1.pool.hasShutDown = true ∧ ∃ events,
      WorkRun pool.close now events shutDown.1.pool shutDown.1.now ∧
      events.filterMap WorkEvent.noted? = shutDown.2.2 := by
  intro shutDown
  obtain ⟨hnow, hlast⟩ := le_lastFinish pool.close now
  obtain ⟨events, hrun, hnoted, -⟩ := runUntil_follows pool.close hnow
  refine ⟨?_, events, hrun, hnoted⟩
  obtain ⟨-, hsublist, -⟩ := hrun.windsDown pool.isDown_close
  -- what is still at work was at work at the call, so that it is over by now
  have hrunning : shutDown.1.pool.running = [] := by
    refine List.eq_nil_iff_forall_not_mem.2 fun job hmem => ?_
    exact Nat.not_lt.2 (hlast job (hsublist.subset hmem)) (early_runUntil _ _ _ job hmem)
  exact (hrun.isStaffed h.close).hasShutDown (hrun.unchanged.2.trans pool.isDown_close)
    (isFilled_runUntil _ _ _) hrunning

/-- A shutdown is called at any moment of a run. From the call on, in whatever order those in the pool
take their turns, no job is accepted or begins, no worker is replaced, the jobs that were at work are
those that have come to their ends and those that are still at work, jobs are refused without any
change, and another call does nothing. Until the shutdown returns there is always something left to do
and every move takes something from it, so that it does return. Then no job is at work, all counters
are 0, and nothing changes any more. To wait for the last job is such a run, too. -/
theorem shutdown_waits_for_jobs_at_work {size : Nat} {timeline : List (WorkEvent α)}
    {pool : WorkerPool α} {now : Nat} (reached : WorkRun { size } 0 timeline pool now) :
    (∀ (events : List (WorkEvent α)) (after : WorkerPool α) (later : Nat),
      WorkRun pool.close now events after later →
        WindsDown pool events after ∧
        (after.hasShutDown = true → IsDownForGood after) ∧
        (after.hasShutDown = false → ∃ time event next, later ≤ time ∧
          WorkMove after time event next) ∧
        ∀ time event next, WorkMove after time event next → next.load < after.load) ∧
    let shutDown := (⟨pool, now⟩ : PoolSession α).perform .shutDown
    shutDown.1.pool.hasShutDown = true ∧
    ∃ events, WorkRun pool.close now events shutDown.1.pool shutDown.1.now ∧
      events.filterMap WorkEvent.noted? = shutDown.2.2 := by
  have hstaffed := reached.isStaffed (isStaffed_starting size)
  refine ⟨fun events after later run => ?_, perform_shutDown hstaffed now⟩
  have hthere := run.isStaffed hstaffed.close
  have hdown := run.unchanged.2.trans pool.isDown_close
  refine ⟨windsDown_of_run run, hthere.isDownForGood,
    fun hwaits => hthere.exists_move hdown hwaits later, fun time event next move => ?_⟩
  refine move.load_lt ?_
  have hclosing := (move.windsDown hdown).1
  cases event <;> first | rfl | cases hclosing

/-- A job is at work for a while, one is about to fail, and one waits. -/
def longAndFailing : List (PoolStep String) :=
  [.submit [{ label := "long", duration := 10 },
      { label := "failing", duration := 5, fails := true }],
    .sleep 2]

/-- The shutdown is called when a third job was handed over that an idle worker could take. -/
theorem longAndFailing_end_without_a_third :
    let session := (runSteps { pool := { size := 3 } } longAndFailing).1
    let third : Job String := { label := "third" }
    let pool := (session.pool.submitAll [third]).1
    let shutDown := (⟨pool, session.now⟩ : PoolSession String).perform .shutDown
    (∃ timeline, WorkRun { size := 3 } 0 timeline pool session.now) ∧
    (pool.queuedCount = 1 ∧ pool.idleCount = 1 ∧ pool.workerCount = 3) ∧
    (∃ events, WindsDown pool events shutDown.1.pool) ∧
    IsDownForGood shutDown.1.pool ∧
    shutDown.2.2 = [⟨5, "failing", 0, .failed⟩, ⟨10, "long", 0, .ended⟩] := by
  intro session third pool shutDown
  have hopen : ∀ step ∈ longAndFailing, keepsOpen step = true := by decide
  obtain ⟨timeline, htells⟩ :=
    @exists_tells String { pool := { size := 3 } } rfl longAndFailing hopen
  have hthird : WorkRun session.pool session.now [.handedOver third] pool session.now :=
    submitAll_run htells.run.unchanged.2 [third]
  have reached := htells.run.trans hthird
  obtain ⟨hmeanwhile, hover, events, hrun, -⟩ := shutdown_waits_for_jobs_at_work reached
  obtain ⟨hwinds, hgood, -⟩ := hmeanwhile events _ _ hrun
  exact ⟨⟨_, reached⟩, by decide +kernel, ⟨events, hwinds⟩, hgood hover, by decide +kernel⟩

end ReliableDatagrams.Proofs
