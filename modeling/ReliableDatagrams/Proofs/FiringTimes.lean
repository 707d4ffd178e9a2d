import Mathlib.Data.List.Basic
import ReliableDatagrams.Proofs.ExecutorRuns

/-!
# When entries are fired

The delay of an entry counts from the time at which its request is read, and again from each of its
firings. That is the time of the call, except when the clock leaps before anyone waits (`leapBefore`).
The entry is fired at the first tick at which its delay is over (`firingTimes`), whatever else is
scheduled, cancelled or fired meanwhile: the ticks are those of a scheduler that has nothing to do, and
a tick treats every entry alike.
-/

namespace ReliableDatagrams.Proofs

/-- The times of firing among the times of ticks, for a delay that counts from `since`. -/
def firingTimes (delay : Nat) (repeats : Bool) (since : Nat) : List Nat → List Nat
  | [] => []
  | time :: rest =>
    if since + delay ≤ time then
      time :: if repeats then firingTimes delay repeats time rest else []
    else firingTimes delay repeats since rest

variable {α : Type}

def firingsOf (handle : ScheduleHandle) (ticks : List (HandledTick α)) : List Nat :=
  ticks.flatMap fun tick =>
    (tick.fired.filter fun entry => entry.handle = handle).map fun _ => tick.time

def entriesUnder (handle : ScheduleHandle) (entries : List (ScheduleEntry α)) :
    List (ScheduleEntry α) :=
  entries.filter fun entry => entry.handle = handle

lemma afterTick_filter (handle : ScheduleHandle) (entry : ScheduleEntry α) :
    (entry.afterTick.filter fun after => after.handle = handle) =
      if entry.handle = handle then entry.afterTick else none := by
  unfold ScheduleEntry.afterTick
  by_cases hown : entry.handle = handle
  · rw [if_pos hown]
    split
    · split
      · exact Option.filter_some_pos (decide_eq_true hown)
      · rfl
    · exact Option.filter_some_pos (decide_eq_true hown)
  · rw [if_neg hown]
    split
    · split
      · exact Option.filter_some_neg (decide_eq_false hown)
      · rfl
    · exact Option.filter_some_neg (decide_eq_false hown)

lemma entriesUnder_afterTick (handle : ScheduleHandle) (entries : List (ScheduleEntry α))
    (time : Nat) :
    entriesUnder handle ((entries.map fun entry => entry.creditUntil time).filterMap
        ScheduleEntry.afterTick) =
      ((entriesUnder handle entries).map fun entry => entry.creditUntil time).filterMap
        ScheduleEntry.afterTick := by
  unfold entriesUnder
  rw [List.filter_filterMap, List.filterMap_map, List.filterMap_map, List.filterMap_filter]
  refine List.filterMap_congr fun entry _ => ?_
  simp only [Function.comp_apply, decide_eq_true_eq]
  exact afterTick_filter handle (entry.creditUntil time)

lemma entriesUnder_fired (handle : ScheduleHandle) (executor : Executor α) :
    entriesUnder handle (nextHandled executor).fired =
      ((entriesUnder handle executor.scheduler.entries).map fun entry =>
        entry.creditUntil executor.tickTime).filter ScheduleEntry.isDue := by
  unfold entriesUnder nextHandled
  dsimp only
  simp only [List.filter_map, List.filter_filter, Function.comp_def, ScheduleEntry.creditUntil,
    Bool.and_comm]

/-- When a tick and requests wait for the scheduler at one time, either may come first: an entry that
was just read has no credit yet. -/
lemma tick_readCommands (scheduler : Scheduler α) (now : Nat)
    (h : ∀ request ∈ scheduler.commands, 0 < request.delay) :
    (scheduler.readCommands now).tick now =
      ((scheduler.tick now).1.readCommands now, (scheduler.tick now).2) := by
  have hfresh : ∀ request ∈ scheduler.commands,
      (((request.enter now).creditUntil now).isDue = false ∧
        ((request.enter now).creditUntil now).afterTick = some (request.enter now)) := by
    intro request hmem
    have hsame : (request.enter now).creditUntil now = request.enter now := by
      simp [ScheduleEntry.creditUntil, ScheduleRequest.enter]
    have hwaits : (request.enter now).isDue = false := decide_eq_false (Nat.not_le.2 (h request hmem))
    rw [hsame]
    exact ⟨hwaits, by rw [ScheduleEntry.afterTick, hwaits]; rfl⟩
  have hdue : ((scheduler.commands.map fun request => request.enter now).map fun entry =>
      entry.creditUntil now).filter ScheduleEntry.isDue = [] := by
    simpa [List.filter_eq_nil_iff] using fun request hmem => (hfresh request hmem).1
  have hafter : ((scheduler.commands.map fun request => request.enter now).map fun entry =>
      entry.creditUntil now).filterMap ScheduleEntry.afterTick =
        scheduler.commands.map fun request => request.enter now := by
    rw [List.filterMap_map, List.filterMap_map, ← List.filterMap_eq_map']
    exact List.filterMap_congr fun request hmem => (hfresh request hmem).2
  simp only [Scheduler.tick, Scheduler.readCommands, List.map_append, List.filterMap_append,
    List.filter_append, hdue, hafter, List.append_nil]
  rfl

/-- A request, and when it was read. -/
structure ReadRequest (α : Type) extends ScheduleRequest α where
  readAt : Nat

/-- The entry of a request with the time that it has been credited. -/
def ReadRequest.entry (request : ReadRequest α) (credit creditedAt : Nat) : ScheduleEntry α :=
  { request.toScheduleRequest with credit, creditedAt }

/-- Where a request stands: its delay counts since some time, or it is over. -/
inductive Stands (request : ReadRequest α) (executor : Executor α) : Option Nat → Prop where
  | waits {since credit : Nat}
      (alone : entriesUnder request.handle executor.scheduler.entries =
        [request.entry credit (since + credit)])
      (credited : since + credit ≤ executor.now) : Stands request executor (some since)
  | isOver (gone : entriesUnder request.handle executor.scheduler.entries = []) :
      Stands request executor none

def ReadRequest.firings (request : ReadRequest α) : Option Nat → List Nat → List Nat
  | some since, times => firingTimes request.delay request.repeats since times
  | none, _ => []

/-- A request has been served as its delay says, and will be. -/
structure IsServed (request : ReadRequest α) (executor : Executor α) (ticks : List (HandledTick α)) :
    Prop where
  handle : request.handle.number < executor.scheduler.nextHandle
  read : ∀ other ∈ executor.scheduler.commands, other.handle ≠ request.handle
  onTime : ∃ standing, Stands request executor standing ∧ ∀ later,
    firingTimes request.delay request.repeats request.readAt (ticks.map HandledTick.time ++ later) =
      firingsOf request.handle ticks ++ request.firings standing later
  atMostOnce : ∀ tick ∈ ticks,
    ((entriesUnder request.handle tick.fired).map fun entry => entry.job).Sublist [request.job]

lemma ReadRequest.creditUntil_entry (request : ReadRequest α) {since credit time : Nat}
    (h : since + credit ≤ time) :
    (request.entry credit (since + credit)).creditUntil time =
      request.entry (time - since) (since + (time - since)) := by
  unfold ScheduleEntry.creditUntil ReadRequest.entry
  dsimp only
  rw [show credit + (time - (since + credit)) = time - since by omega,
    show since + (time - since) = time by omega]

lemma ReadRequest.isDue_entry (request : ReadRequest α) {since time : Nat} (h : since ≤ time)
    (creditedAt : Nat) :
    (request.entry (time - since) creditedAt).isDue = decide (since + request.delay ≤ time) :=
  decide_eq_decide.2 (show request.delay ≤ time - since ↔ _ by omega)

/-- An entry that repeats starts anew when it is fired. -/
lemma ReadRequest.afterTick_entry (request : ReadRequest α) {since time : Nat} (h : since ≤ time) :
    (request.entry (time - since) (since + (time - since))).afterTick =
      if since + request.delay ≤ time then
        if request.repeats then some (request.entry 0 (time + 0)) else none
      else some (request.entry (time - since) (since + (time - since))) := by
  unfold ScheduleEntry.afterTick
  rw [request.isDue_entry h, Nat.add_sub_cancel' h]
  simp only [decide_eq_true_eq]
  rfl

lemma Stands.tick [DecidableEq α] {request : ReadRequest α} {executor after : Executor α}
    {standing : Option Nat} (h : Stands request executor standing) (hticks : Ticks executor after) :
    ∃ next, Stands request after next ∧
      (∀ later, request.firings standing (executor.tickTime :: later) =
        firingsOf request.handle [nextHandled executor] ++ request.firings next later) ∧
      ((entriesUnder request.handle (nextHandled executor).fired).map fun entry => entry.job).Sublist
        [request.job] := by
  have hleft := entriesUnder_afterTick request.handle executor.scheduler.entries executor.tickTime
  have hfirings : firingsOf request.handle [nextHandled executor] =
      (entriesUnder request.handle (nextHandled executor).fired).map fun _ => executor.tickTime :=
    List.append_nil _
  rw [← hticks.entries] at hleft
  rw [hfirings, entriesUnder_fired]
  cases h with
  | isOver gone =>
    rw [gone] at hleft ⊢
    exact ⟨none, .isOver hleft, fun _ => rfl, List.nil_sublist _⟩
  | @waits since credit alone credited =>
    have hlater : since + credit ≤ executor.tickTime :=
      Nat.le_trans credited (Nat.le_max_left _ _)
    have hsince : since ≤ executor.tickTime := by omega
    have hnow := Nat.le_of_eq hticks.now.symm
    -- credit and time of the last tick have moved by the same, so the delay still counts from `since`
    rw [alone, List.map_singleton, request.creditUntil_entry hlater] at hleft ⊢
    rw [List.filterMap_cons, request.afterTick_entry hsince] at hleft
    rw [List.filter_singleton, request.isDue_entry hsince]
    by_cases hdue : since + request.delay ≤ executor.tickTime
    · simp only [hdue, if_true, decide_true, cond_true] at hleft ⊢
      cases hrepeats : request.repeats with
      | true =>
        rw [hrepeats] at hleft
        refine ⟨some executor.tickTime, .waits hleft hnow, fun later => ?_, List.Sublist.refl _⟩
        simp only [ReadRequest.firings, firingTimes, if_pos hdue, hrepeats]
        rfl
      | false =>
        rw [hrepeats] at hleft
        refine ⟨none, .isOver hleft, fun later => ?_, List.Sublist.refl _⟩
        simp only [ReadRequest.firings, firingTimes, if_pos hdue, hrepeats]
        rfl
    · simp only [hdue, if_false, decide_false, cond_false] at hleft ⊢
      refine ⟨some since, .waits hleft (by omega), fun later => ?_, List.nil_sublist _⟩
      simp only [ReadRequest.firings, firingTimes, if_neg hdue]
      rfl

lemma Stands.pass {request : ReadRequest α} {executor after : Executor α} {standing : Option Nat}
    (h : Stands request executor standing)
    (hentries : entriesUnder request.handle after.scheduler.entries =
      entriesUnder request.handle executor.scheduler.entries)
    (hnow : executor.now ≤ after.now) : Stands request after standing := by
  cases h with
  | waits alone credited => exact .waits (hentries.trans alone) (Nat.le_trans credited hnow)
  | isOver gone => exact .isOver (hentries.trans gone)

lemma IsServed.leave {request : ReadRequest α} {executor after : Executor α}
    {ticks : List (HandledTick α)} (h : IsServed request executor ticks)
    (hhandle : executor.scheduler.nextHandle ≤ after.scheduler.nextHandle)
    (hcommands : ∀ other ∈ after.scheduler.commands, other.handle ≠ request.handle)
    (hentries : entriesUnder request.handle after.scheduler.entries =
      entriesUnder request.handle executor.scheduler.entries)
    (hnow : executor.now ≤ after.now) : IsServed request after ticks := by
  obtain ⟨standing, hstands, hlater⟩ := h.onTime
  exact ⟨Nat.lt_of_lt_of_le h.handle hhandle, hcommands, ⟨standing, hstands.pass hentries hnow, hlater⟩,
    h.atMostOnce⟩

def commandsUnder (handle : ScheduleHandle) (scheduler : Scheduler α) : List (ScheduleRequest α) :=
  scheduler.commands.filter fun request => request.handle = handle

lemma entriesUnder_readCommands (handle : ScheduleHandle) (scheduler : Scheduler α) (now : Nat) :
    entriesUnder handle (scheduler.readCommands now).entries =
      entriesUnder handle scheduler.entries ++
        (commandsUnder handle scheduler).map fun request => request.enter now := by
  unfold entriesUnder commandsUnder Scheduler.readCommands
  rw [List.filter_append, List.filter_map]
  rfl

variable [DecidableEq α]

omit [DecidableEq α] in
lemma IsServed.fires {request : ReadRequest α} {executor : Executor α}
    {ticks : List (HandledTick α)} (h : IsServed request executor ticks) :
    firingsOf request.handle ticks =
        firingTimes request.delay request.repeats request.readAt (ticks.map HandledTick.time) ∧
      ∀ tick ∈ ticks,
        ((entriesUnder request.handle tick.fired).map fun entry => entry.job).Sublist
          [request.job] := by
  obtain ⟨standing, -, honTime⟩ := h.onTime
  have hover : request.firings standing [] = [] := by cases standing <;> rfl
  have hnow := honTime []
  rw [hover, List.append_nil, List.append_nil] at hnow
  exact ⟨hnow.symm, h.atMostOnce⟩

lemma isServed_keptByTime (request : ReadRequest α) : KeptByTime (IsServed request) := by
  refine ⟨fun {executor after ticks} h _ _ hticks => ?_, fun h hpasses => ?_,
    fun {executor after _} h hreads => ?_⟩
  · obtain ⟨standing, hstands, hlater⟩ := h.onTime
    obtain ⟨next, hnext, hfirings, honce⟩ := hstands.tick hticks
    refine ⟨by rw [hticks.nextHandle]; exact h.handle, by rw [hticks.commands]; exact h.read,
      ⟨next, hnext, fun later => ?_⟩, ?_⟩
    · have hall : firingsOf request.handle (ticks ++ [nextHandled executor]) =
          firingsOf request.handle ticks ++ firingsOf request.handle [nextHandled executor] :=
        List.flatMap_append
      rw [List.map_append, List.append_assoc, hlater, hall, List.append_assoc]
      exact congrArg (firingsOf request.handle ticks ++ ·) (hfirings later)
    · intro tick hmem
      rcases List.mem_append.1 hmem with hold | hnew
      · exact h.atMostOnce tick hold
      · rw [List.mem_singleton.1 hnew]
        exact honce
  · have hsame := hpasses.scheduler
    exact h.leave (Nat.le_of_eq (by rw [hsame])) (by rw [hsame]; exact h.read) (by rw [hsame])
      hpasses.now
  · have hread := hreads.scheduler
    refine h.leave (Nat.le_of_eq (by rw [hread]; rfl)) ?_ ?_ (Nat.le_of_eq hreads.now.symm)
    · rw [hread]
      exact fun _ hmem => absurd hmem List.not_mem_nil
    · rw [hread, entriesUnder_readCommands, commandsUnder,
        List.filter_eq_nil_iff.2 fun other hmem => by simpa using h.read other hmem]
      exact List.append_nil _

def SchedulerCall.isShutdown : SchedulerCall α → Bool
  | .shutDownScheduler | .shutDownPool => true
  | .schedule .. | .cancel _ | .sleep _ | .stall _ => false

omit [DecidableEq α] in
lemma entriesUnder_cancel {handle other : ScheduleHandle} (h : handle ≠ other)
    (scheduler : Scheduler α) :
    entriesUnder handle (scheduler.cancel other).1.entries =
      entriesUnder handle scheduler.entries := by
  unfold Scheduler.cancel entriesUnder
  dsimp only
  rw [List.filter_filter]
  refine List.filter_congr fun entry _ => ?_
  by_cases hown : entry.handle = handle
  · simp [hown, h]
  · simp [hown]

omit [DecidableEq α] in
lemma IsServed.move {request : ReadRequest α} {executor after : Executor α}
    {ticks : List (HandledTick α)} {call : SchedulerCall α} (h : IsServed request executor ticks)
    (hcall : call.isShutdown = false ∧ call ≠ .cancel request.handle)
    (hmove : InstantMove executor after call) : IsServed request after ticks := by
  cases hmove with
  | drew now drawn scheduler =>
    refine h.leave ?_ (by rw [scheduler]; exact h.read) (by rw [scheduler]) (Nat.le_of_eq now.symm)
    rw [scheduler]
    dsimp only
    omega
  | @sent job delay repeats now _ scheduler =>
    refine h.leave ?_ ?_ (by rw [scheduler]; rfl) (Nat.le_of_eq now.symm)
    · rw [scheduler]
      exact Nat.le_succ _
    · rw [scheduler]
      intro other hmem
      rcases List.mem_append.1 hmem with hold | hnew
      · exact h.read other hold
      · rw [List.mem_singleton.1 hnew]
        exact fun hsame => Nat.ne_of_lt h.handle (congrArg ScheduleHandle.number hsame.symm)
  | @cancelled other now scheduler =>
    refine h.leave ?_ (by rw [scheduler]; exact h.read) ?_ (Nat.le_of_eq now.symm)
    · rw [scheduler]
      exact Nat.le_refl _
    · rw [scheduler]
      exact entriesUnder_cancel (fun hsame => hcall.2 (congrArg _ hsame.symm)) executor.scheduler
  | shutDown => cases hcall.1

/-- Two executors that tick at the same times. -/
structure SameClock (executor other : Executor α) : Prop where
  now : executor.now = other.now
  nextTick : executor.scheduler.nextTick = other.scheduler.nextTick
  period : executor.scheduler.period = other.scheduler.period
  isOpen : executor.scheduler.isOpen = other.scheduler.isOpen
  pool : HasPool executor
  otherPool : HasPool other

section SameClock

variable {executor other : Executor α}

omit [DecidableEq α] in
lemma SameClock.tickTime (h : SameClock executor other) : executor.tickTime = other.tickTime := by
  unfold Executor.tickTime
  rw [h.now, h.nextTick]

lemma SameClock.tick (h : SameClock executor other) : SameClock executor.tick other.tick := by
  have hticks := ticks_tick h.pool
  have hothers := ticks_tick h.otherPool
  refine ⟨?_, ?_, ?_, ?_, hticks.pool, hothers.pool⟩
  · rw [hticks.now, hothers.now, h.tickTime]
  · rw [hticks.nextTick, hothers.nextTick, h.tickTime, h.period, h.nextTick]
  · rw [hticks.period, hothers.period, h.period]
  · rw [hticks.isOpen, hothers.isOpen, h.isOpen]

lemma SameClock.runTicks (h : SameClock executor other) (limit : Nat) :
    SameClock (executor.runTicks limit) (other.runTicks limit) ∧
      (ticksBy executor limit).map HandledTick.time =
        (ticksBy other limit).map HandledTick.time := by
  -- on the ticks of the first; the second goes the same way, as the condition reads the clock only
  fun_induction Executor.runTicks executor limit generalizing other with
  | case1 executor hgo ih =>
    have hgoes := hgo
    rw [h.isOpen, h.period, h.nextTick] at hgoes
    obtain ⟨hsame, htimes⟩ := ih h.tick
    rw [Executor.runTicks.eq_def other limit, if_pos hgoes, ticksBy.eq_def executor limit,
      if_pos hgo, ticksBy.eq_def other limit, if_pos hgoes]
    exact ⟨hsame, congrArg₂ List.cons h.tickTime htimes⟩
  | case2 executor hstop =>
    have hstops := hstop
    rw [h.isOpen, h.period, h.nextTick] at hstops
    rw [Executor.runTicks.eq_def other limit, if_neg hstops, ticksBy.eq_def executor limit,
      if_neg hstop, ticksBy.eq_def other limit, if_neg hstops]
    exact ⟨h, rfl⟩

omit [DecidableEq α] in
lemma SameClock.pass (h : SameClock executor other) {time : Nat} (hnow : executor.now ≤ time)
    (isReady : RunningJob α → Bool) :
    SameClock (executor.advance time isReady) (other.advance time isReady) := by
  have hpass := passes_advance executor hnow isReady
  have hothers := passes_advance other (h.now ▸ hnow) isReady
  exact ⟨rfl, h.nextTick, h.period, h.isOpen, hpass.pool h.pool, hothers.pool h.otherPool⟩

omit [DecidableEq α] in
lemma SameClock.rest (h : SameClock executor other) : SameClock executor.rest other.rest :=
  ⟨h.now, h.nextTick, h.period, h.isOpen, (reads_rest executor).pool h.pool,
    (reads_rest other).pool h.otherPool⟩

lemma SameClock.sleepUntil (h : SameClock executor other) (time : Nat) :
    SameClock (executor.sleepUntil time) (other.sleepUntil time) ∧
      (ticksAsleep executor time).map HandledTick.time =
        (ticksAsleep other time).map HandledTick.time := by
  obtain ⟨hticked, htimes⟩ := h.rest.runTicks time
  let wake := max (executor.rest.runTicks time).now time
  have hwake : max (other.rest.runTicks time).now time = wake := by rw [← hticked.now]
  have hrested : SameClock ((executor.rest.runTicks time).advanceTo wake)
      ((other.rest.runTicks time).advanceTo wake) := hticked.pass (Nat.le_max_left _ _) _
  obtain ⟨hafter, hmore⟩ := hrested.runTicks wake
  have hsleeps : other.sleepUntil time =
      ((other.rest.runTicks time).advanceTo wake).runTicks wake := by
    rw [← hwake]
    rfl
  have hasleep : ticksAsleep other time =
      ticksBy other.rest time ++ ticksBy ((other.rest.runTicks time).advanceTo wake) wake := by
    rw [← hwake]
    rfl
  rw [hsleeps, hasleep, List.map_append, ← htimes, ← hmore, ← List.map_append]
  exact ⟨hafter, rfl⟩

lemma SameClock.call (h : SameClock executor other) {call : SchedulerCall α}
    (hcall : call.isShutdown = false) (htakes : call.takesTime = true) :
    SameClock (makeCall executor call).1 (makeCall other call).1 ∧
      (ticksDuring executor call).map HandledTick.time =
        (ticksDuring other call).map HandledTick.time := by
  cases call with
  | shutDownPool => cases hcall
  | schedule | cancel | shutDownScheduler => cases htakes
  | sleep duration =>
    have hslept := h.sleepUntil (executor.now + duration)
    simp only [makeCall, ticksDuring, ← h.now]
    exact hslept
  | stall duration =>
    have hleapt : SameClock { executor with now := executor.now + duration }
        { other with now := executor.now + duration } :=
      ⟨rfl, h.nextTick, h.period, h.isOpen, h.pool, h.otherPool⟩
    simp only [makeCall, ticksDuring, Executor.stall, ← h.now]
    exact hleapt.sleepUntil _

omit [DecidableEq α] in
lemma InstantMove.clock {after : Executor α} {call : SchedulerCall α}
    (h : InstantMove executor after call) (hcall : call.isShutdown = false) :
    after.now = executor.now ∧ after.scheduler.nextTick = executor.scheduler.nextTick ∧
      after.scheduler.period = executor.scheduler.period ∧
        after.scheduler.isOpen = executor.scheduler.isOpen := by
  cases h with
  | drew now _ scheduler | sent now _ scheduler | cancelled now scheduler =>
    rw [scheduler]
    exact ⟨now, rfl, rfl, rfl⟩
  | shutDown => cases hcall

lemma SameClock.instantCall (h : SameClock executor other) {call : SchedulerCall α}
    (hcall : call.isShutdown = false) (hinstant : call.takesTime = false) :
    SameClock (makeCall executor call).1 other := by
  obtain ⟨hnow, hnext, hperiod, hopen⟩ := (instant_move h.pool hinstant).clock hcall
  have hwoken : (woken executor call).now = executor.now ∧
      (woken executor call).scheduler.nextTick = executor.scheduler.nextTick ∧
      (woken executor call).scheduler.period = executor.scheduler.period ∧
      (woken executor call).scheduler.isOpen = executor.scheduler.isOpen := by
    cases call with
    | sleep | stall | shutDownPool => cases hinstant
    | schedule | cancel | shutDownScheduler => exact ⟨rfl, rfl, rfl, rfl⟩
  obtain ⟨hwokenNow, hwokenNext, hwokenPeriod, hwokenOpen⟩ := hwoken
  exact ⟨(hnow.trans hwokenNow).trans h.now, (hnext.trans hwokenNext).trans h.nextTick,
    (hperiod.trans hwokenPeriod).trans h.period, (hopen.trans hwokenOpen).trans h.isOpen,
    hasPool_makeCall h.pool call, h.otherPool⟩

lemma SameClock.run (h : SameClock executor other) {calls : List (SchedulerCall α)}
    (hcalls : ∀ call ∈ calls, call.isShutdown = false) :
    SameClock (executorAfter executor calls)
        (executorAfter other (calls.filter SchedulerCall.takesTime)) ∧
      (ticksAfter executor calls).map HandledTick.time =
        (ticksAfter other (calls.filter SchedulerCall.takesTime)).map HandledTick.time := by
  induction calls generalizing executor other with
  | nil => exact ⟨h, rfl⟩
  | cons call rest ih =>
    have hcall := hcalls call List.mem_cons_self
    have hrest := fun other hmem => hcalls other (List.mem_cons_of_mem call hmem)
    cases htakes : call.takesTime with
    | true =>
      obtain ⟨hsame, htimes⟩ := h.call hcall htakes
      obtain ⟨hafter, hmore⟩ := ih hsame hrest
      rw [List.filter_cons_of_pos htakes]
      refine ⟨hafter, ?_⟩
      simp only [ticksAfter, turnsOf, List.flatMap_cons, List.map_append] at hmore ⊢
      rw [htimes, hmore]
    | false =>
      obtain ⟨hafter, hmore⟩ := ih (h.instantCall hcall htakes) hrest
      rw [List.filter_cons_of_neg (by rw [htakes]; exact Bool.false_ne_true)]
      refine ⟨hafter, ?_⟩
      simp only [ticksAfter, turnsOf, List.flatMap_cons, List.map_append,
        ticksDuring_eq_nil executor htakes] at hmore ⊢
      exact hmore

end SameClock

/-- Nobody has waited since the request was made. -/
structure IsUnread (request : ScheduleRequest α) (executor : Executor α) : Prop where
  handle : request.handle.number < executor.scheduler.nextHandle
  fresh : entriesUnder request.handle executor.scheduler.entries = []
  alone : commandsUnder request.handle executor.scheduler = [request]

omit [DecidableEq α] in
lemma IsUnread.read {request : ScheduleRequest α} {executor after : Executor α}
    (h : IsUnread request executor) (hreads : ReadsRequests executor after) :
    IsServed ⟨request, executor.now⟩ after [] := by
  have hread := hreads.scheduler
  refine ⟨by rw [hread]; exact h.handle, ?_, ⟨some executor.now, ?_, fun _ => rfl⟩,
    fun _ hmem => absurd hmem List.not_mem_nil⟩
  · rw [hread]
    exact fun _ hmem => absurd hmem List.not_mem_nil
  · refine @Stands.waits _ _ _ executor.now 0 ?_ (Nat.le_of_eq hreads.now.symm)
    rw [hread, entriesUnder_readCommands, h.fresh, h.alone]
    rfl

lemma IsUnread.schedule {request : ScheduleRequest α} {executor : Executor α}
    (h : IsUnread request executor) (hpool : HasPool executor) (job : Job α) (delay : Nat)
    (repeats : Bool) :
    IsUnread request (executor.schedule job delay repeats).1 ∧
      (executor.schedule job delay repeats).1.now = executor.now := by
  have hmove := @instant_move α _ executor hpool (.schedule job delay repeats) rfl
  change InstantMove executor (executor.schedule job delay repeats).1 _ at hmove
  generalize (executor.schedule job delay repeats).1 = after at hmove
  have hhandle := h.handle
  cases hmove with
  | drew now drawn scheduler =>
    refine ⟨⟨?_, by rw [scheduler]; exact h.fresh, by rw [scheduler]; exact h.alone⟩, now⟩
    rw [scheduler]
    dsimp only
    omega
  | sent now _ scheduler =>
    have hother : executor.scheduler.drawHandle.2 ≠ request.handle := fun hsame =>
      Nat.ne_of_lt hhandle (congrArg ScheduleHandle.number hsame.symm)
    refine ⟨⟨?_, by rw [scheduler]; exact h.fresh, ?_⟩, now⟩
    · rw [scheduler]
      exact Nat.lt_succ_of_lt hhandle
    · rw [scheduler]
      refine (List.filter_append _ _).trans ?_
      rw [List.filter_cons_of_neg (by simpa using hother)]
      exact (List.append_nil _).trans h.alone

/-- How far the clock leaps before a request is read: not at all, unless a stall comes before anyone
waits. -/
def leapBefore : List (SchedulerCall α) → Nat
  | .schedule .. :: rest => leapBefore rest
  | .stall duration :: _ => duration
  | _ => 0

/-- Whatever is called after a request, its job is fired as its delay says from the time at which the
request is read. -/
lemma IsUnread.run {request : ScheduleRequest α} {executor : Executor α}
    (h : IsUnread request executor) (hpool : HasPool executor) {calls : List (SchedulerCall α)}
    (hcalls : ∀ call ∈ calls, call.isShutdown = false ∧ call ≠ .cancel request.handle) :
    (firingsOf request.handle (ticksAfter executor calls) =
      firingTimes request.delay request.repeats (executor.now + leapBefore calls)
        ((ticksAfter executor calls).map HandledTick.time)) ∧
    ∀ tick ∈ ticksAfter executor calls,
      ((entriesUnder request.handle tick.fired).map fun entry => entry.job).Sublist
        [request.job] := by
  induction calls generalizing executor with
  | nil => exact ⟨rfl, fun _ hmem => absurd hmem List.not_mem_nil⟩
  | cons call rest ih =>
    obtain ⟨hcall, hrest⟩ := List.forall_mem_cons.1 hcalls
    have hserved : IsServed ⟨request, executor.now + leapBefore (call :: rest)⟩
        (woken executor call) [] → _ := fun hwoken =>
      IsServed.fires ((isServed_keptByTime _).run_from _ (fun h hcall hmove => h.move hcall hmove)
        (hasPool_makeCall hpool call)
        ((isServed_keptByTime _).step (fun h hcall hmove => h.move hcall hmove) hpool hcall hwoken)
        hrest)
    cases call with
    | schedule job delay repeats =>
      obtain ⟨hunread, hnow⟩ := h.schedule hpool job delay repeats
      have hlater := ih hunread (hasPool_schedule hpool job delay repeats) hrest
      rw [hnow] at hlater
      exact hlater
    | cancel | sleep => exact hserved (h.read (reads_rest executor))
    | stall duration =>
      have hleapt : IsUnread request { executor with now := executor.now + duration } :=
        ⟨h.handle, h.fresh, h.alone⟩
      exact hserved (hleapt.read (reads_rest _))
    | shutDownScheduler | shutDownPool => cases hcall.1

/-- The clock leaps right after the call: the request is read at 100. -/
example : firingsOf ⟨1⟩ (ticksAfter ((Executor.withPool 50 2).schedule ({ label := "own" } : Job String)
    50 false).1 [.stall 100, .sleep 70]) = [150] := by decide +kernel

end ReliableDatagrams.Proofs
