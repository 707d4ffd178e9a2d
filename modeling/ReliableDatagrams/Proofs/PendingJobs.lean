import Mathlib.Data.List.Nodup
import Mathlib.Data.Set.Card
import ReliableDatagrams.Proofs.SchedulerShutDown

/-!
# The entries of a scheduler

What a scheduler has to do can be told from its run: the jobs that it was given with a delay and that
were not cancelled since, nor fired if a single time is all (`Awaits`). The scheduler's entries and the
requests that it has not read are these at any time, one for each, under handles that are never given
twice. From there come what it counts and what it answers (`KeepsBooks`).
-/

namespace ReliableDatagrams.Proofs

variable {α : Type}

/-- The turn has given the scheduler a job that waits. -/
def Turn.Enters (turn : Turn α) (handle : ScheduleHandle) (repeats : Bool) : Prop :=
  ∃ job delay, turn.call = .schedule job delay repeats ∧ delay ≠ 0 ∧
    turn.answer = .scheduled (.ok handle)

/-- The turn has neither cancelled a job nor fired it for the only time, and the scheduler has not
been shut down. -/
structure Turn.Spares (turn : Turn α) (handle : ScheduleHandle) (repeats : Bool) : Prop where
  cancel : turn.call ≠ .cancel handle
  shutDown : turn.call ≠ .shutDownScheduler
  fired : repeats = false → ∀ tick ∈ turn.ticks, ∀ entry ∈ tick.fired, entry.handle ≠ handle

def Awaits (turns : List (Turn α)) (handle : ScheduleHandle) (repeats : Bool) : Prop :=
  ∃ earlier turn later, turns = earlier ++ turn :: later ∧ turn.Enters handle repeats ∧
    ∀ next ∈ later, next.Spares handle repeats

/-- The jobs that were given with a delay, less those that were cancelled, those that were fired and
do not repeat, and those that were there at a shutdown of the scheduler. -/
def awaited (turns : List (Turn α)) : Set ScheduleHandle :=
  fun handle => ∃ repeats, Awaits turns handle repeats

lemma awaits_concat (turns : List (Turn α)) (last : Turn α) (handle : ScheduleHandle)
    (repeats : Bool) :
    Awaits (turns ++ [last]) handle repeats ↔
      last.Enters handle repeats ∨ (Awaits turns handle repeats ∧ last.Spares handle repeats) := by
  constructor
  · rintro ⟨earlier, turn, later, hsplit, henters, hspares⟩
    rcases List.eq_nil_or_concat later with rfl | ⟨front, next, rfl⟩
    · obtain ⟨-, hlast⟩ := List.append_inj' hsplit rfl
      exact .inl (List.singleton_inj.1 hlast ▸ henters)
    · rw [List.concat_eq_append] at hsplit hspares
      rw [← List.cons_append, ← List.append_assoc] at hsplit
      obtain ⟨hturns, hlast⟩ := List.append_inj' hsplit rfl
      rw [List.singleton_inj.1 hlast]
      exact .inr ⟨⟨earlier, turn, front, hturns, henters, fun other hmem =>
        hspares other (List.mem_append_left _ hmem)⟩,
        hspares next (List.mem_append_right _ List.mem_cons_self)⟩
  · rintro (henters | ⟨⟨earlier, turn, later, rfl, henters, hspares⟩, hlast⟩)
    · exact ⟨turns, last, [], rfl, henters, fun _ hmem => absurd hmem List.not_mem_nil⟩
    · refine ⟨earlier, turn, later ++ [last], by simp, henters, fun next hmem => ?_⟩
      rcases List.mem_append.1 hmem with hold | hnew
      · exact hspares next hold
      · exact List.mem_singleton.1 hnew ▸ hlast

/-- Something waits at the scheduler under the handle. -/
def IsListed (executor : Executor α) (handle : ScheduleHandle) (repeats : Bool) : Prop :=
  ∃ request ∈ pendingRequests executor.scheduler,
    request.handle = handle ∧ request.repeats = repeats

def HasDistinctHandles (executor : Executor α) : Prop :=
  ((pendingRequests executor.scheduler).map fun request => request.handle).Nodup

section Ticks

variable [DecidableEq α] {executor after : Executor α}

lemma distinctHandles_tick (h : HasDistinctHandles executor) (hticks : Ticks executor after) :
    HasDistinctHandles after :=
  h.sublist ((pendingRequests_tick hticks).map _)

omit [DecidableEq α] in
lemma HasDistinctHandles.split (h : HasDistinctHandles executor) :
    (executor.scheduler.entries.map fun entry => entry.handle).Nodup ∧
      ∀ entry ∈ executor.scheduler.entries, ∀ request ∈ executor.scheduler.commands,
        entry.handle ≠ request.handle := by
  unfold HasDistinctHandles pendingRequests at h
  rw [List.map_append, List.map_map, List.nodup_append] at h
  exact ⟨h.1, fun entry hentry request hrequest =>
    h.2.2 _ (List.mem_map_of_mem hentry) _ (List.mem_map_of_mem hrequest)⟩

/-- Handles are distinct, so what was fired under the handle of an entry that is left is that entry,
and it repeats. -/
lemma not_fired_of_isListed (h : HasDistinctHandles executor) (hticks : Ticks executor after)
    {handle : ScheduleHandle} (hlisted : IsListed after handle false) :
    ∀ entry ∈ (nextHandled executor).fired, entry.handle ≠ handle := by
  obtain ⟨hnodup, hapart⟩ := h.split
  obtain ⟨request, hmem, hhandle, honce⟩ := hlisted
  intro fired hfired hsame
  obtain ⟨hcharged, hdue⟩ := List.mem_filter.1 hfired
  obtain ⟨entry, hentry, rfl⟩ := List.mem_map.1 hcharged
  rcases List.mem_append.1 hmem with hleft | hcommand
  · obtain ⟨left, hstayed, rfl⟩ := List.mem_map.1 hleft
    rw [hticks.entries] at hstayed
    obtain ⟨credited, hcredited, hafter⟩ := List.mem_filterMap.1 hstayed
    obtain ⟨other, hother, rfl⟩ := List.mem_map.1 hcredited
    rw [eq_of_afterTick hafter] at hhandle honce
    have hone : entry = other :=
      List.inj_on_of_nodup_map hnodup hentry hother (hsame.trans hhandle.symm)
    have hnever : other.repeats = false := honce
    rw [hone] at hdue
    rw [ScheduleEntry.afterTick, if_pos hdue,
      if_neg (by simp [ScheduleEntry.creditUntil, hnever])] at hafter
    cases hafter
  · rw [hticks.commands] at hcommand
    exact hapart entry hentry request hcommand (hsame.trans hhandle.symm)

omit [DecidableEq α] in
lemma exists_afterTick {entry : ScheduleEntry α} (h : entry.isDue = true → entry.repeats = true) :
    ∃ left, entry.afterTick = some left ∧ left.toScheduleRequest = entry.toScheduleRequest := by
  unfold ScheduleEntry.afterTick
  split
  · rename_i hdue
    exact ⟨{ entry with credit := 0 }, if_pos (h hdue), rfl⟩
  · exact ⟨entry, rfl, rfl⟩

lemma isListed_of_not_fired (hticks : Ticks executor after) {handle : ScheduleHandle}
    {repeats : Bool} (hlisted : IsListed executor handle repeats)
    (hfired : repeats = false → ∀ entry ∈ (nextHandled executor).fired, entry.handle ≠ handle) :
    IsListed after handle repeats := by
  obtain ⟨request, hmem, hhandle, hrepeats⟩ := hlisted
  rcases List.mem_append.1 hmem with hread | hcommand
  · obtain ⟨entry, hentry, rfl⟩ := List.mem_map.1 hread
    have hcredited : entry.creditUntil executor.tickTime ∈
        executor.scheduler.entries.map fun entry => entry.creditUntil executor.tickTime :=
      List.mem_map_of_mem hentry
    have hstays : (entry.creditUntil executor.tickTime).isDue = true → entry.repeats = true := by
      intro hdue
      by_contra hnever
      exact hfired (hrepeats.symm.trans (eq_false_of_ne_true hnever)) _
        (List.mem_filter.2 ⟨hcredited, hdue⟩) hhandle
    obtain ⟨left, hafter, hsame⟩ := exists_afterTick hstays
    refine ⟨left.toScheduleRequest, List.mem_append_left _ (List.mem_map_of_mem ?_), ?_, ?_⟩
    · rw [hticks.entries]
      exact List.mem_filterMap.2 ⟨_, hcredited, hafter⟩
    · rw [hsame]
      exact hhandle
    · rw [hsame]
      exact hrepeats
  · rw [← hticks.commands] at hcommand
    exact ⟨request, List.mem_append_right _ hcommand, hhandle, hrepeats⟩

/-- A tick removes what it fires for the only time, and nothing else. -/
lemma isListed_tick (h : HasDistinctHandles executor) (hticks : Ticks executor after)
    (handle : ScheduleHandle) (repeats : Bool) :
    IsListed after handle repeats ↔ IsListed executor handle repeats ∧
      (repeats = false → ∀ entry ∈ (nextHandled executor).fired, entry.handle ≠ handle) := by
  constructor
  · intro hlisted
    refine ⟨?_, fun honce => not_fired_of_isListed h hticks (honce ▸ hlisted)⟩
    obtain ⟨request, hmem, hrest⟩ := hlisted
    exact ⟨request, (pendingRequests_tick hticks).subset hmem, hrest⟩
  · rintro ⟨hlisted, hfired⟩
    exact isListed_of_not_fired hticks hlisted hfired

end Ticks

variable [DecidableEq α]

/-- The entries of a scheduler are what its run has left to do. -/
structure Books (executor : Executor α) (turns : List (Turn α)) : Prop where
  distinct : HasDistinctHandles executor
  drawn : HandlesDrawn executor
  listed : ∀ handle repeats, IsListed executor handle repeats ↔ Awaits turns handle repeats

lemma listed_keptByTime (turns : List (Turn α)) :
    KeptByTime fun (executor : Executor α) ticks => HasDistinctHandles executor ∧
      ∀ handle repeats, IsListed executor handle repeats ↔ Awaits turns handle repeats ∧
        (repeats = false → ∀ tick ∈ ticks, ∀ entry ∈ tick.fired, entry.handle ≠ handle) := by
  refine ⟨fun {executor after ticks} h _ _ hticks => ?_, fun {executor after ticks} h hpasses => ?_,
    fun {executor after ticks} h hreads => ?_⟩
  · refine ⟨distinctHandles_tick h.1 hticks, fun handle repeats => ?_⟩
    rw [isListed_tick h.1 hticks, h.2, and_assoc, ← imp_and]
    refine and_congr_right fun _ => imp_congr_right fun _ => ?_
    simp only [List.forall_mem_append, List.forall_mem_singleton]
  · unfold HasDistinctHandles IsListed
    rw [hpasses.scheduler]
    exact h
  · unfold HasDistinctHandles IsListed
    rw [hreads.scheduler, pendingRequests_readCommands]
    exact h

section Calls

variable {executor : Executor α} {turns : List (Turn α)}

def turnOf (executor : Executor α) (call : SchedulerCall α) : Turn α :=
  ⟨call, (makeCall executor call).2, ticksDuring executor call⟩

lemma Books.timePasses (h : Books executor turns) (hpool : HasPool executor)
    {call : SchedulerCall α} (htakes : call.takesTime = true) :
    Books (makeCall executor call).1 (turns ++ [turnOf executor call]) := by
  have hstart : HasDistinctHandles executor ∧ ∀ handle repeats,
      IsListed executor handle repeats ↔ Awaits turns handle repeats ∧ (repeats = false →
        ∀ tick ∈ ([] : List (HandledTick α)), ∀ entry ∈ tick.fired, entry.handle ≠ handle) :=
    ⟨h.distinct, fun handle repeats => by simpa using h.listed handle repeats⟩
  have hkept := listed_keptByTime turns
  obtain ⟨hdistinct, hlisted⟩ := (hkept.call hpool (hkept.wake hstart call) htakes).2
  refine ⟨hdistinct, handlesDrawn_run hpool h.drawn [call], fun handle repeats => ?_⟩
  have hnot : ¬(turnOf executor call).Enters handle repeats := by
    rintro ⟨job, delay, hcall, -⟩
    obtain rfl : call = .schedule job delay repeats := hcall
    cases htakes
  rw [hlisted, awaits_concat, or_iff_right hnot]
  refine and_congr_right fun _ => ⟨fun hfired => ⟨?_, ?_, hfired⟩, Turn.Spares.fired⟩
  · intro hcall
    obtain rfl : call = .cancel handle := hcall
    cases htakes
  · intro hcall
    obtain rfl : call = .shutDownScheduler := hcall
    cases htakes

omit [DecidableEq α] in
lemma pendingRequests_cancelled (executor : Executor α) (handle : ScheduleHandle) :
    pendingRequests (executor.cancel handle).1.scheduler =
      (pendingRequests executor.scheduler).filter fun request => request.handle ≠ handle := by
  have hafter : (executor.cancel handle).1.scheduler =
      ((executor.scheduler.readCommands executor.now).cancel handle).1 := rfl
  have hread := pendingRequests_readCommands executor.scheduler executor.now
  rw [hafter, ← hread, pendingRequests, pendingRequests, List.filter_append, List.filter_map]
  rfl

lemma Books.cancel (h : Books executor turns) (hpool : HasPool executor) (handle : ScheduleHandle) :
    Books (makeCall executor (.cancel handle)).1 (turns ++ [turnOf executor (.cancel handle)]) := by
  have hpending : pendingRequests (makeCall executor (.cancel handle)).1.scheduler =
      (pendingRequests executor.scheduler).filter fun request => request.handle ≠ handle :=
    pendingRequests_cancelled executor handle
  refine ⟨?_, handlesDrawn_run hpool h.drawn [.cancel handle], fun other repeats => ?_⟩
  · unfold HasDistinctHandles
    rw [hpending]
    exact h.distinct.sublist (List.filter_sublist.map _)
  have hnot : ¬(turnOf executor (.cancel handle)).Enters other repeats := by
    rintro ⟨_, _, hcall, -⟩
    cases hcall
  have hleft : IsListed (makeCall executor (.cancel handle)).1 other repeats ↔
      IsListed executor other repeats ∧ handle ≠ other := by
    unfold IsListed
    rw [hpending]
    constructor
    · rintro ⟨request, hmem, rfl, hrepeats⟩
      obtain ⟨hrequest, hkept⟩ := List.mem_filter.1 hmem
      exact ⟨⟨request, hrequest, rfl, hrepeats⟩, (of_decide_eq_true hkept).symm⟩
    · rintro ⟨⟨request, hrequest, rfl, hrepeats⟩, hne⟩
      exact ⟨request, List.mem_filter.2 ⟨hrequest, decide_eq_true hne.symm⟩, rfl, hrepeats⟩
  have hspares : (turnOf executor (.cancel handle)).Spares other repeats ↔ handle ≠ other := by
    constructor
    · rintro hspares rfl
      exact hspares.cancel rfl
    · intro hne
      refine ⟨fun hcall => ?_, fun hcall => ?_, fun _ _ hmem => absurd hmem List.not_mem_nil⟩
      · cases hcall
        exact hne rfl
      · cases hcall
  rw [awaits_concat, or_iff_right hnot, hleft, hspares, h.listed]

lemma Books.shutDown (h : Books executor turns) (hpool : HasPool executor) :
    Books (makeCall executor .shutDownScheduler).1
      (turns ++ [turnOf executor .shutDownScheduler]) := by
  refine ⟨List.nodup_nil, handlesDrawn_run hpool h.drawn [.shutDownScheduler],
    fun handle repeats => ?_⟩
  have hnot : ¬(turnOf executor .shutDownScheduler).Enters handle repeats := by
    rintro ⟨_, _, hcall, -⟩
    cases hcall
  rw [awaits_concat, or_iff_right hnot]
  exact ⟨fun ⟨_, hmem, _⟩ => absurd hmem List.not_mem_nil, fun ⟨_, hspares⟩ =>
    absurd rfl hspares.shutDown⟩

lemma Books.awaits_schedule (h : Books executor turns) (job : Job α) (delay : Nat) (repeats : Bool)
    (handle : ScheduleHandle) (often : Bool) :
    Awaits (turns ++ [turnOf executor (.schedule job delay repeats)]) handle often ↔
      (often = repeats ∧ delay ≠ 0 ∧ (executor.schedule job delay repeats).2 = .ok handle) ∨
        IsListed executor handle often := by
  have hspares : (turnOf executor (.schedule job delay repeats)).Spares handle often := by
    refine ⟨fun hcall => ?_, fun hcall => ?_, fun _ _ hmem => absurd hmem List.not_mem_nil⟩
    · cases hcall
    · cases hcall
  rw [awaits_concat, and_iff_left hspares, h.listed]
  refine or_congr_left ⟨?_, ?_⟩
  · rintro ⟨_, _, hcall, hdelay, hanswer⟩
    cases hcall
    exact ⟨rfl, hdelay, SchedulerAnswer.scheduled.inj hanswer⟩
  · rintro ⟨rfl, hdelay, hresult⟩
    exact ⟨job, delay, rfl, hdelay, congrArg SchedulerAnswer.scheduled hresult⟩

omit [DecidableEq α] in
lemma HasDistinctHandles.send (h : HasDistinctHandles executor) (hdrawn : HandlesDrawn executor)
    {after : Executor α} {request : ScheduleRequest α}
    (hnew : request.handle = executor.scheduler.drawHandle.2)
    (hafter : pendingRequests after.scheduler = pendingRequests executor.scheduler ++ [request]) :
    HasDistinctHandles after := by
  unfold HasDistinctHandles
  rw [hafter, List.map_append, List.nodup_append]
  refine ⟨h, List.nodup_singleton _, fun old hold new hlast hsame => ?_⟩
  obtain ⟨earlier, hearlier, rfl⟩ := List.mem_map.1 hold
  have hdraws : earlier.handle = executor.scheduler.drawHandle.2 :=
    hsame.trans ((List.mem_singleton.1 hlast).trans hnew)
  exact Nat.ne_of_lt (hdrawn earlier hearlier) (congrArg ScheduleHandle.number hdraws)

omit [DecidableEq α] in
lemma isListed_send {after : Executor α} {request : ScheduleRequest α}
    (hafter : pendingRequests after.scheduler = pendingRequests executor.scheduler ++ [request])
    (handle : ScheduleHandle) (repeats : Bool) :
    IsListed after handle repeats ↔
      (request.handle = handle ∧ request.repeats = repeats) ∨ IsListed executor handle repeats := by
  unfold IsListed
  rw [hafter]
  simp only [List.mem_append, List.mem_singleton, or_and_right, exists_or, exists_eq_left]
  exact or_comm

lemma Books.schedule (h : Books executor turns) (hpool : HasPool executor) (job : Job α)
    (delay : Nat) (repeats : Bool) :
    Books (makeCall executor (.schedule job delay repeats)).1
      (turns ++ [turnOf executor (.schedule job delay repeats)]) := by
  have hdrawn := handlesDrawn_run hpool h.drawn [.schedule job delay repeats]
  have hawaits := h.awaits_schedule job delay repeats
  have hschedules := schedules executor hpool job delay repeats
  simp only [executorAfter, List.foldl_cons, List.foldl_nil, makeCall] at hdrawn ⊢
  generalize executor.schedule job delay repeats = outcome at hschedules hdrawn hawaits
  cases hschedules with
  | rejected error drawn =>
    refine ⟨h.distinct, hdrawn, fun handle often => ?_⟩
    rw [hawaits]
    exact ⟨.inr, fun hcases => hcases.resolve_left fun hnew => by cases hnew.2.2⟩
  | atOnce there taken noDelay once =>
    refine ⟨h.distinct, hdrawn, fun handle often => ?_⟩
    rw [hawaits]
    exact ⟨.inr, fun hcases => hcases.resolve_left fun hnew => hnew.2.1 noDelay⟩
  | sent isOpen waits =>
    have hpending := pendingRequests_send executor.scheduler
      { handle := executor.scheduler.drawHandle.2, job, delay, repeats }
    refine ⟨h.distinct.send h.drawn rfl hpending, hdrawn, fun handle often => ?_⟩
    rw [hawaits, isListed_send hpending]
    refine or_congr_left ⟨?_, ?_⟩
    · rintro ⟨hhandle, hrepeats⟩
      exact ⟨hrepeats.symm, waits, congrArg Except.ok hhandle⟩
    · rintro ⟨hrepeats, -, hhandle⟩
      exact ⟨Except.ok.inj hhandle, hrepeats.symm⟩

lemma Books.call (h : Books executor turns) (hpool : HasPool executor) (call : SchedulerCall α) :
    Books (makeCall executor call).1 (turns ++ [turnOf executor call]) := by
  cases call with
  | schedule job delay repeats => exact h.schedule hpool job delay repeats
  | cancel handle => exact h.cancel hpool handle
  | shutDownScheduler => exact h.shutDown hpool
  | sleep | stall | shutDownPool => exact h.timePasses hpool rfl

lemma Books.run (h : Books executor turns) (hpool : HasPool executor)
    (calls : List (SchedulerCall α)) :
    Books (executorAfter executor calls) (turns ++ turnsOf executor calls) := by
  induction calls generalizing executor turns with
  | nil => exact (List.append_nil turns).symm ▸ h
  | cons call rest ih =>
    have hrest := ih (h.call hpool call) (hasPool_makeCall hpool call)
    rw [List.append_assoc] at hrest
    exact hrest

end Calls

section Books

variable {executor : Executor α} {turns : List (Turn α)}

omit [DecidableEq α] in
lemma Books.mem_awaited (h : Books executor turns) (handle : ScheduleHandle) :
    handle ∈ awaited turns ↔
      ∃ request ∈ pendingRequests executor.scheduler, request.handle = handle := by
  constructor
  · rintro ⟨repeats, hawaits⟩
    obtain ⟨request, hrequest, hhandle, -⟩ := (h.listed handle repeats).2 hawaits
    exact ⟨request, hrequest, hhandle⟩
  · rintro ⟨request, hrequest, hhandle⟩
    exact ⟨request.repeats, (h.listed handle request.repeats).1 ⟨request, hrequest, hhandle, rfl⟩⟩

omit [DecidableEq α] in
lemma Books.awaited_eq (h : Books executor turns) :
    awaited turns =
      ↑((pendingRequests executor.scheduler).map fun request => request.handle).toFinset := by
  ext handle
  rw [h.mem_awaited, Finset.mem_coe, List.mem_toFinset, List.mem_map]

omit [DecidableEq α] in
lemma Books.pendingCount_eq (h : Books executor turns) :
    executor.scheduler.pendingCount = (awaited turns).ncard := by
  rw [h.awaited_eq, Set.ncard_coe_finset, List.toFinset_card_of_nodup h.distinct, List.length_map,
    pendingRequests, List.length_append, List.length_map]
  rfl

omit [DecidableEq α] in
lemma Books.cancel_eq_true_iff (h : Books executor turns) (handle : ScheduleHandle) :
    (executor.cancel handle).2 = true ↔ handle ∈ awaited turns := by
  have hanswer : (executor.cancel handle).2 =
      (executor.scheduler.readCommands executor.now).isPending handle := rfl
  rw [h.mem_awaited, hanswer]
  simp [Scheduler.isPending, pendingRequests, Scheduler.readCommands, ScheduleRequest.enter,
    or_and_right, exists_or]

end Books

/-- Nothing waits under the handle, nothing ever will, and nothing was fired. -/
structure IsGone (handle : ScheduleHandle) (executor : Executor α) (ticks : List (HandledTick α)) :
    Prop where
  drawn : handle.number < executor.scheduler.nextHandle
  gone : ∀ request ∈ pendingRequests executor.scheduler, request.handle ≠ handle
  unfired : ∀ tick ∈ ticks, ∀ entry ∈ tick.fired, entry.handle ≠ handle

lemma isGone_keptByTime (handle : ScheduleHandle) :
    KeptByTime (IsGone (α := α) handle) := by
  refine ⟨fun {executor after ticks} h _ _ hticks => ⟨?_, ?_, ?_⟩,
    fun {executor after ticks} h hpasses => ?_, fun {executor after ticks} h hreads => ?_⟩
  · rw [hticks.nextHandle]
    exact h.drawn
  · exact fun request hmem => h.gone request ((pendingRequests_tick hticks).subset hmem)
  · rw [List.forall_mem_append, List.forall_mem_singleton]
    refine ⟨h.unfired, fun fired hfired => ?_⟩
    obtain ⟨entry, hentry, rfl⟩ := List.mem_map.1 (List.mem_filter.1 hfired).1
    exact h.gone entry.toScheduleRequest (List.mem_append_left _ (List.mem_map_of_mem hentry))
  · have hsame := hpasses.scheduler
    exact ⟨by rw [hsame]; exact h.drawn, by rw [hsame]; exact h.gone, h.unfired⟩
  · have hread := hreads.scheduler
    refine ⟨by rw [hread]; exact h.drawn, ?_, h.unfired⟩
    rw [hread, pendingRequests_readCommands]
    exact h.gone

lemma IsGone.run {handle : ScheduleHandle} {executor : Executor α} (h : IsGone handle executor [])
    (hpool : HasPool executor) (calls : List (SchedulerCall α)) :
    IsGone handle (executorAfter executor calls) (ticksAfter executor calls) := by
  refine (isGone_keptByTime handle).run (fun _ => True) ?_ hpool h fun _ _ => trivial
  intro executor after ticks call h _ hmove
  have hlater : handle.number < executor.scheduler.nextHandle + 1 := Nat.lt_succ_of_lt h.drawn
  cases hmove with
  | drew _ drawn scheduler =>
    refine ⟨?_, by rw [scheduler]; exact h.gone, h.unfired⟩
    rw [scheduler]
    rcases drawn with rfl | rfl
    · exact h.drawn
    · exact hlater
  | sent _ _ scheduler =>
    refine ⟨by rw [scheduler]; exact hlater, fun request hmem => ?_, h.unfired⟩
    rw [scheduler, pendingRequests_send] at hmem
    rcases List.mem_append.1 hmem with hold | hnew
    · exact h.gone request hold
    · rw [List.mem_singleton.1 hnew]
      exact fun hsame => Nat.ne_of_lt h.drawn (congrArg ScheduleHandle.number hsame.symm)
  | cancelled _ scheduler =>
    refine ⟨by rw [scheduler]; exact h.drawn, fun request hmem => ?_, h.unfired⟩
    rw [scheduler] at hmem
    exact h.gone request ((pendingRequests_cancel _ _).subset hmem)
  | shutDown _ scheduler =>
    refine ⟨by rw [scheduler]; exact h.drawn, fun request hmem => ?_, h.unfired⟩
    rw [scheduler] at hmem
    exact absurd hmem List.not_mem_nil

def Turn.given? (turn : Turn α) : Option ScheduleHandle :=
  match turn.answer with
  | .scheduled (.ok handle) => some handle
  | _ => none

lemma nextHandle_call {executor : Executor α} (hpool : HasPool executor) (call : SchedulerCall α) :
    let next := (makeCall executor call).1.scheduler.nextHandle
    (next = executor.scheduler.nextHandle ∨ next = executor.scheduler.nextHandle + 1) ∧
      ∀ handle, (turnOf executor call).given? = some handle →
        handle.number = executor.scheduler.nextHandle ∧
          next = executor.scheduler.nextHandle + 1 := by
  cases htakes : call.takesTime with
  | true =>
    have hkept : KeptByTime fun (after : Executor α) (_ : List (HandledTick α)) =>
        after.scheduler.nextHandle = executor.scheduler.nextHandle :=
      ⟨fun h _ _ hticks => hticks.nextHandle.trans h, fun h hpasses => by rw [hpasses.scheduler, h],
        fun h hreads => by rw [hreads.scheduler, ← h]; rfl⟩
    have hsame :=
      (@KeptByTime.call α _ _ executor [] hkept hpool call
        (@KeptByTime.wake α _ _ executor [] hkept rfl call) htakes).2
    have hnone : (turnOf executor call).given? = none := by
      cases call with
      | schedule | cancel | shutDownScheduler => cases htakes
      | sleep | stall | shutDownPool => rfl
    exact ⟨.inl hsame, fun handle hgiven =>
      absurd (hnone.symm.trans hgiven) (Option.some_ne_none _).symm⟩
  | false =>
    cases call with
    | sleep | stall | shutDownPool => cases htakes
    | cancel | shutDownScheduler =>
      exact ⟨.inl rfl, fun handle hgiven => absurd hgiven (Option.some_ne_none _).symm⟩
    | schedule job delay repeats =>
      have hschedules := schedules executor hpool job delay repeats
      simp only [makeCall, turnOf, Turn.given?]
      generalize executor.schedule job delay repeats = outcome at hschedules
      cases hschedules with
      | rejected error drawn => exact ⟨drawn, fun handle hgiven => by cases hgiven⟩
      | atOnce | sent =>
        exact ⟨.inr rfl, fun handle hgiven => by cases hgiven; exact ⟨rfl, rfl⟩⟩

lemma handles_run {executor : Executor α} (hpool : HasPool executor)
    (calls : List (SchedulerCall α)) :
    let given := (turnsOf executor calls).filterMap Turn.given?
    given.Pairwise (fun handle later => handle.number < later.number) ∧
      ∀ handle ∈ given, executor.scheduler.nextHandle ≤ handle.number ∧
        handle.number < executor.scheduler.nextHandle + (turnsOf executor calls).length := by
  induction calls generalizing executor with
  | nil => exact ⟨List.Pairwise.nil, fun _ hmem => absurd hmem List.not_mem_nil⟩
  | cons call rest ih =>
    obtain ⟨hnext, hgiven⟩ := nextHandle_call hpool call
    obtain ⟨hordered, hrange⟩ := ih (hasPool_makeCall hpool call)
    have hturns : turnsOf executor (call :: rest) =
        turnOf executor call :: turnsOf (makeCall executor call).1 rest := rfl
    rw [hturns, List.filterMap_cons, List.length_cons]
    cases hfirst : (turnOf executor call).given? with
    | none =>
      refine ⟨hordered, fun handle hmem => ?_⟩
      have := hrange handle hmem
      omega
    | some first =>
      obtain ⟨hnumber, hafter⟩ := hgiven first hfirst
      refine ⟨List.pairwise_cons.2 ⟨fun handle hmem => ?_, hordered⟩, fun handle hmem => ?_⟩
      · have := hrange handle hmem
        omega
      · rcases List.mem_cons.1 hmem with rfl | hlater
        · omega
        · have := hrange handle hlater
          omega

lemma handles_distinct {executor : Executor α} (hpool : HasPool executor)
    (hfresh : executor.scheduler.nextHandle = 1) {calls : List (SchedulerCall α)}
    (hlength : (turnsOf executor calls).length < UInt64.size) :
    (((turnsOf executor calls).filterMap Turn.given?).map fun handle =>
      UInt64.ofNat handle.number).Nodup := by
  obtain ⟨hordered, hrange⟩ := handles_run hpool calls
  rw [List.Nodup, List.pairwise_map]
  refine hordered.imp_of_mem fun hfirst hsecond hlt hsame => ?_
  have hword : ∀ handle ∈ (turnsOf executor calls).filterMap Turn.given?,
      (UInt64.ofNat handle.number).toNat = handle.number := fun handle hmem => by
    have := hrange handle hmem
    exact UInt64.toNat_ofNat_of_lt' (by omega)
  have hnumbers := congrArg UInt64.toNat hsame
  rw [hword _ hfirst, hword _ hsecond] at hnumbers
  exact Nat.ne_of_lt hlt hnumbers

/-- What a job without delay comes to that is taken under a handle: it is handed to the pool in the
call, once, and the scheduler has nothing to do with it, then or ever. -/
structure GoesAtOnce (executor : Executor α) (turns : List (Turn α)) (job : Job α) (repeats : Bool)
    (handle : ScheduleHandle) : Prop where
  once : repeats = false
  handedOver : ∃ pool queued, executor.backend = .pool pool ∧
    pool.submit (numberedJob executor job) = .ok queued ∧
    (executor.schedule job 0 repeats).1.backend = .pool queued
  counted : ∀ label, firingCount (executor.schedule job 0 repeats).1 label =
    firingCount executor label + if job.label = label then 1 else 0
  entries : (executor.schedule job 0 repeats).1.scheduler.entries = executor.scheduler.entries
  commands : (executor.schedule job 0 repeats).1.scheduler.commands = executor.scheduler.commands
  neverPending : ∀ later, handle ∉ awaited (turns ++
    turnOf executor (.schedule job 0 repeats) ::
      turnsOf (executor.schedule job 0 repeats).1 later)
  neverFired : ∀ later, ∀ tick ∈ ticksAfter (executor.schedule job 0 repeats).1 later,
    ∀ entry ∈ tick.fired, entry.handle ≠ handle

/-- What an executor counts and answers after a run is what the turns of the run make of it. -/
structure KeepsBooks (executor : Executor α) (turns : List (Turn α)) : Prop where
  finite : (awaited turns).Finite
  pendingCount : executor.scheduler.pendingCount = (awaited turns).ncard
  cancel : ∀ handle, (executor.cancel handle).2 = true ↔ handle ∈ awaited turns
  afterCancel : ∀ handle, (executor.cancel handle).2 = true → ∀ later,
    ∀ tick ∈ ticksAfter (executor.cancel handle).1 later, ∀ entry ∈ tick.fired,
      entry.handle ≠ handle
  afterShutDown : ∀ later,
    (executorAfter executor.shutDownScheduler later).scheduler.pendingCount = 0 ∧
      ticksAfter executor.shutDownScheduler later = []
  handles : turns.length < UInt64.size →
    ((turns.filterMap Turn.given?).map fun handle => UInt64.ofNat handle.number).Nodup
  rejected : ∀ job delay repeats error, (executor.schedule job delay repeats).2 = .error error →
    (executor.schedule job delay repeats).1.scheduler.entries = executor.scheduler.entries ∧
      (executor.schedule job delay repeats).1.scheduler.commands = executor.scheduler.commands
  atOnce : ∀ job repeats handle, (executor.schedule job 0 repeats).2 = .ok handle →
    GoesAtOnce executor turns job repeats handle
  /-- What the turns tell to have been fired is what the executor has counted. -/
  fired : ∀ label, firingCount executor label =
    (turns.flatMap Turn.fired).countP fun job => job.label = label

lemma Books.never_fired_after_cancel {executor : Executor α} {turns : List (Turn α)}
    (h : Books executor turns) (hpool : HasPool executor) {handle : ScheduleHandle}
    (hcancel : (executor.cancel handle).2 = true) (later : List (SchedulerCall α)) :
    ∀ tick ∈ ticksAfter (executor.cancel handle).1 later, ∀ entry ∈ tick.fired,
      entry.handle ≠ handle := by
  obtain ⟨request, hrequest, rfl⟩ := (h.mem_awaited handle).1 ((h.cancel_eq_true_iff handle).1 hcancel)
  have hgone : IsGone request.handle (executor.cancel request.handle).1 [] := by
    refine ⟨h.drawn request hrequest, fun other hmem => ?_, fun _ hmem => absurd hmem List.not_mem_nil⟩
    rw [pendingRequests_cancelled] at hmem
    exact of_decide_eq_true (List.mem_filter.1 hmem).2
  have hleft : HasPool (executor.cancel request.handle).1 := (reads_rest executor).pool hpool
  exact (hgone.run hleft later).unfired

lemma rejected_entries {executor : Executor α} (hpool : HasPool executor) {job : Job α}
    {delay : Nat} {repeats : Bool} {error : ScheduleError}
    (h : (executor.schedule job delay repeats).2 = .error error) :
    (executor.schedule job delay repeats).1.scheduler.entries = executor.scheduler.entries ∧
      (executor.schedule job delay repeats).1.scheduler.commands = executor.scheduler.commands := by
  have hschedules := schedules executor hpool job delay repeats
  generalize executor.schedule job delay repeats = outcome at h hschedules
  cases hschedules with
  | rejected => exact ⟨rfl, rfl⟩
  | atOnce | sent => cases h

/-- A job without delay that is taken takes a handle, and nothing else of the scheduler. -/
lemma schedule_at_once {executor : Executor α} (hpool : HasPool executor) {job : Job α}
    {repeats : Bool} {handle : ScheduleHandle}
    (hresult : (executor.schedule job 0 repeats).2 = .ok handle) :
    repeats = false ∧ handle = executor.scheduler.drawHandle.2 ∧
      (executor.schedule job 0 repeats).1.scheduler = executor.scheduler.drawHandle.1 ∧
      (∃ pool queued, executor.backend = .pool pool ∧
        pool.submit (numberedJob executor job) = .ok queued ∧
        (executor.schedule job 0 repeats).1.backend = .pool queued) ∧
      ∀ label, firingCount (executor.schedule job 0 repeats).1 label =
        firingCount executor label + if job.label = label then 1 else 0 := by
  have hschedules := schedules executor hpool job 0 repeats
  generalize executor.schedule job 0 repeats = outcome at hresult hschedules
  cases hschedules with
  | rejected => cases hresult
  | sent _ waits => exact absurd rfl waits
  | atOnce there taken noDelay once =>
    exact ⟨once, (Except.ok.inj hresult).symm, rfl, ⟨_, _, there, taken, rfl⟩,
      firingCount_countFiring executor job⟩

lemma Books.goesAtOnce {executor : Executor α} {turns : List (Turn α)} (h : Books executor turns)
    (hpool : HasPool executor) {job : Job α} {repeats : Bool} {handle : ScheduleHandle}
    (hresult : (executor.schedule job 0 repeats).2 = .ok handle) :
    GoesAtOnce executor turns job repeats handle := by
  obtain ⟨honce, rfl, hscheduler, hhanded, hcounted⟩ := schedule_at_once hpool hresult
  have hafter := hasPool_schedule hpool job 0 repeats
  have hgone : IsGone executor.scheduler.drawHandle.2 (executor.schedule job 0 repeats).1 [] := by
    refine ⟨?_, ?_, fun _ hmem => absurd hmem List.not_mem_nil⟩
    · rw [hscheduler]
      exact Nat.lt_succ_self _
    · rw [hscheduler]
      exact fun request hmem hsame =>
        Nat.ne_of_lt (h.drawn request hmem) (congrArg ScheduleHandle.number hsame)
  refine ⟨honce, hhanded, hcounted, by rw [hscheduler]; rfl, by rw [hscheduler]; rfl,
    fun later hmem => ?_, fun later => (hgone.run hafter later).unfired⟩
  have hlater := (h.call hpool (.schedule job 0 repeats)).run hafter later
  rw [← List.append_cons] at hlater
  obtain ⟨request, hrequest, hhandle⟩ := (hlater.mem_awaited _).1 hmem
  exact (hgone.run hafter later).gone request hrequest hhandle

/-- Jobs are scheduled and cancelled, time passes, and scheduler and pool are shut down, in any order.
The scheduler counts as pending what the run has given it to do and neither cancelled nor done, and
nothing after a shutdown; it answers a cancellation by whether that is one of these, and what is
cancelled or dropped is never fired again. No handle is given twice, a rejected job changes nothing,
and a job without delay goes to the pool in the call itself and is never pending. -/
theorem scheduler_keeps_books (period workers : Nat) (calls : List (SchedulerCall α)) :
    KeepsBooks (executorAfter (.withPool period workers) calls)
      (turnsOf (.withPool period workers) calls) := by
  have hfresh : HasPool (Executor.withPool period workers : Executor α) :=
    hasPool_withPool period workers
  have hstart : Books (Executor.withPool period workers : Executor α) [] := by
    refine ⟨List.nodup_nil, fun _ hmem => absurd hmem List.not_mem_nil, fun handle repeats => ?_⟩
    constructor
    · rintro ⟨_, hmem, _⟩
      exact absurd hmem List.not_mem_nil
    · rintro ⟨earlier, turn, later, hsplit, _⟩
      exact absurd hsplit.symm (by simp)
  have hbooks : Books (executorAfter (.withPool period workers) calls)
      (turnsOf (.withPool period workers) calls) := hstart.run hfresh calls
  have hpool := hasPool_run hfresh calls
  refine ⟨?_, hbooks.pendingCount_eq, hbooks.cancel_eq_true_iff,
    fun _ hcancel => hbooks.never_fired_after_cancel hpool hcancel, fun later => ?_, fun hfew => ?_,
    fun _ _ _ _ herror => rejected_entries hpool herror, fun _ _ _ hresult =>
      hbooks.goesAtOnce hpool hresult, fun label => ?_⟩
  · rw [hbooks.awaited_eq]
    exact Finset.finite_toSet _
  · obtain ⟨hshut, hnone⟩ := (isShutDown_shutDownScheduler _).run later
    refine ⟨?_, hnone⟩
    rw [Scheduler.pendingCount, hshut.empty, hshut.read]
    rfl
  · exact handles_distinct hfresh rfl hfew
  · exact (firingCount_run hfresh calls label).trans (Nat.zero_add _)

/-- Jobs of every kind: one is cancelled, one is fired for the only time, one goes at once, one is
rejected, and two are left. -/
def allKindsOfJobs : List (SchedulerCall String) :=
  [.schedule { label := "each" } 30 true, .schedule { label := "once" } 30 false,
    .schedule { label := "now" } 0 false, .schedule { label := "never" } 0 true, .sleep 60,
    .schedule { label := "kept" } 100 false, .schedule { label := "again" } 40 true, .cancel ⟨1⟩,
    .stall 20]

theorem allKindsOfJobs_leave_two :
    let executor : Executor String := executorAfter (.withPool 50 2) allKindsOfJobs
    let turns := turnsOf (.withPool 50 2) allKindsOfJobs
    KeepsBooks executor turns ∧
    executor.scheduler.pendingCount = 2 ∧ (awaited turns).ncard = 2 ∧
    (⟨4⟩ ∈ awaited turns ∧ ⟨5⟩ ∈ awaited turns) ∧
    (⟨1⟩ ∉ awaited turns ∧ ⟨2⟩ ∉ awaited turns ∧ ⟨3⟩ ∉ awaited turns) ∧
    turns.filterMap Turn.given? = [⟨1⟩, ⟨2⟩, ⟨3⟩, ⟨4⟩, ⟨5⟩] ∧
    ["each", "once", "now", "never"].map (firingCount executor) = [1, 1, 1, 0] := by
  intro executor turns
  have hbooks : KeepsBooks executor turns := scheduler_keeps_books 50 2 allKindsOfJobs
  have htwo : executor.scheduler.pendingCount = 2 := by decide +kernel
  have hanswers : (List.range 6).map (fun number => (executor.cancel ⟨number⟩).2) =
      [false, false, false, false, true, true] := by decide +kernel
  simp only [List.range, List.range.loop, List.map_cons, List.map_nil, List.cons.injEq] at hanswers
  obtain ⟨-, hfirst, hsecond, hthird, hfourth, hfifth, -⟩ := hanswers
  refine ⟨hbooks, htwo, hbooks.pendingCount ▸ htwo,
    ⟨(hbooks.cancel _).1 hfourth, (hbooks.cancel _).1 hfifth⟩, ⟨?_, ?_, ?_⟩, by decide +kernel,
    by decide +kernel⟩
  · rw [← hbooks.cancel, hfirst]
    exact Bool.false_ne_true
  · rw [← hbooks.cancel, hsecond]
    exact Bool.false_ne_true
  · rw [← hbooks.cancel, hthird]
    exact Bool.false_ne_true

end ReliableDatagrams.Proofs
