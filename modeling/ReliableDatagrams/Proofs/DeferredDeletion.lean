import ReliableDatagrams.Proofs.StoreSessions
import ReliableDatagrams.Proofs.Totals

/-!
# Deferred deletion

A pool counts how often each record was added to it. It stands for a queue that has one entry for
each time, and a sweep of the pool is a sweep of that queue: it takes out exactly the entries that
are the only reference to their record and have waited for the grace period (`SweepsExactly`). So it
is for everything that can happen to a pool, for sessions with a bare pool, and for the pool of a
store, where a record that was removed is freed by the first sweep that may free it
(`deferred_deletion_exact`).
-/

namespace ReliableDatagrams.Proofs

/-- A reference to a record from the pool, and since when it is there. -/
structure Waiting where
  serial : Nat
  since : Nat
deriving DecidableEq, Repr

def entriesOf (serial : Nat) (queue : List Waiting) : Nat :=
  queue.countP fun entry => entry.serial = serial

/-- The times at which a record was added, first to last. -/
def timesOf (serial : Nat) (queue : List Waiting) : List Nat :=
  (queue.filter fun entry => entry.serial = serial).map Waiting.since

def heldBy (handles : Nat → Nat) (serial : Nat) : Bool :=
  0 < handles serial

/-- The number of references to a record, by handles and from the pool. -/
def references (handles : Nat → Nat) (queue : List Waiting) (serial : Nat) : Nat :=
  handles serial + entriesOf serial queue

/-- An entry is the only reference to its record and has waited for the grace period. -/
def IsFree (queue : List Waiting) (now gracePeriod : Nat) (handles : Nat → Nat)
    (entry : Waiting) : Prop :=
  references handles queue entry.serial = 1 ∧ gracePeriod ≤ now - entry.since

instance (queue : List Waiting) (now gracePeriod : Nat) (handles : Nat → Nat) :
    DecidablePred (IsFree queue now gracePeriod handles) :=
  fun _ => inferInstanceAs (Decidable (_ ∧ _))

def swept (queue : List Waiting) (now gracePeriod : Nat) (handles : Nat → Nat) : List Waiting :=
  queue.filter fun entry => ¬ IsFree queue now gracePeriod handles entry

/-- A sweep that drops one entry after the other, each by the references that are left then. -/
def dropFree (now gracePeriod : Nat) (handles : Nat → Nat) (kept : List Waiting) :
    List Waiting → List Waiting
  | [] => kept
  | entry :: rest =>
    if IsFree (kept ++ entry :: rest) now gracePeriod handles entry then
      dropFree now gracePeriod handles kept rest
    else dropFree now gracePeriod handles (kept ++ [entry]) rest

/-- The pool has an entry for every record in the queue, with the time at which it was added first
and the number of times that it was added. It needs no other times, and no order: only a record that
was added once can be freed, and every entry is looked at by itself. -/
def Represents (pool : PendingPool) (queue : List Waiting) : Prop :=
  ∀ serial : Nat, (pool.entries[serial]?).map (fun entry => (entry.since, entry.count)) =
    (timesOf serial queue).head?.map fun since => (since, (timesOf serial queue).length)

section Queues

variable {queue : List Waiting} {pool : PendingPool}

lemma length_timesOf (serial : Nat) (queue : List Waiting) :
    (timesOf serial queue).length = entriesOf serial queue := by
  rw [timesOf, entriesOf, List.length_map, List.countP_eq_length_filter]

lemma timesOf_append (serial : Nat) (queue more : List Waiting) :
    timesOf serial (queue ++ more) = timesOf serial queue ++ timesOf serial more := by
  rw [timesOf, List.filter_append, List.map_append]
  rfl

lemma mem_timesOf {entry : Waiting} (h : entry ∈ queue) :
    entry.since ∈ timesOf entry.serial queue :=
  List.mem_map_of_mem (List.mem_filter.2 ⟨h, decide_eq_true rfl⟩)

lemma entriesOf_pos {entry : Waiting} (h : entry ∈ queue) : 0 < entriesOf entry.serial queue :=
  List.countP_pos_iff.2 ⟨entry, h, decide_eq_true rfl⟩

lemma Represents.entry (h : Represents pool queue) {serial : Nat} {entry : PendingEntry}
    (hentry : pool.entries[serial]? = some entry) :
    entry.count = entriesOf serial queue ∧ (timesOf serial queue).head? = some entry.since := by
  have hserial := h serial
  rw [hentry, Option.map_some] at hserial
  obtain ⟨since, hhead, heq⟩ := Option.map_eq_some_iff.1 hserial.symm
  obtain ⟨hsince, hcount⟩ := Prod.mk.inj heq
  exact ⟨hcount.symm.trans (length_timesOf serial queue), hsince ▸ hhead⟩

lemma Represents.timesOf_eq_nil (h : Represents pool queue) {serial : Nat}
    (hnone : pool.entries[serial]? = none) : timesOf serial queue = [] := by
  have hserial := h serial
  rw [hnone, Option.map_none] at hserial
  exact List.head?_eq_none_iff.1 (Option.map_eq_none_iff.1 hserial.symm)

lemma Represents.exists_entry (h : Represents pool queue) {entry : Waiting}
    (hentry : entry ∈ queue) : ∃ found, pool.entries[entry.serial]? = some found := by
  have hne := List.ne_nil_of_mem (mem_timesOf hentry)
  cases hfound : pool.entries[entry.serial]? with
  | some found => exact ⟨found, rfl⟩
  | none => exact absurd (h.timesOf_eq_nil hfound) hne

lemma represents_empty : Represents PendingPool.empty [] := by
  intro serial
  simp [PendingPool.empty, timesOf]

lemma Represents.add (h : Represents pool queue) (now : Nat) (record : Record) :
    Represents (pool.add now record) (queue ++ [⟨record.serial, now⟩]) := by
  intro serial
  have hserial := h serial
  rw [PendingPool.add, getElem?_insert_eq, timesOf_append]
  by_cases hsame : record.serial = serial
  · subst hsame
    have hlast : timesOf record.serial [⟨record.serial, now⟩] = [now] := by simp [timesOf]
    rw [if_pos rfl, hlast]
    cases hentry : pool.entries[record.serial]? with
    | none => simp [h.timesOf_eq_nil hentry]
    | some entry =>
      obtain ⟨hcount, hhead⟩ := h.entry hentry
      rw [← length_timesOf] at hcount
      simp [PendingEntry.addAgain, hcount, hhead]
  · have hlast : timesOf serial [⟨record.serial, now⟩] = [] := by simp [timesOf, hsame]
    rw [if_neg hsame, hlast, List.append_nil]
    exact hserial

/-- Entries may be dropped from pool and queue, for each record all or none. -/
lemma Represents.filter (h : Represents pool queue) {keep : Nat → PendingEntry → Bool}
    {keepEntry : Waiting → Bool}
    (hkeep : ∀ entry ∈ queue, ∀ found, pool.entries[entry.serial]? = some found →
      keepEntry entry = keep entry.serial found) :
    Represents ⟨pool.entries.filter keep⟩ (queue.filter keepEntry) := by
  intro serial
  have htimes : timesOf serial (queue.filter keepEntry) =
      ((queue.filter fun entry => entry.serial = serial).filter keepEntry).map Waiting.since := by
    rw [timesOf, List.filter_comm]
  rw [Std.ExtTreeMap.getElem?_filter', htimes]
  cases hfound : pool.entries[serial]? with
  | none =>
    have hnil := List.map_eq_nil_iff.1 (h.timesOf_eq_nil hfound)
    simp [hnil]
  | some found =>
    have hall : ∀ entry ∈ queue.filter (fun entry => entry.serial = serial),
        keepEntry entry = keep serial found := by
      intro entry hentry
      obtain ⟨hmem, hserial⟩ := List.mem_filter.1 hentry
      obtain rfl := of_decide_eq_true hserial
      exact hkeep entry hmem found hfound
    rw [List.filter_congr hall, Option.filter_some]
    have hserial := h serial
    rw [hfound] at hserial
    cases keep serial found with
    | true => simpa [timesOf] using hserial
    | false => simp

lemma entriesOf_append (serial : Nat) (queue more : List Waiting) :
    entriesOf serial (queue ++ more) = entriesOf serial queue + entriesOf serial more :=
  List.countP_append

lemma entriesOf_cons (serial : Nat) (entry : Waiting) (rest : List Waiting) :
    entriesOf serial (entry :: rest) =
      entriesOf serial rest + if entry.serial = serial then 1 else 0 := by
  simp [entriesOf, List.countP_cons]

lemma total_entriesOf_cons (entry : Waiting) (rest : List Waiting) (serials : List Nat) :
    total (fun serial => entriesOf serial (entry :: rest)) serials =
      total (fun serial => entriesOf serial rest) serials + serials.count entry.serial := by
  induction serials with
  | nil => rfl
  | cons serial later ih =>
    rw [total_cons, total_cons, ih, entriesOf_cons, List.count_cons]
    simp only [beq_iff_eq, @eq_comm _ serial]
    omega

/-- Every entry is counted once among the serial numbers that occur. -/
lemma total_entriesOf {serials : List Nat} (hnodup : serials.Nodup)
    (hall : ∀ entry ∈ queue, entry.serial ∈ serials) :
    total (fun serial => entriesOf serial queue) serials = queue.length := by
  induction queue with
  | nil =>
    have hnone := total_le_mul_length (fun serial => entriesOf serial []) (fun _ => Nat.le_refl 0)
      serials
    simpa using hnone
  | cons entry rest ih =>
    have hrest := ih fun other hother => hall other (List.mem_cons_of_mem _ hother)
    rw [total_entriesOf_cons, hrest,
      List.count_eq_one_of_mem hnodup (hall entry List.mem_cons_self), List.length_cons]

lemma Represents.size (h : Represents pool queue) : pool.size = queue.length := by
  have hsize : pool.size = total PendingEntry.count pool.entries.values := rfl
  have hcounts : total PendingEntry.count (pool.entries.toList.map Prod.snd) =
      total (fun serial => entriesOf serial queue) (pool.entries.toList.map Prod.fst) := by
    rw [total_map, total_map]
    refine total_congr _ ?_
    rintro ⟨serial, entry⟩ hmem
    have hentry := Std.ExtTreeMap.mem_toList_iff_getElem?_eq_some.1 hmem
    exact (h.entry hentry).1
  rw [hsize, values_eq_map_toList, hcounts, Std.ExtTreeMap.map_fst_toList_eq_keys]
  refine total_entriesOf Std.ExtTreeMap.nodup_keys ?_
  intro entry hentry
  obtain ⟨found, hfound⟩ := h.exists_entry hentry
  rw [← Std.ExtTreeMap.map_fst_toList_eq_keys]
  exact List.mem_map.2 ⟨(entry.serial, found),
    Std.ExtTreeMap.mem_toList_iff_getElem?_eq_some.2 hfound, rfl⟩

lemma Represents.isEmpty (h : Represents pool queue) : pool.isEmpty = queue.isEmpty := by
  cases queue with
  | nil =>
    refine Std.ExtTreeMap.isEmpty_iff.2 (Std.ExtTreeMap.ext_getElem? fun serial => ?_)
    have hserial := h serial
    simpa [timesOf] using hserial
  | cons entry rest =>
    obtain ⟨found, hfound⟩ := h.exists_entry List.mem_cons_self
    refine Std.ExtTreeMap.isEmpty_eq_false_iff.2 fun hempty => ?_
    rw [hempty] at hfound
    simp at hfound

/-- If no record is there twice, there are as many records as entries. -/
lemma Represents.size_of_once (h : Represents pool queue)
    (honce : ∀ (serial : Nat) entry, pool.entries[serial]? = some entry → entry.count ≤ 1) :
    pool.entries.size = queue.length := by
  have hcounts : total PendingEntry.count (pool.entries.toList.map Prod.snd) =
      total (fun _ => 1) pool.entries.toList := by
    rw [total_map]
    refine total_congr _ ?_
    rintro ⟨serial, entry⟩ hmem
    have hentry := Std.ExtTreeMap.mem_toList_iff_getElem?_eq_some.1 hmem
    obtain ⟨hcount, hhead⟩ := h.entry hentry
    have hpos : 0 < (timesOf serial queue).length :=
      List.length_pos_of_mem (List.mem_of_head? hhead)
    rw [length_timesOf] at hpos
    have hmost := honce serial entry hentry
    dsimp only
    omega
  rw [← h.size, ← Std.ExtTreeMap.length_toList, ← total_one, ← hcounts, ← values_eq_map_toList]
  rfl

variable (now gracePeriod : Nat) (handles : Nat → Nat)

/-- The entries of a map that have a property, and those that have not, are all of them. -/
lemma size_filter_add (entries : Std.ExtTreeMap Nat PendingEntry)
    (keep : Nat → PendingEntry → Bool) :
    (entries.filter keep).size + (entries.filter fun serial entry => !keep serial entry).size =
      entries.size := by
  simp only [← Std.ExtTreeMap.length_toList, Std.ExtTreeMap.toList_filter]
  exact (List.length_eq_length_filter_add _).symm

lemma Represents.canFree (h : Represents pool queue) {entry : Waiting} (hentry : entry ∈ queue)
    {found : PendingEntry} (hfound : pool.entries[entry.serial]? = some found) :
    found.canFree now gracePeriod (heldBy handles entry.serial) =
      decide (IsFree queue now gracePeriod handles entry) := by
  obtain ⟨hcount, hhead⟩ := h.entry hfound
  have hpos := entriesOf_pos hentry
  have hiff : found.canFree now gracePeriod (heldBy handles entry.serial) = true ↔
      IsFree queue now gracePeriod handles entry := by
    by_cases hone : references handles queue entry.serial = 1
    · have hentries : entriesOf entry.serial queue = 1 := by
        unfold references at hone
        omega
      have hhandles : handles entry.serial = 0 := by
        unfold references at hone
        omega
      -- The record was added once, so the time that the pool has kept is the one of this entry.
      obtain ⟨since, htimes⟩ := List.length_eq_one_iff.1
        ((length_timesOf entry.serial queue).trans hentries)
      have hsince : entry.since = since := by
        have hmem := mem_timesOf hentry
        rw [htimes] at hmem
        exact List.mem_singleton.1 hmem
      have hfirst : since = found.since := by
        rw [htimes] at hhead
        exact Option.some.inj hhead
      simp [PendingEntry.canFree, IsFree, heldBy, hone, hhandles, hcount, hentries, hsince, hfirst]
    · have hmore : 0 < handles entry.serial ∨ 1 < found.count := by
        unfold references at hone
        omega
      have hkept : found.canFree now gracePeriod (heldBy handles entry.serial) = false := by
        rcases hmore with hmore | hmore
        · simp [PendingEntry.canFree, heldBy, hmore]
        · simp [PendingEntry.canFree, Nat.not_le.2 hmore]
      rw [hkept, IsFree]
      simp [hone]
  exact Bool.eq_iff_iff.2 (hiff.trans decide_eq_true_iff.symm)

lemma Represents.sweep (h : Represents pool queue) :
    Represents (pool.sweep now gracePeriod (heldBy handles)).1
      (swept queue now gracePeriod handles) := by
  refine h.filter ?_
  intro entry hentry found hfound
  rw [h.canFree now gracePeriod handles hentry hfound, decide_not]

lemma Represents.freed (h : Represents pool queue) :
    (pool.sweep now gracePeriod (heldBy handles)).2 =
      queue.countP fun entry => IsFree queue now gracePeriod handles entry := by
  have hfreed := @Represents.filter queue pool h
    (fun serial entry => entry.canFree now gracePeriod (heldBy handles serial))
    (fun entry => IsFree queue now gracePeriod handles entry)
    fun entry hentry found hfound => (h.canFree now gracePeriod handles hentry hfound).symm
  have hsize := hfreed.size_of_once (by
    intro serial entry hentry
    rw [Std.ExtTreeMap.getElem?_filter'] at hentry
    have hfree := (Option.filter_eq_some_iff.1 hentry).2
    simp only [PendingEntry.canFree, Bool.and_eq_true, decide_eq_true_eq] at hfree
    exact hfree.1.2)
  have hparts := size_filter_add pool.entries
    fun serial entry => entry.canFree now gracePeriod (heldBy handles serial)
  rw [List.countP_eq_length_filter, ← hsize]
  exact Nat.sub_eq_of_eq_add hparts.symm

lemma dropFree_eq (kept rest : List Waiting) :
    dropFree now gracePeriod handles kept rest = kept ++ rest.filter fun entry =>
      ¬ IsFree (kept ++ rest) now gracePeriod handles entry := by
  induction rest generalizing kept with
  | nil => simp [dropFree]
  | cons entry rest ih =>
    rw [dropFree]
    split
    · rename_i hfree
      -- A free entry is the last one of its record: no other entry loses a reference with it.
      have hnone : entriesOf entry.serial (kept ++ rest) = 0 := by
        have hone := hfree.1
        rw [references, entriesOf_append, entriesOf_cons, if_pos rfl] at hone
        rw [entriesOf_append]
        omega
      have hothers : ∀ other ∈ rest, IsFree (kept ++ rest) now gracePeriod handles other ↔
          IsFree (kept ++ entry :: rest) now gracePeriod handles other := by
        intro other hother
        have hne : entry.serial ≠ other.serial := by
          intro hsame
          have hpos := entriesOf_pos (List.mem_append_right kept hother)
          rw [← hsame, hnone] at hpos
          exact Nat.lt_irrefl 0 hpos
        rw [IsFree, IsFree, references, references, entriesOf_append, entriesOf_append,
          entriesOf_cons, if_neg hne, Nat.add_zero]
      rw [ih, List.filter_cons_of_neg (by simpa using hfree)]
      congr 1
      refine List.filter_congr fun other hother => ?_
      simp only [hothers other hother]
    · rename_i hkept
      rw [ih, List.append_assoc, List.singleton_append,
        List.filter_cons_of_pos (by simpa using hkept), List.append_assoc, List.singleton_append]

end Queues

/-- What happens to a pool, and when. A sweep goes by the number of handles to each record. -/
inductive PoolEvent where
  | add (now : Nat) (record : Record)
  | sweep (now gracePeriod : Nat) (handles : Nat → Nat)

def poolFrom (pool : PendingPool) : List PoolEvent → PendingPool
  | [] => pool
  | .add now record :: rest => poolFrom (pool.add now record) rest
  | .sweep now gracePeriod handles :: rest =>
    poolFrom (pool.sweep now gracePeriod (heldBy handles)).1 rest

def queueFrom (queue : List Waiting) : List PoolEvent → List Waiting
  | [] => queue
  | .add now record :: rest => queueFrom (queue ++ [⟨record.serial, now⟩]) rest
  | .sweep now gracePeriod handles :: rest =>
    queueFrom (swept queue now gracePeriod handles) rest

/-- Every sweep of the pool removes from the queue just what is free, and tells how much that is. -/
structure SweepsExactly (pool : PendingPool) (queue : List Waiting) : Prop where
  represents : Represents pool queue
  size : pool.size = queue.length
  isEmpty : pool.isEmpty = queue.isEmpty
  sweep : ∀ (now gracePeriod : Nat) (handles : Nat → Nat),
    Represents (pool.sweep now gracePeriod (heldBy handles)).1
      (swept queue now gracePeriod handles)
  freed : ∀ (now gracePeriod : Nat) (handles : Nat → Nat),
    (pool.sweep now gracePeriod (heldBy handles)).2 =
      queue.countP fun entry => IsFree queue now gracePeriod handles entry
  /-- What stays in the pool is as it was. -/
  kept : ∀ (now gracePeriod : Nat) (handles : Nat → Nat) (serial : Nat) (found : PendingEntry),
    (pool.sweep now gracePeriod (heldBy handles)).1.entries[serial]? = some found →
      pool.entries[serial]? = some found
  /-- It makes no difference whether the references are counted before the sweep or during it. -/
  oneByOne : ∀ (now gracePeriod : Nat) (handles : Nat → Nat),
    dropFree now gracePeriod handles [] queue = swept queue now gracePeriod handles
  /-- Nothing that is held at every sweep is freed. -/
  held : ∀ entry ∈ queue, ∀ events : List PoolEvent,
    (∀ (now gracePeriod : Nat) (handles : Nat → Nat), .sweep now gracePeriod handles ∈ events →
      0 < handles entry.serial) →
    entry ∈ queueFrom queue events ∧
      ∃ found, (poolFrom pool events).entries[entry.serial]? = some found

section Events

variable {queue : List Waiting} {pool : PendingPool}

lemma poolFrom_append (events more : List PoolEvent) :
    poolFrom pool (events ++ more) = poolFrom (poolFrom pool events) more := by
  induction events generalizing pool with
  | nil => rfl
  | cons event rest ih => cases event <;> exact ih

lemma queueFrom_append (events more : List PoolEvent) :
    queueFrom queue (events ++ more) = queueFrom (queueFrom queue events) more := by
  induction events generalizing queue with
  | nil => rfl
  | cons event rest ih => cases event <;> exact ih

lemma Represents.run (h : Represents pool queue) (events : List PoolEvent) :
    Represents (poolFrom pool events) (queueFrom queue events) := by
  induction events generalizing pool queue with
  | nil => exact h
  | cons event rest ih =>
    cases event with
    | add now record => exact ih (h.add now record)
    | sweep now gracePeriod handles => exact ih (h.sweep now gracePeriod handles)

lemma mem_queueFrom {entry : Waiting} (hentry : entry ∈ queue) {events : List PoolEvent}
    (hheld : ∀ now gracePeriod handles, .sweep now gracePeriod handles ∈ events →
      0 < handles entry.serial) : entry ∈ queueFrom queue events := by
  induction events generalizing queue with
  | nil => exact hentry
  | cons event rest ih =>
    have hrest : ∀ now gracePeriod handles, .sweep now gracePeriod handles ∈ rest →
        0 < handles entry.serial := fun now gracePeriod handles hmem =>
      hheld now gracePeriod handles (List.mem_cons_of_mem _ hmem)
    cases event with
    | add now record => exact ih (List.mem_append_left _ hentry) hrest
    | sweep now gracePeriod handles =>
      refine ih ?_ hrest
      have hhandles := hheld now gracePeriod handles List.mem_cons_self
      have hpos := entriesOf_pos hentry
      have hkept : ¬ IsFree queue now gracePeriod handles entry := by
        intro hfree
        have hone := hfree.1
        unfold references at hone
        omega
      exact List.mem_filter.2 ⟨hentry, decide_eq_true hkept⟩

lemma sweepsExactly_of_represents (h : Represents pool queue) : SweepsExactly pool queue where
  represents := h
  size := h.size
  isEmpty := h.isEmpty
  sweep now gracePeriod handles := h.sweep now gracePeriod handles
  freed now gracePeriod handles := h.freed now gracePeriod handles
  kept now gracePeriod handles serial found hfound := by
    unfold PendingPool.sweep at hfound
    dsimp only at hfound
    rw [Std.ExtTreeMap.getElem?_filter'] at hfound
    exact (Option.filter_eq_some_iff.1 hfound).1
  oneByOne now gracePeriod handles := dropFree_eq now gracePeriod handles [] queue
  held _ hentry events hheld :=
    have hmem := mem_queueFrom hentry hheld
    ⟨hmem, (h.run events).exists_entry hmem⟩

end Events

def poolHandles (session : PendingSession) (serial : Nat) : Nat :=
  session.held.values.countP fun record => record.serial = serial

def poolEvents (session : PendingSession) : PendingStep → List PoolEvent
  | .add name =>
    match session.held.get? name with
    | some record => [.add session.now record]
    | none => []
  | .addNew spec => [.add session.now (spec.create session.now session.nextSerial)]
  | .sweep gracePeriod => [.sweep session.now gracePeriod (poolHandles session)]
  | _ => []

def pendingAfter (session : PendingSession) (steps : List PendingStep) : PendingSession :=
  steps.foldl (fun session step => (session.perform step).1) session

def poolEventsOf : PendingSession → List PendingStep → List PoolEvent
  | _, [] => []
  | session, step :: rest =>
    poolEvents session step ++ poolEventsOf (session.perform step).1 rest

section Pending

lemma pendingIsHeld_eq (session : PendingSession) :
    session.isHeld = heldBy (poolHandles session) := by
  funext serial
  rw [Bool.eq_iff_iff, heldBy, decide_eq_true_iff]
  simp [PendingSession.isHeld, poolHandles, List.countP_pos_iff]

lemma pool_perform (session : PendingSession) (step : PendingStep) :
    (session.perform step).1.pool = poolFrom session.pool (poolEvents session step) := by
  cases step with
  | add name =>
    simp only [PendingSession.perform, poolEvents]
    cases session.held.get? name <;> rfl
  | sweep gracePeriod =>
    simp only [PendingSession.perform, poolEvents, poolFrom, pendingIsHeld_eq]
  | create | addNew | release | sleep => rfl

lemma pool_pendingAfter (session : PendingSession) (steps : List PendingStep) :
    (pendingAfter session steps).pool = poolFrom session.pool (poolEventsOf session steps) := by
  induction steps generalizing session with
  | nil => rfl
  | cons step rest ih =>
    rw [poolEventsOf, poolFrom_append, ← pool_perform]
    exact ih _

end Pending

def storeHandles (session : StoreSession) (serial : Nat) : Nat :=
  session.held.values.countP fun held => held.serial = serial

def storeEvents (session : StoreSession) : StoreStep → List PoolEvent
  | .mark name =>
    match session.record? name with
    | some record =>
      if filed? session.store record.key = some record then [.add session.now record] else []
    | none => []
  | .sweep gracePeriod => [.sweep session.now gracePeriod (storeHandles session)]
  | _ => []

/-- What the steps of a session do to the pool of the store. -/
def storeEventsOf : StoreSession → List StoreStep → List PoolEvent
  | _, [] => []
  | session, step :: rest =>
    storeEvents session step ++ storeEventsOf (session.perform step).1 rest

/-- A step is a sweep that finds a record without a handle, and its grace period over. -/
def Frees (serial since : Nat) (session : StoreSession) (step : StoreStep) : Prop :=
  ∃ gracePeriod, step = .sweep gracePeriod ∧ storeHandles session serial = 0 ∧
    gracePeriod ≤ session.now - since

section Stored

variable {session : StoreSession} {step : StoreStep} {queue : List Waiting}

lemma storeIsHeld_eq (session : StoreSession) :
    session.isHeld = heldBy (storeHandles session) := by
  funext serial
  rw [Bool.eq_iff_iff, heldBy, decide_eq_true_iff]
  simp [StoreSession.isHeld, storeHandles, List.countP_pos_iff]

/-- Only marking a record and sweeping change what waits, or since when. -/
lemma StoreMove.represents {later : Store} (h : StoreMove session step later)
    (hmark : ∀ name, step ≠ .mark name) (hsweep : ∀ gracePeriod, step ≠ .sweep gracePeriod)
    (hr : Represents session.store.pending queue) : Represents later.pending queue := by
  cases h with
  | kept | counted => exact hr
  | opened absent serial unmarked refiled next => exact refiled.pending ▸ hr
  | changed name there same refiled next => exact refiled.pending ▸ hr
  | @changedPending name operation entry record there same =>
    intro serial
    rw [← hr serial, entries_modify]
    split
    · rw [Option.map_map]
      rfl
    · rfl
  | @removed name => exact absurd rfl (hmark name)
  | freed gracePeriod => exact absurd rfl (hsweep gracePeriod)

lemma represents_perform (hs : IsSound session) (step : StoreStep)
    (hr : Represents session.store.pending queue) :
    Represents (session.perform step).1.store.pending
      (queueFrom queue (storeEvents session step)) := by
  cases step with
  | mark name =>
    simp only [storeEvents]
    cases hnamed : session.record? name with
    | none =>
      simp only [StoreSession.perform, hnamed]
      exact hr
    | some record =>
      dsimp only
      split
      · rename_i hthere
        have hadded := hr.add session.now record.markBeingDeleted
        rw [serial_markBeingDeleted] at hadded
        rw [(mark_removes hnamed hthere).pending]
        exact hadded
      · rename_i hstale
        rw [mark_eq_self hs hnamed hstale]
        exact hr
  | sweep gracePeriod =>
    have hswept := hr.sweep session.now gracePeriod (storeHandles session)
    rw [← storeIsHeld_eq] at hswept
    exact hswept
  | peer | existingPeer | connection | connectionOrInsert | foreign | release | same | snapshot
  | sleep | operate => exact (perform_move hs _).represents (by simp) (by simp) hr

lemma represents_sessionAfter (hs : IsSound session) (steps : List StoreStep)
    (hr : Represents session.store.pending queue) :
    Represents (sessionAfter session steps).store.pending
      (queueFrom queue (storeEventsOf session steps)) := by
  induction steps generalizing session queue with
  | nil => exact hr
  | cons step rest ih =>
    rw [storeEventsOf, queueFrom_append]
    exact ih (hs.perform step) (represents_perform hs step hr)

lemma canFree_iff_frees (hs : IsSound session) {serial : Nat} {entry : PendingEntry}
    (hentry : session.store.pending.entries[serial]? = some entry) (gracePeriod : Nat) :
    entry.canFree session.now gracePeriod (session.isHeld serial) = true ↔
      Frees serial entry.since session (.sweep gracePeriod) := by
  have honce := hs.store.once serial entry hentry
  simp [PendingEntry.canFree, storeIsHeld_eq, heldBy, honce, Frees]

lemma StoreMove.waits (hs : IsSound session) {later : Store} (h : StoreMove session step later)
    {serial : Nat} {entry : PendingEntry}
    (hentry : session.store.pending.entries[serial]? = some entry)
    (hkept : ¬ Frees serial entry.since session step) :
    ∃ next, later.pending.entries[serial]? = some next ∧ next.since = entry.since := by
  cases h with
  | kept | counted => exact ⟨entry, hentry, rfl⟩
  | opened absent own unmarked refiled next =>
    exact ⟨entry, by rw [refiled.pending, hentry], rfl⟩
  | changed name there same refiled next => exact ⟨entry, by rw [refiled.pending, hentry], rfl⟩
  | @changedPending name operation old record there same =>
    have hnext := entries_modify session.store.pending record.serial serial record
    rw [hentry] at hnext
    split at hnext
    · exact ⟨_, hnext, rfl⟩
    · exact ⟨entry, hnext, rfl⟩
  | @removed name record _ named there removes =>
    have hother : record.serial ≠ serial := by
      intro hsame
      refine hs.store.filedSerial?_of_pending hentry record.key ?_
      rw [filedSerial?_eq_some there, hsame]
    exact ⟨entry, by rw [removes.entries hs.store there, if_neg hother, hentry], rfl⟩
  | freed gracePeriod =>
    refine ⟨entry, ?_, rfl⟩
    have hstays : entry.canFree session.now gracePeriod (session.isHeld serial) = false := by
      rw [Bool.eq_false_iff, Ne, canFree_iff_frees hs hentry]
      exact hkept
    rw [entries_sweepDeleted, hentry, Option.filter_some, hstays]
    rfl

lemma absent_of_frees (hs : IsSound session) {serial : Nat} {entry : PendingEntry}
    (hentry : session.store.pending.entries[serial]? = some entry)
    (hfrees : Frees serial entry.since session step) :
    IsAbsent (session.perform step).1.store serial := by
  obtain ⟨gracePeriod, rfl, -⟩ := id hfrees
  refine ⟨(hs.store.serials.pooled serial entry hentry).1,
    hs.store.filedSerial?_of_pending hentry, ?_⟩
  have hfree := (canFree_iff_frees hs hentry gracePeriod).2 hfrees
  simp only [StoreSession.perform]
  rw [entries_sweepDeleted, hentry, Option.filter_some, hfree]
  rfl

lemma IsAbsent.run (hs : IsSound session) {serial : Nat} (ha : IsAbsent session.store serial)
    (steps : List StoreStep) : IsAbsent (sessionAfter session steps).store serial := by
  induction steps generalizing session with
  | nil => exact ha
  | cons step rest ih => exact ih (hs.perform step) (ha.move hs.store (perform_move hs step))

/-- A record waits until a sweep finds it without a handle and its grace period over, and is gone
from then on. -/
lemma waits_until_freed (hs : IsSound session) {serial : Nat} {entry : PendingEntry}
    (hentry : session.store.pending.entries[serial]? = some entry) (steps : List StoreStep) :
    (Never (Frees serial entry.since) session steps →
        ∃ next, (sessionAfter session steps).store.pending.entries[serial]? = some next ∧
          next.since = entry.since) ∧
      (¬ Never (Frees serial entry.since) session steps →
        IsAbsent (sessionAfter session steps).store serial) := by
  induction steps generalizing session entry with
  | nil => exact ⟨fun _ => ⟨entry, hentry, rfl⟩, fun hnever => absurd trivial hnever⟩
  | cons step rest ih =>
    have hnext := hs.perform step
    by_cases hfrees : Frees serial entry.since session step
    · refine ⟨fun hnever => absurd hfrees hnever.1, fun _ => ?_⟩
      exact (absent_of_frees hs hentry hfrees).run hnext rest
    · obtain ⟨next, hwaits, hsince⟩ := (perform_move hs step).waits hs hentry hfrees
      obtain ⟨hstays, hgone⟩ := ih hnext hwaits
      rw [hsince] at hstays hgone
      refine ⟨fun hnever => hstays hnever.2, fun hfreed => hgone fun hnever => ?_⟩
      exact hfreed ⟨hfrees, hnever⟩

end Stored

/-- A session's pool is swept exactly, and the session tells how many entries a sweep removes. -/
structure PoolIsExact (session : PendingSession) (queue : List Waiting) : Prop where
  pool : SweepsExactly session.pool queue
  answer : ∀ gracePeriod, (session.perform (.sweep gracePeriod)).2 =
    .count (queue.countP fun entry =>
      IsFree queue session.now gracePeriod (poolHandles session) entry)

/-- A session's store is swept exactly, and a record that is removed from it is freed by the first
sweep that may do so. -/
structure StoreIsExact (session : StoreSession) (queue : List Waiting) : Prop where
  pool : SweepsExactly session.store.pending queue
  answer : ∀ gracePeriod, (session.perform (.sweep gracePeriod)).2.1 =
    .count (queue.countP fun entry =>
      IsFree queue session.now gracePeriod (storeHandles session) entry)
  /-- The maps of the store refer to no record in the pool. -/
  unfiled : ∀ entry ∈ queue, ∀ key, filedSerial? session.store key ≠ some entry.serial
  removed : ∀ name record, session.record? name = some record →
    filed? session.store record.key = some record → ∀ steps : List StoreStep,
    (Never (Frees record.serial session.now) (session.perform (.mark name)).1 steps →
        ∃ entry, (sessionAfter (session.perform (.mark name)).1 steps).store.pending.entries[
            record.serial]? = some entry ∧ entry.since = session.now) ∧
      (¬ Never (Frees record.serial session.now) (session.perform (.mark name)).1 steps →
        IsAbsent (sessionAfter (session.perform (.mark name)).1 steps).store record.serial)

lemma poolIsExact {session : PendingSession} {queue : List Waiting}
    (h : Represents session.pool queue) : PoolIsExact session queue where
  pool := sweepsExactly_of_represents h
  answer gracePeriod := by
    rw [← h.freed session.now gracePeriod (poolHandles session), ← pendingIsHeld_eq]
    rfl

lemma storeIsExact {session : StoreSession} {queue : List Waiting} (hs : IsSound session)
    (h : Represents session.store.pending queue) : StoreIsExact session queue where
  pool := sweepsExactly_of_represents h
  answer gracePeriod := by
    rw [← h.freed session.now gracePeriod (storeHandles session), ← storeIsHeld_eq]
    rfl
  unfiled entry hentry := by
    obtain ⟨found, hfound⟩ := h.exists_entry hentry
    exact hs.store.filedSerial?_of_pending hfound
  removed name record hnamed hthere steps := by
    have hentry := (mark_removes hnamed hthere).entries hs.store hthere record.serial
    rw [if_pos rfl] at hentry
    exact waits_until_freed (hs.perform (.mark name)) hentry steps

/-- Whatever records are added to a pool, however often, and whatever handles there are to them, a
sweep removes exactly the entries that are the only reference to their record and have waited for
the grace period, tells how many these are, and leaves the others as they are and in their order. So
it is for a pool on its own and for the pool of a store, where a record that was removed waits for
the first sweep that finds no handle to it and its grace period over. -/
theorem deferred_deletion_exact :
    (∀ events : List PoolEvent,
      SweepsExactly (poolFrom .empty events) (queueFrom [] events)) ∧
    (∀ steps : List PendingStep,
      PoolIsExact (pendingAfter {} steps) (queueFrom [] (poolEventsOf {} steps))) ∧
    ∀ (config : Config) (steps : List StoreStep),
      StoreIsExact (sessionAfter (storeSession config) steps)
        (queueFrom [] (storeEventsOf (storeSession config) steps)) := by
  refine ⟨?_, ?_, ?_⟩
  · intro events
    exact sweepsExactly_of_represents (represents_empty.run events)
  · intro steps
    have hrun := represents_empty.run (poolEventsOf {} steps)
    exact poolIsExact (pool_pendingAfter {} steps ▸ hrun)
  · intro config steps
    have hs := isSound_storeSession config
    exact storeIsExact (hs.run steps) (represents_sessionAfter hs steps represents_empty)

/-- A record that is held across a sweep is not freed by it, and is freed by the next one after its
name is released. -/
theorem deferred_deletion_exact_held :
    let key : ConnectionKey := ⟨.loopback 9002, 5, .sender⟩
    let config : Config := { selfAddress := .loopback 9001 }
    let steps : List StoreStep := [.connectionOrInsert key (some "held")]
    let marked := ((sessionAfter (storeSession config) steps).perform (.mark "held")).1
    let between : List StoreStep := [.sleep 5000, .sweep 2000, .release "held"]
    (sessionAfter marked between).store.pendingDeleteCount = 1 ∧
      IsAbsent (sessionAfter marked (between ++ [.sweep 2000])).store 0 := by
  intro key config steps marked between
  let record : Record := .connection ((storeSession config).store.newConnection 0 key)
  have hnamed : (sessionAfter (storeSession config) steps).record? "held" = some record := by
    decide +kernel
  have hthere : filed? (sessionAfter (storeSession config) steps).store record.key =
      some record := by
    decide +kernel
  have hfrees : Frees 0 0 (sessionAfter marked between) (.sweep 2000) :=
    ⟨2000, rfl, by decide +kernel, by decide +kernel⟩
  have hremoved := (deferred_deletion_exact.2.2 config steps).removed "held" record hnamed hthere
    (between ++ [.sweep 2000])
  refine ⟨by decide +kernel, hremoved.2 ?_⟩
  intro hnever
  exact hnever.2.2.2.1 hfrees

/-- A record that was added twice outlives all handles to it. -/
example :
    let record : Record := RecordSpec.create { key := .peer (.loopback 9002) } 0 0
    (((PendingPool.empty.add 0 record).add 10 record).sweep 9000 2000 fun _ => false).2 = 0 := by
  decide +kernel

end ReliableDatagrams.Proofs
