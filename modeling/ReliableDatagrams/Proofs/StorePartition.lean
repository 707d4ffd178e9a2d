import ReliableDatagrams.Proofs.StoreSessions

/-!
# Where the records of a store are

Every record of a store is either filed under its own key or waits in the pool, where it is marked
and has one entry. A handle that is not of the record filed under its key deletes nothing, so that a
record made under a key that was used before is safe from handles to earlier ones
(`store_partitioned`).
-/

namespace ReliableDatagrams.Proofs

def LeavesMarks (steps : List StoreStep) : Prop :=
  ∀ name, StoreStep.operate name .markBeingDeleted ∉ steps

/-- Filed records are not marked as being deleted, the ones in the pool are. -/
structure IsFlagged (store : Store) : Prop where
  filed : ∀ key record, filed? store key = some record → record.isBeingDeleted = false
  pending : ∀ (serial : Nat) entry, store.pending.entries[serial]? = some entry →
    entry.record.isBeingDeleted = true

/-- A step moves the record that is filed under a key to the pool. -/
def Deletes (key : RecordKey) (session : StoreSession) (step : StoreStep) : Prop :=
  ∃ name record, step = .mark name ∧ session.record? name = some record ∧
    filed? session.store key = some record

/-- Every record is in one place, and a deletion concerns no record but the one it is meant for. -/
structure IsPartition (session : StoreSession) : Prop where
  filed : ∀ key record, filed? session.store key = some record →
    record.key = key ∧ record.isBeingDeleted = false ∧
      session.store.pending.entries[record.serial]? = none
  pending : ∀ (serial : Nat) entry, session.store.pending.entries[serial]? = some entry →
    entry.record.serial = serial ∧ entry.record.isBeingDeleted = true ∧ entry.count = 1 ∧
      ∀ key, filedSerial? session.store key ≠ some serial
  held : ∀ name held, session.held.get? name = some held →
    ∃ record, session.record? name = some record ∧ record.serial = held.serial
  current : ∀ name record, session.record? name = some record →
    filed? session.store record.key = some record →
    Removes session.store session.now record (session.perform (.mark name)).1.store
  stale : ∀ name record, session.record? name = some record →
    filed? session.store record.key ≠ some record → (session.perform (.mark name)).1 = session
  foreign : ∀ name record, session.held.get? name = some (.own record) →
    (session.perform (.mark name)).1 = session
  /-- What is asked for twice is the same record, if it was not deleted meanwhile. -/
  fetched : ∀ key record (first second : StoreStep) (between : List StoreStep),
    fetchedKey? first = some key → fetchedKey? second = some key →
    (session.perform first).2.2 = some record → LeavesMarks between →
    Never (Deletes key) (session.perform first).1 between →
    ∃ again, ((sessionAfter (session.perform first).1 between).perform second).2.2 = some again ∧
      again.handle = record.handle

section Partition

variable {session : StoreSession} {step : StoreStep} {later : Store}

lemma IsFlagged.move (hc : IsConsistent session.store) (hf : IsFlagged session.store)
    (h : StoreMove session step later) (hstep : ∀ name, step ≠ .operate name .markBeingDeleted) :
    IsFlagged later := by
  cases h with
  | kept | counted => exact ⟨hf.filed, hf.pending⟩
  | @opened _ record _ absent serial unmarked refiled next =>
    refine ⟨?_, by rw [refiled.pending]; exact hf.pending⟩
    intro key found hfound
    rcases refiled.eq_or_earlier hfound with ⟨-, rfl⟩ | hearlier
    · exact unmarked
    · exact hf.filed key found hearlier
  | @changed name operation old record _ there same refiled next =>
    refine ⟨?_, by rw [refiled.pending]; exact hf.pending⟩
    intro key found hfound
    rcases refiled.eq_or_earlier hfound with ⟨-, rfl⟩ | hearlier
    · rcases same.marked with hmarked | ⟨rfl, -⟩
      · exact hmarked.trans (hf.filed _ _ there)
      · exact absurd rfl (hstep name)
    · exact hf.filed key found hearlier
  | @changedPending name operation old record there same =>
    refine ⟨hf.filed, ?_⟩
    intro serial entry hentry
    rw [entries_modify] at hentry
    split at hentry
    · rename_i hserial
      rw [← hserial, there] at hentry
      cases hentry
      rcases same.marked with hmarked | ⟨-, hmarked⟩
      · exact hmarked.trans (hf.pending _ _ there)
      · exact hmarked
    · exact hf.pending serial entry hentry
  | removed named there removes =>
    refine ⟨fun key found hfound => hf.filed key found (removes.earlier hfound), ?_⟩
    intro serial entry hentry
    rw [removes.entries hc there] at hentry
    split at hentry
    · cases hentry
      exact isBeingDeleted_markBeingDeleted _
    · exact hf.pending serial entry hentry
  | freed gracePeriod =>
    refine ⟨hf.filed, ?_⟩
    intro serial entry hentry
    rw [entries_sweepDeleted] at hentry
    exact hf.pending serial entry (Option.filter_eq_some_iff.1 hentry).1

lemma IsFlagged.run (hs : IsSound session) (hf : IsFlagged session.store)
    {steps : List StoreStep} (h : LeavesMarks steps) :
    IsFlagged (sessionAfter session steps).store := by
  induction steps generalizing session with
  | nil => exact hf
  | cons step rest ih =>
    refine ih (hs.perform step) (hf.move hs.store (perform_move hs step) ?_) ?_
    · intro name hsame
      exact h name (hsame ▸ List.mem_cons_self)
    · exact fun name hmem => h name (List.mem_cons_of_mem _ hmem)

/-- The record under a key is the same after a step that does not delete it. -/
lemma StoreMove.filedSerial?_kept (h : StoreMove session step later) {key : RecordKey}
    {serial : Nat} (hkept : ¬ Deletes key session step)
    (hfiled : filedSerial? session.store key = some serial) :
    filedSerial? later key = some serial := by
  cases h with
  | kept | counted | changedPending | freed => exact hfiled
  | @opened _ record _ absent own unmarked refiled next =>
    rw [refiled.filedSerial?, if_neg, hfiled]
    rintro rfl
    rw [filedSerial?_eq, absent] at hfiled
    cases hfiled
  | @changed name operation old record _ there same refiled next =>
    rw [refiled.filedSerial?_of_same there same.serial, hfiled]
  | @removed name record _ named there removes =>
    rw [removes.filedSerial?, if_neg, hfiled]
    rintro rfl
    exact hkept ⟨name, record, rfl, named, there⟩

lemma filedSerial?_kept (hs : IsSound session) {key : RecordKey} {serial : Nat}
    {steps : List StoreStep} (hkept : Never (Deletes key) session steps)
    (hfiled : filedSerial? session.store key = some serial) :
    filedSerial? (sessionAfter session steps).store key = some serial := by
  induction steps generalizing session with
  | nil => exact hfiled
  | cons step rest ih =>
    exact ih (hs.perform step) hkept.2
      ((perform_move hs step).filedSerial?_kept hkept.1 hfiled)

/-- A step that asks for a record that is filed and not marked gets it. -/
lemma fetched_of_filed {key : RecordKey} {record : Record} (hstep : fetchedKey? step = some key)
    (hfiled : filed? session.store key = some record)
    (hunmarked : record.isBeingDeleted = false) :
    (session.perform step).2.2 = some record := by
  cases step with
  | peer address name =>
    cases hstep
    obtain ⟨peer, hpeer, rfl⟩ := Option.map_eq_some_iff.1 hfiled
    simp [StoreSession.perform, Store.peer, hpeer]
  | existingPeer address name =>
    cases hstep
    obtain ⟨peer, hpeer, rfl⟩ := Option.map_eq_some_iff.1 hfiled
    have hfound : session.store.peer? address = some peer := by
      rw [Store.peer?, hpeer]
      simpa [Record.isBeingDeleted] using hunmarked
    simp [StoreSession.perform, hfound]
  | connection key name =>
    cases hstep
    obtain ⟨connection, hconnection, rfl⟩ := Option.map_eq_some_iff.1 hfiled
    have hfound : session.store.connection? key = some connection := by
      rw [Store.connection?, hconnection]
      simpa [Record.isBeingDeleted] using hunmarked
    simp [StoreSession.perform, hfound]
  | connectionOrInsert key name =>
    cases hstep
    obtain ⟨connection, hconnection, rfl⟩ := Option.map_eq_some_iff.1 hfiled
    simp [StoreSession.perform, Store.connectionOrInsert, hconnection]
  | foreign | release | same | mark | sweep | snapshot | sleep | operate => cases hstep

lemma isPartition (hs : IsSound session) (hf : IsFlagged session.store) :
    IsPartition session where
  filed key record hfiled :=
    ⟨hs.store.keys key record hfiled, hf.filed key record hfiled,
      hs.store.serials.apart key _ (filedSerial?_eq_some hfiled)⟩
  pending serial entry hentry :=
    ⟨(hs.store.serials.pooled serial entry hentry).2, hf.pending serial entry hentry,
      hs.store.once serial entry hentry, hs.store.filedSerial?_of_pending hentry⟩
  held name held hheld := hs.record? hheld
  current name record hnamed hthere := mark_removes hnamed hthere
  stale name record hnamed hstale := mark_eq_self hs hnamed hstale
  foreign name record hown := by
    have hnamed : session.record? name = some record := by rw [StoreSession.record?, hown]
    refine mark_eq_self hs hnamed fun hfiled => ?_
    exact hs.own_unfiled hown record.key (filedSerial?_eq_some hfiled)
  fetched key record first second between hfirst hsecond hgot hmarks hkept := by
    have hfiled := filed_of_fetched hfirst hgot
    have hlater : IsSound (session.perform first).1 := hs.perform first
    have hflagged : IsFlagged (session.perform first).1.store := by
      refine hf.move hs.store (perform_move hs first) ?_
      rintro name rfl
      cases hfirst
    have hserial := filedSerial?_kept hlater hkept (filedSerial?_eq_some hfiled)
    rw [filedSerial?_eq] at hserial
    obtain ⟨again, hagain, hsame⟩ := Option.map_eq_some_iff.1 hserial
    have hunmarked := (hflagged.run hlater hmarks).filed key again hagain
    refine ⟨again, fetched_of_filed hsecond hagain hunmarked, ?_⟩
    rw [Record.handle, Record.handle, hsame, (hlater.run between).store.keys key again hagain,
      hlater.store.keys key record hfiled]

end Partition

/-- After any steps, with handles kept or released, every record that is filed is under its own key,
unmarked and not in the pool, and every pending one is marked, in the pool once and filed nowhere. A
record that is not the one filed under its key is not deleted, and nothing is deleted in its place;
whoever asks for the same key again gets the same record until that one is deleted. -/
theorem store_partitioned (config : Config) (steps : List StoreStep) (hmarks : LeavesMarks steps) :
    IsPartition (sessionAfter (storeSession config) steps) := by
  have hs := isSound_storeSession config
  have hflagged : IsFlagged (storeSession config).store := by
    refine ⟨?_, ?_⟩
    · intro key record hrecord
      cases key <;> simp [storeSession, filed?] at hrecord
    · intro serial entry hentry
      simp [storeSession] at hentry
  exact isPartition (hs.run steps) (hflagged.run hs hmarks)

/-- A handshake's record is deleted and made again under the same key. Deleting the first one once
more, by the handle that is still held, and deleting a record that was never in the store leave the
second one where it is. -/
theorem store_partitioned_recreated :
    let config : Config := { selfAddress := .loopback 9001 }
    let key : ConnectionKey := ⟨.loopback 9002, 5, .receiver⟩
    let steps : List StoreStep := [.connectionOrInsert key (some "old"), .mark "old",
      .connectionOrInsert key (some "new"), .foreign { key := .connection key } (some "other"),
      .mark "old", .mark "other", .sleep 5000, .sweep 2000]
    let session := sessionAfter (storeSession config) steps
    LeavesMarks steps ∧ IsPartition session ∧
      filedSerial? session.store (.connection key) = some 1 ∧
      session.store.pendingDeleteCount = 1 := by
  intro config key steps session
  have hmarks : LeavesMarks steps := by
    intro name
    simp [steps]
  exact ⟨hmarks, store_partitioned config steps hmarks, by decide +kernel, by decide +kernel⟩

end ReliableDatagrams.Proofs
