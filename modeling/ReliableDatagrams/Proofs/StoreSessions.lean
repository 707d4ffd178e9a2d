import ReliableDatagrams.Proofs.SimulationChanges
import ReliableDatagrams.Proofs.StoreEdits
import ReliableDatagrams.Store.Session

/-!
# Sessions with a store

What the steps of a session do to its store, one kind of change for each kind of step (`StoreMove`),
and what is true of the store and of everything that the session holds after any steps at all
(`IsSound`): records are filed under their own keys, each has a serial number of its own and waits
in the pool at most once, and no record that is held gets lost.
-/

namespace ReliableDatagrams.Proofs

def storeSession (config : Config) : StoreSession :=
  { store := { config } }

def sessionAfter (session : StoreSession) (steps : List StoreStep) : StoreSession :=
  steps.foldl (fun session step => (session.perform step).1) session

/-- No step of a run is of a certain kind, where it is taken. -/
def Never (kind : StoreSession → StoreStep → Prop) : StoreSession → List StoreStep → Prop
  | _, [] => True
  | session, step :: rest => ¬ kind session step ∧ Never kind (session.perform step).1 rest

/-- The same record after an operation on it. -/
structure SameRecord (operation : RecordOperation) (old record : Record) : Prop where
  key : record.key = old.key
  serial : record.serial = old.serial
  marked : record.isBeingDeleted = old.isBeingDeleted ∨
    operation = .markBeingDeleted ∧ record.isBeingDeleted = true

section Operations

variable {store : Store}

lemma find?_eq (store : Store) (handle : Handle) : store.find? handle =
    if filedSerial? store handle.key = some handle.serial then filed? store handle.key
    else store.pending.find? handle.serial := by
  unfold Store.find?
  cases handle.key with
  | peer address =>
    cases hpeer : store.peers[address]? with
    | none => simp [filedSerial?, hpeer]
    | some peer =>
      by_cases hserial : peer.serial = handle.serial <;>
        simp [filedSerial?, filed?, hpeer, Record.serial, hserial]
  | connection key =>
    cases hconnection : store.connections[key]? with
    | none => simp [filedSerial?, hconnection]
    | some connection =>
      by_cases hserial : connection.serial = handle.serial <;>
        simp [filedSerial?, filed?, hconnection, Record.serial, hserial]

lemma replace_refiles {record : Record}
    (h : filedSerial? store record.key = some record.serial) :
    Refiles store record (store.replace record) ∧
      (store.replace record).nextSerial = store.nextSerial := by
  cases record with
  | peer peer =>
    have hput : store.replace (.peer peer) = store.putPeer peer := if_pos h
    rw [hput]
    exact ⟨refiles_putPeer store peer, rfl⟩
  | connection connection =>
    have hput : store.replace (.connection connection) = store.putConnection connection :=
      if_pos h
    rw [hput]
    exact ⟨refiles_putConnection store connection, rfl⟩

lemma replace_pending {record : Record}
    (h : filedSerial? store record.key ≠ some record.serial) :
    store.replace record =
      { store with pending := store.pending.modify record.serial fun _ => record } := by
  cases record with
  | peer peer => exact if_neg h
  | connection connection => exact if_neg h

lemma entries_modify (pool : PendingPool) (serial other : Nat) (record : Record) :
    (pool.modify serial fun _ => record).entries[other]? =
      if serial = other then
        (pool.entries[other]?).map fun entry => { entry with record }
      else pool.entries[other]? := by
  unfold PendingPool.modify
  rw [Std.ExtTreeMap.getElem?_modify]
  by_cases h : serial = other
  · subst h
    simp
  · simp [h]

lemma drawTimestamps_same (count : Nat) (last : Option UInt16) (peer : PeerRecord) :
    (peer.drawTimestamps count last).1.address = peer.address ∧
      (peer.drawTimestamps count last).1.serial = peer.serial ∧
      (peer.drawTimestamps count last).1.isBeingDeleted = peer.isBeingDeleted := by
  induction count generalizing last peer with
  | zero => exact ⟨rfl, rfl, rfl⟩
  | succ count ih => exact ih _ _

/-- An operation leaves a record the one it is, and only the one that is for it marks it. -/
lemma sameRecord_perform (now : Nat) (record : Record) (operation : RecordOperation) :
    SameRecord operation record (record.perform now operation).1 := by
  cases record with
  | peer peer =>
    cases operation with
    | markBeingDeleted => exact ⟨rfl, rfl, Or.inr ⟨rfl, rfl⟩⟩
    | accept timestamp =>
      simp only [Record.perform, PeerRecord.accept]
      split <;> exact ⟨rfl, rfl, Or.inl rfl⟩
    | drawTimestamps count =>
      obtain ⟨haddress, hserial, hmarked⟩ := drawTimestamps_same count none peer
      exact ⟨congrArg RecordKey.peer haddress, hserial, Or.inl hmarked⟩
    | inspect | describe | touch | resetOrExpire | resetTimestamps | setStatus | setLastSent
    | registerFailure => exact ⟨rfl, rfl, Or.inl rfl⟩
  | connection connection =>
    cases operation with
    | markBeingDeleted => exact ⟨rfl, rfl, Or.inr ⟨rfl, rfl⟩⟩
    | resetOrExpire =>
      have hupdates := updates_resetOrExpire connection now
      refine ⟨congrArg RecordKey.connection hupdates.key, hupdates.serial, Or.inl ?_⟩
      simp only [Record.perform, Record.resetOrExpire, Record.isBeingDeleted]
      unfold ConnectionRecord.resetOrExpire
      split
      · dsimp only
        split <;> rfl
      · rfl
    | setStatus rank =>
      simp only [Record.perform]
      split <;> exact ⟨rfl, rfl, Or.inl rfl⟩
    | inspect | describe | touch | accept | resetTimestamps | drawTimestamps | setLastSent
    | registerFailure => exact ⟨rfl, rfl, Or.inl rfl⟩

end Operations

/-- Records are filed under their own keys, each has a serial number of its own, and none waits in
the pool twice. -/
structure IsConsistent (store : Store) : Prop where
  keys : ∀ key record, filed? store key = some record → record.key = key
  serials : OwnSerials store
  once : ∀ (serial : Nat) entry, store.pending.entries[serial]? = some entry → entry.count = 1

lemma IsConsistent.entries_nextSerial {store : Store} (hc : IsConsistent store) :
    store.pending.entries[store.nextSerial]? = none := by
  cases hentry : store.pending.entries[store.nextSerial]? with
  | none => rfl
  | some entry => exact absurd (hc.serials.pooled _ entry hentry).1 (Nat.lt_irrefl _)

/-- A record of a store, filed or waiting in the pool. -/
inductive IsIn (store : Store) (record : Record) : Prop where
  | filed (there : filed? store record.key = some record)
  | pending {entry : PendingEntry}
      (there : store.pending.entries[record.serial]? = some entry) (own : entry.record = record)

section Consistent

variable {store later : Store}

/-- What a handle refers to is in the store, and has the serial number of the handle. -/
lemma IsConsistent.isIn (hc : IsConsistent store) {handle : Handle} {record : Record}
    (h : store.find? handle = some record) : IsIn store record ∧ record.serial = handle.serial := by
  rw [find?_eq] at h
  split at h
  · rename_i hserial
    have hkey := hc.keys _ _ h
    rw [filedSerial?_eq_some h] at hserial
    exact ⟨.filed (hkey ▸ h), Option.some.inj hserial⟩
  · obtain ⟨entry, hentry, rfl⟩ := Option.map_eq_some_iff.1 h
    have hserial := (hc.serials.pooled _ _ hentry).2
    exact ⟨.pending (hserial.symm ▸ hentry) rfl, hserial⟩

lemma IsConsistent.filedSerial?_of_pending (hc : IsConsistent store) {serial : Nat}
    {entry : PendingEntry} (h : store.pending.entries[serial]? = some entry) (key : RecordKey) :
    filedSerial? store key ≠ some serial := by
  intro hfiled
  rw [hc.serials.apart key serial hfiled] at h
  cases h

lemma IsConsistent.find?_of_isIn (hc : IsConsistent store) {record : Record}
    (h : IsIn store record) : store.find? record.handle = some record := by
  have hfind : store.find? record.handle =
      if filedSerial? store record.key = some record.serial then filed? store record.key
      else store.pending.find? record.serial := find?_eq store record.handle
  rw [hfind]
  cases h with
  | filed there =>
    rw [if_pos (filedSerial?_eq_some there), there]
  | pending there own =>
    rw [if_neg (hc.filedSerial?_of_pending there _), PendingPool.find?, there, Option.map_some,
      own]

/-- What a step of a session does to its store. -/
inductive StoreMove (session : StoreSession) : StoreStep → Store → Prop where
  | kept (step : StoreStep) : StoreMove session step session.store
  | opened {step : StoreStep} {record : Record} {later : Store}
      (absent : filed? session.store record.key = none)
      (serial : record.serial = session.store.nextSerial)
      (unmarked : record.isBeingDeleted = false)
      (refiled : Refiles session.store record later)
      (next : later.nextSerial = session.store.nextSerial + 1) : StoreMove session step later
  /-- A record that stays outside the store takes a serial number. -/
  | counted (step : StoreStep) :
      StoreMove session step { session.store with nextSerial := session.store.nextSerial + 1 }
  | changed (name : String) {operation : RecordOperation} {old record : Record} {later : Store}
      (there : filed? session.store record.key = some old)
      (same : SameRecord operation old record) (refiled : Refiles session.store record later)
      (next : later.nextSerial = session.store.nextSerial) :
      StoreMove session (.operate name operation) later
  | changedPending (name : String) {operation : RecordOperation} {entry : PendingEntry}
      {record : Record}
      (there : session.store.pending.entries[record.serial]? = some entry)
      (same : SameRecord operation entry.record record) :
      StoreMove session (.operate name operation) { session.store with
        pending := session.store.pending.modify record.serial fun _ => record }
  | removed {name : String} {record : Record} {later : Store}
      (named : session.record? name = some record)
      (there : filed? session.store record.key = some record)
      (removes : Removes session.store session.now record later) :
      StoreMove session (.mark name) later
  | freed (gracePeriod : Nat) :
      StoreMove session (.sweep gracePeriod)
        (session.store.sweepDeleted session.now gracePeriod session.isHeld).1

section Moves

variable {session : StoreSession} {step : StoreStep} {later : Store}

lemma IsConsistent.counted {store : Store} (hc : IsConsistent store) :
    IsConsistent { store with nextSerial := store.nextSerial + 1 } where
  keys := hc.keys
  serials :=
    { used := fun key serial hkey => Nat.lt_succ_of_lt (hc.serials.used key serial hkey)
      apart := hc.serials.apart
      distinct := hc.serials.distinct
      pooled := fun serial entry hentry =>
        ⟨Nat.lt_succ_of_lt (hc.serials.pooled serial entry hentry).1,
          (hc.serials.pooled serial entry hentry).2⟩ }
  once := hc.once

lemma IsConsistent.changedPending {store : Store} (hc : IsConsistent store) (record : Record) :
    IsConsistent { store with
      pending := store.pending.modify record.serial fun _ => record } := by
  have hentries : ∀ (serial : Nat) entry,
      (store.pending.modify record.serial fun _ => record).entries[serial]? = some entry →
        ∃ old, store.pending.entries[serial]? = some old ∧ entry.count = old.count ∧
          (entry.record = old.record ∨ record.serial = serial ∧ entry.record = record) := by
    intro serial entry hentry
    rw [entries_modify] at hentry
    split at hentry
    · rename_i hserial
      obtain ⟨old, hold, rfl⟩ := Option.map_eq_some_iff.1 hentry
      exact ⟨old, hold, rfl, Or.inr ⟨hserial, rfl⟩⟩
    · exact ⟨entry, hentry, rfl, Or.inl rfl⟩
  refine ⟨hc.keys, ⟨hc.serials.used, ?_, hc.serials.distinct, ?_⟩, ?_⟩
  · intro key serial hkey
    have hnone := hc.serials.apart key serial hkey
    change (store.pending.modify record.serial fun _ => record).entries[serial]? = none
    rw [entries_modify, hnone]
    split <;> rfl
  · intro serial entry hentry
    obtain ⟨old, hold, -, hrecord⟩ := hentries serial entry hentry
    obtain ⟨hused, hown⟩ := hc.serials.pooled serial old hold
    rcases hrecord with hrecord | ⟨hserial, hrecord⟩
    · exact ⟨hused, hrecord ▸ hown⟩
    · exact ⟨hused, hrecord ▸ hserial⟩
  · intro serial entry hentry
    obtain ⟨old, hold, hcount, -⟩ := hentries serial entry hentry
    exact hcount.trans (hc.once serial old hold)

lemma IsConsistent.refiled {store : Store} (hc : IsConsistent store) {record : Record}
    (h : Refiles store record later) (hserials : OwnSerials later) : IsConsistent later where
  keys key found hfound := by
    rcases h.eq_or_earlier hfound with ⟨hkey, rfl⟩ | hearlier
    · exact hkey
    · exact hc.keys key found hearlier
  serials := hserials
  once serial entry hentry := hc.once serial entry (h.pending ▸ hentry)

lemma Removes.entries {store : Store} (hc : IsConsistent store) {now : Nat} {record : Record}
    (hthere : filed? store record.key = some record) (h : Removes store now record later)
    (serial : Nat) : later.pending.entries[serial]? =
      if record.serial = serial then some ⟨record.markBeingDeleted, now, 1⟩
      else store.pending.entries[serial]? := by
  rw [h.pending, entries_add_of_filed hc.serials hthere]

lemma IsConsistent.removed {store : Store} (hc : IsConsistent store) {now : Nat} {record : Record}
    (hthere : filed? store record.key = some record) (h : Removes store now record later) :
    IsConsistent later := by
  have hserial : filedSerial? store record.key = some record.markBeingDeleted.serial := by
    rw [filedSerial?_eq_some hthere, serial_markBeingDeleted]
  refine ⟨?_, hc.serials.removed record.key hserial h.filedSerial? h.nextSerial h.pending, ?_⟩
  · exact fun key found hfound => hc.keys key found (h.earlier hfound)
  · intro serial entry hentry
    rw [h.entries hc hthere] at hentry
    split at hentry
    · cases hentry
      rfl
    · exact hc.once serial entry hentry

lemma IsConsistent.move (hc : IsConsistent session.store) (h : StoreMove session step later) :
    IsConsistent later := by
  cases h with
  | kept => exact hc
  | counted => exact hc.counted
  | @opened _ record _ absent serial unmarked refiled next =>
    refine hc.refiled refiled (hc.serials.opened record.key ?_ next refiled.pending)
    exact fun key => serial ▸ refiled.filedSerial? key
  | @changed name operation old record _ there same refiled next =>
    exact hc.refiled refiled (hc.serials.changed
      (refiled.filedSerial?_of_same there same.serial) next refiled.pending)
  | changedPending name there same => exact hc.changedPending _
  | removed named there removes => exact hc.removed there removes
  | freed gracePeriod =>
    refine ⟨hc.keys, hc.serials.freed _ _ _, ?_⟩
    intro serial entry hentry
    rw [entries_sweepDeleted] at hentry
    exact hc.once serial entry (Option.filter_eq_some_iff.1 hentry).1

lemma StoreMove.isIn_of_filed (hc : IsConsistent session.store) (h : StoreMove session step later)
    {record : Record} (hthere : filed? session.store record.key = some record) :
    ∃ next, next.handle = record.handle ∧ IsIn later next := by
  cases h with
  | kept | counted | changedPending | freed => exact ⟨record, rfl, .filed hthere⟩
  | @opened _ new _ absent serial unmarked refiled next =>
    have hkey : new.key ≠ record.key := by
      intro hsame
      rw [hsame, hthere] at absent
      cases absent
    exact ⟨record, rfl, .filed (by rw [refiled.filed, if_neg hkey, hthere])⟩
  | @changed name operation old new _ there same refiled next =>
    by_cases hkey : new.key = record.key
    · rw [← hkey, there] at hthere
      cases hthere
      refine ⟨new, by rw [Record.handle, Record.handle, hkey, same.serial], .filed ?_⟩
      rw [refiled.filed, if_pos rfl]
    · exact ⟨record, rfl, .filed (by rw [refiled.filed, if_neg hkey, hthere])⟩
  | @removed name old _ named there removes =>
    by_cases hkey : old.key = record.key
    · rw [← hkey, there] at hthere
      cases hthere
      have hentry := removes.entries hc there record.serial
      rw [if_pos rfl, ← serial_markBeingDeleted] at hentry
      exact ⟨record.markBeingDeleted, by simp [Record.handle], .pending hentry rfl⟩
    · exact ⟨record, rfl, .filed (by rw [removes.filed, if_neg hkey, hthere])⟩

lemma StoreMove.isIn_of_pending (hc : IsConsistent session.store)
    (h : StoreMove session step later) {record : Record} {entry : PendingEntry}
    (hthere : session.store.pending.entries[record.serial]? = some entry)
    (hown : entry.record = record) (hheld : session.isHeld record.serial = true) :
    ∃ next, next.handle = record.handle ∧ IsIn later next := by
  cases h with
  | kept | counted => exact ⟨record, rfl, .pending hthere hown⟩
  | opened absent serial unmarked refiled next =>
    exact ⟨record, rfl, .pending (by rw [refiled.pending, hthere]) hown⟩
  | changed name there same refiled next =>
    exact ⟨record, rfl, .pending (by rw [refiled.pending, hthere]) hown⟩
  | @changedPending name operation old new there same =>
    have hentry := entries_modify session.store.pending new.serial record.serial new
    by_cases hserial : new.serial = record.serial
    · rw [if_pos hserial, hthere] at hentry
      rw [hserial, hthere] at there
      cases there
      refine ⟨new, ?_, .pending (hserial.symm ▸ hentry) rfl⟩
      rw [Record.handle, Record.handle, same.key, hown, hserial]
    · rw [if_neg hserial, hthere] at hentry
      exact ⟨record, rfl, .pending hentry hown⟩
  | @removed name old _ named there removes =>
    have hserial : old.serial ≠ record.serial := by
      intro hsame
      refine hc.filedSerial?_of_pending hthere old.key ?_
      rw [filedSerial?_eq_some there, hsame]
    refine ⟨record, rfl, .pending ?_ hown⟩
    rw [removes.entries hc there, if_neg hserial, hthere]
  | freed gracePeriod =>
    refine ⟨record, rfl, .pending ?_ hown⟩
    rw [entries_sweepDeleted, hthere, hheld]
    rfl

/-- A record that is held stays in the store, where its handle finds it. -/
lemma IsIn.move (hc : IsConsistent session.store) (h : StoreMove session step later)
    {record : Record} (hin : IsIn session.store record)
    (hheld : session.isHeld record.serial = true) :
    ∃ next, next.handle = record.handle ∧ IsIn later next := by
  cases hin with
  | filed there => exact h.isIn_of_filed hc there
  | pending there own => exact h.isIn_of_pending hc there own hheld

end Moves

end Consistent

/-- A serial number was given away, but not to a record that is in the store. -/
structure IsAbsent (store : Store) (serial : Nat) : Prop where
  used : serial < store.nextSerial
  unfiled : ∀ key, filedSerial? store key ≠ some serial
  unpooled : store.pending.entries[serial]? = none

/-- What a name stands for: a record in the store, or one that has nothing to do with it. -/
def IsKnown (store : Store) : Held → Prop
  | .stored handle => ∃ record : Record, record.handle = handle ∧ IsIn store record
  | .own record => IsAbsent store record.serial

/-- The store is in order, and everything that is held is known. -/
structure IsSound (session : StoreSession) : Prop where
  store : IsConsistent session.store
  held : ∀ name held, session.held.get? name = some held → IsKnown session.store held

section Held

variable {session : StoreSession}

lemma isHeld_of_get? {name : String} {held : Held} (h : session.held.get? name = some held) :
    session.isHeld held.serial = true := by
  have hmem : held ∈ session.held.values := List.mem_map_of_mem (Table.mem_of_lookup h)
  exact List.any_eq_true.2 ⟨held, hmem, decide_eq_true rfl⟩

lemma IsSound.record? (hs : IsSound session) {name : String} {held : Held}
    (h : session.held.get? name = some held) :
    ∃ record, session.record? name = some record ∧ record.serial = held.serial := by
  have hknown := hs.held name held h
  cases held with
  | own record => exact ⟨record, by rw [StoreSession.record?, h], rfl⟩
  | stored handle =>
    obtain ⟨record, rfl, hin⟩ := hknown
    refine ⟨record, ?_, rfl⟩
    rw [StoreSession.record?, h]
    exact hs.store.find?_of_isIn hin

/-- The record that a name stands for is the session's own, or it is in the store. -/
lemma IsSound.isIn_or_own (hs : IsSound session) {name : String} {record : Record}
    (h : session.record? name = some record) :
    session.held.get? name = some (.own record) ∨
      IsIn session.store record ∧ ∃ handle, session.held.get? name = some (.stored handle) := by
  unfold StoreSession.record? at h
  cases hheld : session.held.get? name with
  | none => simp [hheld] at h
  | some held =>
    rw [hheld] at h
    cases held with
    | own own =>
      cases h
      exact Or.inl rfl
    | stored handle => exact Or.inr ⟨(hs.store.isIn h).1, handle, rfl⟩

/-- A record that is the session's own is not the one filed under its key. -/
lemma IsSound.own_unfiled (hs : IsSound session) {name : String} {record : Record}
    (h : session.held.get? name = some (.own record)) (key : RecordKey) :
    filedSerial? session.store key ≠ some record.serial :=
  (hs.held name _ h).unfiled key

end Held

section Steps

variable {session : StoreSession}

@[simp] lemma store_hold (session : StoreSession) (name : Option String) (held : Held) :
    (session.hold name held).store = session.store := by
  cases name <;> rfl

lemma move_peer (session : StoreSession) (address : Address) (name : Option String) :
    StoreMove session (.peer address name) (session.store.peer session.now address).1 := by
  unfold Store.peer
  cases hpeer : session.store.peers[address]? with
  | some peer => exact .kept _
  | none =>
    have habsent : filed? session.store (.peer address) = none := by rw [filed?, hpeer]; rfl
    have hrefiles := refiles_putPeer session.store (session.store.newPeer session.now address)
    exact @StoreMove.opened session _ (.peer (session.store.newPeer session.now address)) _
      habsent rfl rfl ⟨hrefiles.filed, rfl⟩ rfl

lemma move_connectionOrInsert (session : StoreSession) (key : ConnectionKey)
    (name : Option String) : StoreMove session (.connectionOrInsert key name)
      (session.store.connectionOrInsert session.now key).1 := by
  unfold Store.connectionOrInsert
  cases hconnection : session.store.connections[key]? with
  | some connection => exact .kept _
  | none =>
    have habsent : filed? session.store (.connection key) = none := by
      rw [filed?, hconnection]; rfl
    have hrefiles := refiles_putConnection session.store
      (session.store.newConnection session.now key)
    exact @StoreMove.opened session _ (.connection (session.store.newConnection session.now key))
      _ habsent rfl rfl ⟨hrefiles.filed, rfl⟩ rfl

/-- A record that has the serial number filed under its key is the one that is filed there. -/
lemma IsSound.filed_of_current (hs : IsSound session) {name : String} {record : Record}
    (hnamed : session.record? name = some record)
    (hcurrent : filedSerial? session.store record.key = some record.serial) :
    filed? session.store record.key = some record := by
  rcases hs.isIn_or_own hnamed with hown | ⟨hin, -⟩
  · exact absurd hcurrent (hs.own_unfiled hown _)
  · cases hin with
    | filed there => exact there
    | pending there own => exact absurd hcurrent (hs.store.filedSerial?_of_pending there _)

lemma move_operate (hs : IsSound session) {name : String} {record : Record}
    (hnamed : session.record? name = some record) (operation : RecordOperation) :
    StoreMove session (.operate name operation)
      (session.writeBack name (record.perform session.now operation).1).store := by
  have hsame := sameRecord_perform session.now record operation
  generalize (record.perform session.now operation).1 = next at hsame
  unfold StoreSession.writeBack
  rcases hs.isIn_or_own hnamed with hown | ⟨hin, handle, hstored⟩
  · rw [hown]
    exact .kept _
  · rw [hstored]
    cases hin with
    | filed there =>
      rw [← hsame.key] at there
      have hserial : filedSerial? session.store next.key = some next.serial := by
        rw [filedSerial?_eq_some there, hsame.serial]
      obtain ⟨hrefiles, hnext⟩ := replace_refiles hserial
      exact .changed name there hsame hrefiles hnext
    | pending there own =>
      rw [← hsame.serial] at there
      have hserial := hs.store.filedSerial?_of_pending there next.key
      dsimp only
      rw [replace_pending hserial]
      exact .changedPending name there (own ▸ hsame)

lemma perform_move (hs : IsSound session) (step : StoreStep) :
    StoreMove session step (session.perform step).1.store := by
  cases step with
  | peer address name =>
    have hmove := move_peer session address name
    simpa [StoreSession.perform] using hmove
  | existingPeer address name =>
    simp only [StoreSession.perform]
    split
    · exact .kept _
    · rw [store_hold]
      exact .kept _
  | connection key name =>
    simp only [StoreSession.perform]
    split
    · exact .kept _
    · rw [store_hold]
      exact .kept _
  | connectionOrInsert key name =>
    have hmove := move_connectionOrInsert session key name
    simpa [StoreSession.perform] using hmove
  | foreign spec name =>
    simp only [StoreSession.perform, store_hold]
    exact .counted _
  | release name => exact .kept _
  | same a b =>
    simp only [StoreSession.perform]
    split <;> exact .kept _
  | mark name =>
    simp only [StoreSession.perform]
    split
    · exact .kept _
    · rename_i record hnamed
      dsimp only
      by_cases hcurrent : filedSerial? session.store record.key = some record.serial
      · have hthere := hs.filed_of_current hnamed hcurrent
        exact .removed hnamed hthere (removes_markForDeletion session.now hthere)
      · rw [markForDeletion_eq_self session.now hcurrent]
        exact .kept _
  | sweep gracePeriod => exact .freed gracePeriod
  | snapshot => exact .kept _
  | sleep duration => exact .kept _
  | operate name operation =>
    simp only [StoreSession.perform]
    split
    · exact .kept _
    · rename_i record hnamed
      exact move_operate hs hnamed operation

lemma IsAbsent.move (hc : IsConsistent session.store) {step : StoreStep} {later : Store}
    (h : StoreMove session step later) {serial : Nat} (ha : IsAbsent session.store serial) :
    IsAbsent later serial := by
  cases h with
  | kept => exact ha
  | counted => exact ⟨Nat.lt_succ_of_lt ha.used, ha.unfiled, ha.unpooled⟩
  | @opened _ record _ absent own unmarked refiled next =>
    refine ⟨next ▸ Nat.lt_succ_of_lt ha.used, ?_, by rw [refiled.pending, ha.unpooled]⟩
    intro key
    rw [refiled.filedSerial?]
    split
    · intro hsame
      rw [own] at hsame
      exact absurd (Option.some.inj hsame) (Nat.ne_of_gt ha.used)
    · exact ha.unfiled key
  | @changed name operation old record _ there same refiled next =>
    refine ⟨next ▸ ha.used, ?_, by rw [refiled.pending, ha.unpooled]⟩
    intro key
    rw [refiled.filedSerial?_of_same there same.serial]
    exact ha.unfiled key
  | changedPending name there same =>
    refine ⟨ha.used, ha.unfiled, ?_⟩
    rw [entries_modify, ha.unpooled]
    split <;> rfl
  | @removed name record _ named there removes =>
    refine ⟨removes.nextSerial ▸ ha.used, ?_, ?_⟩
    · intro key
      rw [removes.filedSerial?]
      split
      · exact (Option.some_ne_none _).symm
      · exact ha.unfiled key
    · have hother : record.serial ≠ serial := by
        intro hsame
        apply ha.unfiled record.key
        rw [filedSerial?_eq_some there, hsame]
      rw [removes.entries hc there, if_neg hother, ha.unpooled]
  | freed gracePeriod =>
    refine ⟨ha.used, ha.unfiled, ?_⟩
    rw [entries_sweepDeleted, ha.unpooled]
    rfl

lemma IsKnown.move (hc : IsConsistent session.store) {step : StoreStep} {later : Store}
    (h : StoreMove session step later) {held : Held} (hknown : IsKnown session.store held)
    (hheld : session.isHeld held.serial = true) : IsKnown later held := by
  cases held with
  | own own => exact IsAbsent.move hc h hknown
  | stored handle =>
    obtain ⟨record, rfl, hin⟩ := hknown
    exact hin.move hc h hheld

lemma IsSound.withStore (hs : IsSound session) {step : StoreStep} {later : Store}
    (h : StoreMove session step later) : IsSound { session with store := later } where
  store := hs.store.move h
  held name held hheld := (hs.held name held hheld).move hs.store h (isHeld_of_get? hheld)

lemma IsSound.hold (hs : IsSound session) (name : Option String) {held : Held}
    (hknown : IsKnown session.store held) : IsSound (session.hold name held) := by
  cases name with
  | none => exact hs
  | some name =>
    refine ⟨hs.store, ?_⟩
    intro other found hfound
    rw [StoreSession.hold, Table.get?_insert] at hfound
    split at hfound
    · cases hfound
      exact hknown
    · exact hs.held other found hfound

def fetchedKey? : StoreStep → Option RecordKey
  | .peer address _ | .existingPeer address _ => some (.peer address)
  | .connection key _ | .connectionOrInsert key _ => some (.connection key)
  | _ => none

lemma filed?_peer (store : Store) (now : Nat) (address : Address) :
    filed? (store.peer now address).1 (.peer address) =
      some (.peer (store.peer now address).2) := by
  unfold Store.peer
  cases hpeer : store.peers[address]? with
  | some peer => simp [filed?, hpeer]
  | none => simp [filed?, Store.putPeer, Store.newPeer]

lemma filed?_connectionOrInsert (store : Store) (now : Nat) (key : ConnectionKey) :
    filed? (store.connectionOrInsert now key).1 (.connection key) =
      some (.connection (store.connectionOrInsert now key).2.1) := by
  unfold Store.connectionOrInsert
  cases hconnection : store.connections[key]? with
  | some connection => simp [filed?, hconnection]
  | none => simp [filed?, Store.putConnection, Store.newConnection]

lemma filed?_of_peer? {store : Store} {address : Address} {peer : PeerRecord}
    (h : store.peer? address = some peer) : filed? store (.peer address) = some (.peer peer) := by
  rw [filed?, (Option.filter_eq_some_iff.1 h).1, Option.map_some]

lemma filed?_of_connection? {store : Store} {key : ConnectionKey} {connection : ConnectionRecord}
    (h : store.connection? key = some connection) :
    filed? store (.connection key) = some (.connection connection) := by
  rw [filed?, (Option.filter_eq_some_iff.1 h).1, Option.map_some]

/-- The record that a step gets is filed afterwards under the key that it asked for. -/
lemma filed_of_fetched {step : StoreStep} {key : RecordKey} {record : Record}
    (hstep : fetchedKey? step = some key) (hgot : (session.perform step).2.2 = some record) :
    filed? (session.perform step).1.store key = some record := by
  cases step with
  | peer address name =>
    cases hstep
    rw [← hgot]
    simpa [StoreSession.perform] using filed?_peer session.store session.now address
  | connectionOrInsert key name =>
    cases hstep
    rw [← hgot]
    simpa [StoreSession.perform] using filed?_connectionOrInsert session.store session.now key
  | existingPeer address name =>
    cases hstep
    simp only [StoreSession.perform] at hgot ⊢
    cases hpeer : session.store.peer? address with
    | none => simp [hpeer] at hgot
    | some peer =>
      rw [hpeer] at hgot
      cases hgot
      exact (congrArg (filed? · _) (store_hold _ _ _)).trans (filed?_of_peer? hpeer)
  | connection key name =>
    cases hstep
    simp only [StoreSession.perform] at hgot ⊢
    cases hconnection : session.store.connection? key with
    | none => simp [hconnection] at hgot
    | some connection =>
      rw [hconnection] at hgot
      cases hgot
      exact (congrArg (filed? · _) (store_hold _ _ _)).trans (filed?_of_connection? hconnection)
  | foreign | release | same | mark | sweep | snapshot | sleep | operate => cases hstep

lemma serial_create (spec : RecordSpec) (now serial : Nat) :
    (spec.create now serial).serial = serial := by
  unfold RecordSpec.create
  split <;> rfl

/-- The next serial number is given to a record outside the store. -/
lemma IsConsistent.absent_of_next {store : Store} (hc : IsConsistent store) {serial : Nat}
    (hserial : serial = store.nextSerial) :
    IsAbsent { store with nextSerial := store.nextSerial + 1 } serial := by
  subst hserial
  refine ⟨Nat.lt_succ_self _, ?_, hc.entries_nextSerial⟩
  exact fun key hkey => Nat.lt_irrefl _ (hc.serials.used key _ hkey)

lemma isKnown_of_filed {store : Store} (hc : IsConsistent store) {key : RecordKey}
    {record : Record} (h : filed? store key = some record) :
    IsKnown store (.stored record.handle) :=
  ⟨record, rfl, .filed (hc.keys key record h ▸ h)⟩

lemma IsSound.writeBack (hs : IsSound session) {name : String} {record : Record}
    (hnamed : session.record? name = some record) (operation : RecordOperation) :
    IsSound (session.writeBack name (record.perform session.now operation).1) := by
  have hlater := hs.withStore (move_operate hs hnamed operation)
  have hsame := sameRecord_perform session.now record operation
  generalize (record.perform session.now operation).1 = next at hsame hlater ⊢
  rcases hs.isIn_or_own hnamed with hown | ⟨-, handle, hstored⟩
  · have hknown : IsKnown session.store (.own next) := by
      have hold := hs.held name _ hown
      rwa [IsKnown, ← hsame.serial] at hold
    rw [StoreSession.writeBack, hown]
    exact hs.hold (some name) hknown
  · rw [StoreSession.writeBack, hstored] at hlater ⊢
    exact hlater

/-- Whatever a step does, the store stays in order and what is held stays known. -/
lemma IsSound.perform (hs : IsSound session) (step : StoreStep) :
    IsSound (session.perform step).1 := by
  have hmove := perform_move hs step
  cases step with
  | peer address name =>
    have hlater := hs.withStore (move_peer session address name)
    have hfiled := filed?_peer session.store session.now address
    exact hlater.hold name (isKnown_of_filed hlater.store hfiled)
  | connectionOrInsert key name =>
    have hlater := hs.withStore (move_connectionOrInsert session key name)
    have hfiled := filed?_connectionOrInsert session.store session.now key
    exact hlater.hold name (isKnown_of_filed hlater.store hfiled)
  | existingPeer address name =>
    simp only [StoreSession.perform]
    cases hpeer : session.store.peer? address with
    | none => exact hs
    | some peer => exact hs.hold name (isKnown_of_filed hs.store (filed?_of_peer? hpeer))
  | connection key name =>
    simp only [StoreSession.perform]
    cases hconnection : session.store.connection? key with
    | none => exact hs
    | some connection =>
      exact hs.hold name (isKnown_of_filed hs.store (filed?_of_connection? hconnection))
  | foreign spec name =>
    have hlater := hs.withStore (.counted (.foreign spec name))
    exact hlater.hold name (hs.store.absent_of_next (serial_create spec _ _))
  | release name =>
    refine ⟨hs.store, ?_⟩
    intro other held hheld
    rw [StoreSession.perform, Table.get?_erase] at hheld
    split at hheld
    · cases hheld
    · exact hs.held other held hheld
  | same a b =>
    simp only [StoreSession.perform]
    split <;> exact hs
  | mark name =>
    have hlater := hs.withStore hmove
    simp only [StoreSession.perform] at hlater ⊢
    split
    · exact hs
    · rename_i record hnamed
      simpa [hnamed] using hlater
  | sweep gracePeriod => exact hs.withStore hmove
  | snapshot => exact hs
  | sleep duration => exact ⟨hs.store, hs.held⟩
  | operate name operation =>
    simp only [StoreSession.perform]
    cases hnamed : session.record? name with
    | none => exact hs
    | some record => exact hs.writeBack hnamed operation

/-- Marking a record that is not the one filed under its key changes nothing. -/
lemma mark_eq_self (hs : IsSound session) {name : String} {record : Record}
    (hnamed : session.record? name = some record)
    (hstale : filed? session.store record.key ≠ some record) :
    (session.perform (.mark name)).1 = session := by
  have hserial : filedSerial? session.store record.handle.key ≠ some record.handle.serial :=
    fun hcurrent => hstale (hs.filed_of_current hnamed hcurrent)
  simp only [StoreSession.perform, hnamed]
  rw [markForDeletion_eq_self session.now hserial]

/-- Marking the record that is filed under its key moves it to the pool. -/
lemma mark_removes {name : String} {record : Record} (hnamed : session.record? name = some record)
    (hthere : filed? session.store record.key = some record) :
    Removes session.store session.now record (session.perform (.mark name)).1.store := by
  simp only [StoreSession.perform, hnamed]
  exact removes_markForDeletion session.now hthere

lemma isSound_storeSession (config : Config) : IsSound (storeSession config) := by
  have hnone : ∀ key, filed? (storeSession config).store key = none := by
    intro key
    cases key <;> simp [storeSession, filed?]
  have hserial : ∀ key, filedSerial? (storeSession config).store key = none := by
    intro key
    rw [filedSerial?_eq, hnone, Option.map_none]
  have hempty : ∀ serial : Nat, (storeSession config).store.pending.entries[serial]? = none := by
    simp [storeSession]
  refine ⟨⟨?_, ⟨?_, ?_, ?_, ?_⟩, ?_⟩, ?_⟩
  · intro key record hrecord
    simp [hnone] at hrecord
  · intro key serial hkey
    simp [hserial] at hkey
  · intro key serial hkey
    simp [hserial] at hkey
  · intro key other serial hkey
    simp [hserial] at hkey
  · intro serial entry hentry
    simp [hempty] at hentry
  · intro serial entry hentry
    simp [hempty] at hentry
  · intro name held hheld
    cases hheld

lemma IsSound.run (hs : IsSound session) (steps : List StoreStep) :
    IsSound (sessionAfter session steps) := by
  induction steps generalizing session with
  | nil => exact hs
  | cons step rest ih => exact ih (hs.perform step)

end Steps

end ReliableDatagrams.Proofs
