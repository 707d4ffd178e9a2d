import Mathlib.Logic.Relation
import ReliableDatagrams.Proofs.StoreChanges

/-!
# Edits of a store

Whatever an engine does to its store is a sequence of single edits: a record is opened, changed in
place, moved to the pool of pending deletions, or freed there. The serial number of a record tells
it from all others for its whole life, from the edit that opens it to the one that frees it. So one
can follow the status of a single record through everything that an engine does: `Edits.status`
shows what its opening and all changes preserve.
-/

namespace ReliableDatagrams.Proofs

/-- Which records of handshakes may be opened, and how the status of one may change. -/
structure RecordRule where
  opens : ConnectionKey → Prop
  changes : ConnectionKey → HandshakeStatus → HandshakeStatus → Prop

/-- One edit of a store by a rule. -/
inductive Edit (rule : RecordRule) (store : Store) : Store → Prop where
  | peerOpened (now : Nat) (address : Address) (absent : store.peers[address]? = none) :
      Edit rule store { store.putPeer (store.newPeer now address) with
        nextSerial := store.nextSerial + 1 }
  | peerChanged {old peer : PeerRecord} (there : store.peers[peer.address]? = some old)
      (serial : peer.serial = old.serial) (kept : peer.isBeingDeleted = old.isBeingDeleted) :
      Edit rule store (store.putPeer peer)
  | opened (now : Nat) {key : ConnectionKey} (absent : store.connections[key]? = none)
      (allowed : rule.opens key) :
      Edit rule store { store.putConnection (store.newConnection now key) with
        nextSerial := store.nextSerial + 1 }
  | changed {old connection : ConnectionRecord}
      (there : store.connections[connection.key]? = some old)
      (serial : connection.serial = old.serial)
      (kept : connection.isBeingDeleted = old.isBeingDeleted)
      (allowed : connection.status = old.status ∨
        rule.changes connection.key old.status connection.status) :
      Edit rule store (store.putConnection connection)
  | removed (now : Nat) (handle : Handle) : Edit rule store (store.markForDeletion now handle)
  | freed (now gracePeriod : Nat) (isHeld : Nat → Bool) :
      Edit rule store (store.sweepDeleted now gracePeriod isHeld).1

def Edits (rule : RecordRule) : Store → Store → Prop :=
  Relation.ReflTransGen (Edit rule)

def filed? (store : Store) : RecordKey → Option Record
  | .peer address => (store.peers[address]?).map .peer
  | .connection key => (store.connections[key]?).map .connection

/-- The serial number of the record that is filed under a key. -/
def filedSerial? (store : Store) : RecordKey → Option Nat
  | .peer address => (store.peers[address]?).map PeerRecord.serial
  | .connection key => (store.connections[key]?).map ConnectionRecord.serial

/-- Every record has a serial number of its own, whether it is filed or waits to be freed. -/
structure OwnSerials (store : Store) : Prop where
  used : ∀ key serial, filedSerial? store key = some serial → serial < store.nextSerial
  apart : ∀ key serial, filedSerial? store key = some serial → store.pending.entries[serial]? = none
  distinct : ∀ key other serial, filedSerial? store key = some serial →
    filedSerial? store other = some serial → key = other
  pooled : ∀ (serial : Nat) entry, store.pending.entries[serial]? = some entry →
    serial < store.nextSerial ∧ entry.record.serial = serial

/-- A store that can come about. -/
structure IsProper (store : Store) : Prop where
  filed : WellFiled store
  serials : OwnSerials store

section Serials

variable {store : Store}

lemma filedSerial?_eq (store : Store) (key : RecordKey) :
    filedSerial? store key = (filed? store key).map Record.serial := by
  cases key <;> simp [filedSerial?, filed?, Function.comp_def, Record.serial]

lemma filedSerial?_eq_some {key : RecordKey} {record : Record}
    (h : filed? store key = some record) : filedSerial? store key = some record.serial := by
  rw [filedSerial?_eq, h, Option.map_some]

lemma filedSerial?_putPeer (peer : PeerRecord) (key : RecordKey) :
    filedSerial? (store.putPeer peer) key =
      if .peer peer.address = key then some peer.serial else filedSerial? store key := by
  cases key with
  | connection key => rfl
  | peer address =>
    simp only [filedSerial?, Store.putPeer, getElem?_insert_eq, RecordKey.peer.injEq]
    split <;> rfl

lemma filedSerial?_putConnection (connection : ConnectionRecord) (key : RecordKey) :
    filedSerial? (store.putConnection connection) key =
      if .connection connection.key = key then some connection.serial
      else filedSerial? store key := by
  cases key with
  | peer address => rfl
  | connection key =>
    simp only [filedSerial?, Store.putConnection, getElem?_insert_eq, RecordKey.connection.injEq]
    split <;> rfl

lemma OwnSerials.opened (h : OwnSerials store) {later : Store} (key : RecordKey)
    (hserials : ∀ other, filedSerial? later other =
      if key = other then some store.nextSerial else filedSerial? store other)
    (hnext : later.nextSerial = store.nextSerial + 1) (hpending : later.pending = store.pending) :
    OwnSerials later := by
  have hfresh : ∀ other, filedSerial? store other ≠ some store.nextSerial :=
    fun other hother => Nat.lt_irrefl _ (h.used other _ hother)
  constructor
  · intro other serial hother
    rw [hserials] at hother
    rw [hnext]
    split at hother
    · cases hother
      exact Nat.lt_succ_self _
    · exact Nat.lt_succ_of_lt (h.used other serial hother)
  · intro other serial hother
    rw [hserials] at hother
    rw [hpending]
    split at hother
    · cases hother
      cases hentry : store.pending.entries[store.nextSerial]? with
      | none => rfl
      | some entry => exact absurd (h.pooled _ entry hentry).1 (Nat.lt_irrefl _)
    · exact h.apart other serial hother
  · intro one other serial hone hother
    rw [hserials] at hone hother
    split at hone
    · cases hone
      split at hother
      · rename_i hkey hsame
        exact hkey.symm.trans hsame
      · exact absurd hother (hfresh other)
    · split at hother
      · cases hother
        exact absurd hone (hfresh one)
      · exact h.distinct one other serial hone hother
  · intro serial entry hentry
    rw [hpending] at hentry
    rw [hnext]
    obtain ⟨hused, hown⟩ := h.pooled serial entry hentry
    exact ⟨Nat.lt_succ_of_lt hused, hown⟩

lemma OwnSerials.changed (h : OwnSerials store) {later : Store}
    (hserials : ∀ key, filedSerial? later key = filedSerial? store key)
    (hnext : later.nextSerial = store.nextSerial) (hpending : later.pending = store.pending) :
    OwnSerials later := by
  constructor
  · intro key serial hkey
    rw [hserials] at hkey
    rw [hnext]
    exact h.used key serial hkey
  · intro key serial hkey
    rw [hserials] at hkey
    rw [hpending]
    exact h.apart key serial hkey
  · intro key other serial hkey hother
    rw [hserials] at hkey hother
    exact h.distinct key other serial hkey hother
  · intro serial entry hentry
    rw [hpending] at hentry
    rw [hnext]
    exact h.pooled serial entry hentry

lemma entries_add {pool : PendingPool} {record : Record} (h : pool.entries[record.serial]? = none)
    (now serial : Nat) : (pool.add now record).entries[serial]? =
      if record.serial = serial then some ⟨record, now, 1⟩ else pool.entries[serial]? := by
  rw [PendingPool.add, h]
  exact getElem?_insert_eq _ _ _ _

lemma OwnSerials.removed (h : OwnSerials store) {later : Store} (key : RecordKey) {record : Record}
    {now : Nat} (hthere : filedSerial? store key = some record.serial)
    (hserials : ∀ other, filedSerial? later other =
      if key = other then none else filedSerial? store other)
    (hnext : later.nextSerial = store.nextSerial)
    (hpending : later.pending = store.pending.add now record) : OwnSerials later := by
  have hentries : ∀ serial : Nat, later.pending.entries[serial]? =
      if record.serial = serial then some ⟨record, now, 1⟩ else store.pending.entries[serial]? := by
    intro serial
    rw [hpending, entries_add (h.apart key _ hthere)]
  have hearlier : ∀ other serial, filedSerial? later other = some serial →
      key ≠ other ∧ filedSerial? store other = some serial := by
    intro other serial hother
    rw [hserials] at hother
    split at hother
    · cases hother
    · rename_i hkey
      exact ⟨hkey, hother⟩
  constructor
  · intro other serial hother
    rw [hnext]
    exact h.used other serial (hearlier other serial hother).2
  · intro other serial hother
    obtain ⟨hkey, hfiled⟩ := hearlier other serial hother
    rw [hentries, if_neg]
    · exact h.apart other serial hfiled
    · rintro rfl
      exact hkey (h.distinct key other _ hthere hfiled)
  · intro one other serial hone hother
    exact h.distinct one other serial (hearlier one serial hone).2 (hearlier other serial hother).2
  · intro serial entry hentry
    rw [hentries] at hentry
    rw [hnext]
    split at hentry
    · rename_i hserial
      cases hentry
      exact ⟨hserial ▸ h.used key _ hthere, hserial⟩
    · exact h.pooled serial entry hentry

lemma entries_sweepDeleted (store : Store) (now gracePeriod : Nat) (isHeld : Nat → Bool)
    (serial : Nat) :
    (store.sweepDeleted now gracePeriod isHeld).1.pending.entries[serial]? =
      (store.pending.entries[serial]?).filter fun entry =>
        !entry.canFree now gracePeriod (isHeld serial) := by
  unfold Store.sweepDeleted PendingPool.sweep
  exact Std.ExtTreeMap.getElem?_filter'

lemma OwnSerials.freed (h : OwnSerials store) (now gracePeriod : Nat) (isHeld : Nat → Bool) :
    OwnSerials (store.sweepDeleted now gracePeriod isHeld).1 := by
  have hentries : ∀ (serial : Nat) entry,
      (store.sweepDeleted now gracePeriod isHeld).1.pending.entries[serial]? = some entry →
        store.pending.entries[serial]? = some entry := by
    intro serial entry hentry
    rw [entries_sweepDeleted] at hentry
    exact (Option.filter_eq_some_iff.1 hentry).1
  refine ⟨h.used, ?_, h.distinct, fun serial entry hentry => h.pooled serial entry
    (hentries serial entry hentry)⟩
  intro key serial hkey
  have hnone := h.apart key serial hkey
  cases hentry : (store.sweepDeleted now gracePeriod isHeld).1.pending.entries[serial]? with
  | none => rfl
  | some entry =>
    rw [hentries serial entry hentry] at hnone
    cases hnone

end Serials

/-- A record is filed under its key, in place of the one that was there. -/
structure Refiles (store : Store) (record : Record) (later : Store) : Prop where
  filed : ∀ key, filed? later key = if record.key = key then some record else filed? store key
  pending : later.pending = store.pending

/-- A filed record moves to the pool. -/
structure Removes (store : Store) (now : Nat) (record : Record) (later : Store) : Prop where
  filed : ∀ key, filed? later key = if record.key = key then none else filed? store key
  pending : later.pending = store.pending.add now record.markBeingDeleted
  nextSerial : later.nextSerial = store.nextSerial

section Places

variable {store later : Store}

@[simp] lemma key_markBeingDeleted (record : Record) :
    record.markBeingDeleted.key = record.key := by
  cases record <;> rfl

@[simp] lemma serial_markBeingDeleted (record : Record) :
    record.markBeingDeleted.serial = record.serial := by
  cases record <;> rfl

@[simp] lemma isBeingDeleted_markBeingDeleted (record : Record) :
    record.markBeingDeleted.isBeingDeleted = true := by
  cases record <;> rfl

lemma refiles_putPeer (store : Store) (peer : PeerRecord) :
    Refiles store (.peer peer) (store.putPeer peer) := by
  refine ⟨?_, rfl⟩
  intro key
  cases key with
  | connection key => simp [filed?, Store.putPeer, Record.key]
  | peer address =>
    simp only [filed?, Store.putPeer, getElem?_insert_eq, Record.key, RecordKey.peer.injEq]
    split <;> rfl

lemma refiles_putConnection (store : Store) (connection : ConnectionRecord) :
    Refiles store (.connection connection) (store.putConnection connection) := by
  refine ⟨?_, rfl⟩
  intro key
  cases key with
  | peer address => simp [filed?, Store.putConnection, Record.key]
  | connection key =>
    simp only [filed?, Store.putConnection, getElem?_insert_eq, Record.key,
      RecordKey.connection.injEq]
    split <;> rfl

lemma removes_markForDeletion {record : Record} (now : Nat)
    (hthere : filed? store record.key = some record) :
    Removes store now record (store.markForDeletion now record.handle) := by
  cases record with
  | peer peer =>
    obtain ⟨found, hfound, heq⟩ := Option.map_eq_some_iff.1 hthere
    cases heq
    have hstore : store.markForDeletion now (Record.peer peer).handle = { store with
        peers := store.peers.erase peer.address
        pending := store.pending.add now (.peer { peer with isBeingDeleted := true }) } := by
      simp [Store.markForDeletion, Record.handle, Record.key, Record.serial, hfound]
    rw [hstore]
    refine ⟨?_, rfl, rfl⟩
    intro key
    cases key with
    | connection key => simp [filed?, Record.key]
    | peer address =>
      simp only [filed?, getElem?_erase_eq, Record.key, RecordKey.peer.injEq]
      split <;> rfl
  | connection connection =>
    obtain ⟨found, hfound, heq⟩ := Option.map_eq_some_iff.1 hthere
    cases heq
    have hstore : store.markForDeletion now (Record.connection connection).handle = { store with
        connections := store.connections.erase connection.key
        pending := store.pending.add now
          (.connection { connection with isBeingDeleted := true }) } := by
      simp [Store.markForDeletion, Record.handle, Record.key, Record.serial, hfound]
    rw [hstore]
    refine ⟨?_, rfl, rfl⟩
    intro key
    cases key with
    | peer address => simp [filed?, Record.key]
    | connection key =>
      simp only [filed?, getElem?_erase_eq, Record.key, RecordKey.connection.injEq]
      split <;> rfl

/-- A handle that is not of the record filed under its key deletes nothing. -/
lemma markForDeletion_eq_self {handle : Handle} (now : Nat)
    (h : filedSerial? store handle.key ≠ some handle.serial) :
    store.markForDeletion now handle = store := by
  unfold Store.markForDeletion
  unfold filedSerial? at h
  cases hkey : handle.key with
  | peer address =>
    rw [hkey] at h
    dsimp only at h ⊢
    cases hpeer : store.peers[address]? with
    | none => rfl
    | some peer => exact if_neg fun hserial => h (by rw [hpeer, Option.map_some, hserial])
  | connection key =>
    rw [hkey] at h
    dsimp only at h ⊢
    cases hconnection : store.connections[key]? with
    | none => rfl
    | some connection =>
      exact if_neg fun hserial => h (by rw [hconnection, Option.map_some, hserial])

lemma Refiles.eq_or_earlier {record found : Record} {key : RecordKey}
    (h : Refiles store record later) (hfound : filed? later key = some found) :
    record.key = key ∧ found = record ∨ filed? store key = some found := by
  rw [h.filed] at hfound
  split at hfound
  · rename_i hkey
    exact Or.inl ⟨hkey, (Option.some.inj hfound).symm⟩
  · exact Or.inr hfound

lemma Removes.earlier {now : Nat} {record found : Record} {key : RecordKey}
    (h : Removes store now record later) (hfound : filed? later key = some found) :
    filed? store key = some found := by
  rw [h.filed] at hfound
  split at hfound
  · cases hfound
  · exact hfound

lemma Refiles.filedSerial? {record : Record} (h : Refiles store record later) (key : RecordKey) :
    Proofs.filedSerial? later key =
      if record.key = key then some record.serial else Proofs.filedSerial? store key := by
  rw [filedSerial?_eq, h.filed, filedSerial?_eq]
  split <;> rfl

lemma Refiles.filedSerial?_of_same {old record : Record} (h : Refiles store record later)
    (hthere : filed? store record.key = some old) (hserial : record.serial = old.serial)
    (key : RecordKey) : Proofs.filedSerial? later key = Proofs.filedSerial? store key := by
  rw [h.filedSerial?]
  split
  · rename_i hkey
    rw [← hkey, filedSerial?_eq_some hthere, hserial]
  · rfl

lemma Removes.filedSerial? {now : Nat} {record : Record} (h : Removes store now record later)
    (key : RecordKey) : Proofs.filedSerial? later key =
      if record.key = key then none else Proofs.filedSerial? store key := by
  rw [filedSerial?_eq, h.filed, filedSerial?_eq]
  split <;> rfl

lemma entries_add_of_filed (hs : OwnSerials store) {record : Record}
    (hthere : filed? store record.key = some record) (now serial : Nat) :
    (store.pending.add now record.markBeingDeleted).entries[serial]? =
      if record.serial = serial then some ⟨record.markBeingDeleted, now, 1⟩
      else store.pending.entries[serial]? := by
  have hfiled : filedSerial? store record.key = some record.markBeingDeleted.serial := by
    rw [filedSerial?_eq_some hthere, serial_markBeingDeleted]
  rw [entries_add (hs.apart _ _ hfiled), serial_markBeingDeleted]

end Places

/-- What deleting comes to: nothing, or a record goes from its map to the pool. -/
inductive Removal (now : Nat) (store : Store) : Store → Prop where
  | nothing : Removal now store store
  | peer {address : Address} {peer : PeerRecord} (there : store.peers[address]? = some peer) :
      Removal now store { store with
        peers := store.peers.erase address
        pending := store.pending.add now (.peer { peer with isBeingDeleted := true }) }
  | connection {key : ConnectionKey} {connection : ConnectionRecord}
      (there : store.connections[key]? = some connection) :
      Removal now store { store with
        connections := store.connections.erase key
        pending := store.pending.add now (.connection { connection with isBeingDeleted := true }) }

section Proper

variable {store later : Store} {rule : RecordRule}

lemma markForDeletion_removal (store : Store) (now : Nat) (handle : Handle) :
    Removal now store (store.markForDeletion now handle) := by
  unfold Store.markForDeletion
  split
  · split
    · rename_i peer hpeer
      split
      · exact .peer hpeer
      · exact .nothing
    · exact .nothing
  · split
    · rename_i connection hconnection
      split
      · exact .connection hconnection
      · exact .nothing
    · exact .nothing

lemma Removal.isProper {now : Nat} (hp : IsProper store) (h : Removal now store later) :
    IsProper later := by
  cases h with
  | nothing => exact hp
  | @peer address peer there =>
    refine ⟨⟨hp.filed.peer.erase _, hp.filed.connection⟩, ?_⟩
    refine hp.serials.removed (.peer address) ?_ ?_ rfl rfl
    · simp [filedSerial?, there, Record.serial]
    · intro other
      cases other with
      | connection key => rfl
      | peer other =>
        simp only [filedSerial?, getElem?_erase_eq, RecordKey.peer.injEq]
        split <;> rfl
  | @connection key connection there =>
    refine ⟨⟨hp.filed.peer, hp.filed.connection.erase _⟩, ?_⟩
    refine hp.serials.removed (.connection key) ?_ ?_ rfl rfl
    · simp [filedSerial?, there, Record.serial]
    · intro other
      cases other with
      | peer address => rfl
      | connection other =>
        simp only [filedSerial?, getElem?_erase_eq, RecordKey.connection.injEq]
        split <;> rfl

lemma Edit.isProper (hp : IsProper store) (h : Edit rule store later) : IsProper later := by
  cases h with
  | peerOpened now address absent =>
    refine ⟨⟨hp.filed.peer.insert rfl, hp.filed.connection⟩, ?_⟩
    refine hp.serials.opened (.peer address) ?_ rfl rfl
    exact filedSerial?_putPeer _
  | @peerChanged old peer there serial kept =>
    refine ⟨⟨hp.filed.peer.insert (kept.trans (hp.filed.peer _ _ there).2),
      hp.filed.connection⟩, ?_⟩
    refine hp.serials.changed ?_ rfl rfl
    intro key
    rw [filedSerial?_putPeer]
    split
    · rename_i hkey
      rw [← hkey, filedSerial?, there, Option.map_some, serial]
    · rfl
  | @opened now key absent allowed =>
    refine ⟨⟨hp.filed.peer, hp.filed.connection.insert rfl⟩, ?_⟩
    refine hp.serials.opened (.connection key) ?_ rfl rfl
    exact @filedSerial?_putConnection store (store.newConnection now key)
  | @changed old connection there serial kept allowed =>
    refine ⟨⟨hp.filed.peer, hp.filed.connection.insert
      (kept.trans (hp.filed.connection _ _ there).2)⟩, ?_⟩
    refine hp.serials.changed ?_ rfl rfl
    intro key
    rw [filedSerial?_putConnection]
    split
    · rename_i hkey
      rw [← hkey, filedSerial?, there, Option.map_some, serial]
    · rfl
  | removed now handle => exact (markForDeletion_removal store now handle).isProper hp
  | freed now gracePeriod isHeld =>
    exact ⟨⟨hp.filed.peer, hp.filed.connection⟩, hp.serials.freed now gracePeriod isHeld⟩

lemma Edits.isProper (hp : IsProper store) (h : Edits rule store later) : IsProper later := by
  induction h with
  | refl => exact hp
  | tail _ hlast ih => exact hlast.isProper ih

lemma isProper_starting (config : Config) (firstId : UInt32) :
    IsProper (Engine.starting config firstId).store := by
  have hnone : ∀ key serial, filedSerial? (Engine.starting config firstId).store key ≠
      some serial := by
    intro key serial
    cases key <;> simp [Engine.starting, filedSerial?]
  refine ⟨wellFiled_starting config firstId, ?_, ?_, ?_, ?_⟩
  · exact fun key serial hkey => absurd hkey (hnone key serial)
  · exact fun key serial hkey => absurd hkey (hnone key serial)
  · exact fun key _ serial hkey => absurd hkey (hnone key serial)
  · intro serial entry hentry
    simp [Engine.starting] at hentry

end Proper

def statusFor? (key : ConnectionKey) : Record → Option HandshakeStatus
  | .peer _ => none
  | .connection connection => if connection.key = key then some connection.status else none

/-- The status of the record with a serial number, filed or waiting to be freed. -/
def recordStatus? (store : Store) (key : ConnectionKey) (serial : Nat) : Option HandshakeStatus :=
  (store.find? ⟨.connection key, serial⟩).bind (statusFor? key)

section Statuses

variable {store later : Store} {rule : RecordRule} {key : ConnectionKey} {serial : Nat}

lemma recordStatus?_of_filed {connection : ConnectionRecord} (hw : WellFiled store)
    (h : store.connections[key]? = some connection) :
    recordStatus? store key connection.serial = some connection.status := by
  have hkey := (hw.connection _ _ h).1
  simp [recordStatus?, Store.find?, h, Record.serial, statusFor?, hkey]

lemma recordStatus?_of_unfiled (h : filedSerial? store (.connection key) ≠ some serial) :
    recordStatus? store key serial =
      (store.pending.entries[serial]?).bind fun entry => statusFor? key entry.record := by
  unfold recordStatus? Store.find? PendingPool.find?
  dsimp only
  cases hfiled : store.connections[key]? with
  | none => exact Option.bind_map ..
  | some connection =>
    have hother : (Record.connection connection).serial ≠ serial := by
      rintro rfl
      exact h (by rw [filedSerial?, hfiled, Option.map_some]; rfl)
    exact (congrArg (Option.bind · (statusFor? key)) (if_neg hother)).trans (Option.bind_map ..)

lemma recordStatus?_congr (hconnections : later.connections[key]? = store.connections[key]?)
    (hpending : later.pending.entries[serial]? = store.pending.entries[serial]?) :
    recordStatus? later key serial = recordStatus? store key serial := by
  simp only [recordStatus?, Store.find?, PendingPool.find?, hconnections, hpending]

/-- What is done to the record that is filed under a key leaves the others of that key alone. -/
lemma recordStatus?_of_others (hearlier : filedSerial? store (.connection key) ≠ some serial)
    (hlater : filedSerial? later (.connection key) ≠ some serial)
    (hpending : later.pending.entries[serial]? = store.pending.entries[serial]?) :
    recordStatus? later key serial = recordStatus? store key serial := by
  rw [recordStatus?_of_unfiled hlater, recordStatus?_of_unfiled hearlier, hpending]

lemma recordStatus?_of_unused (hp : IsProper store) (h : store.nextSerial ≤ serial) :
    recordStatus? store key serial = none := by
  rw [recordStatus?_of_unfiled]
  · cases hentry : store.pending.entries[serial]? with
    | none => rfl
    | some entry => exact absurd (hp.serials.pooled serial entry hentry).1 (Nat.not_lt.2 h)
  · exact fun hfiled => absurd (hp.serials.used _ _ hfiled) (Nat.not_lt.2 h)

lemma filedSerial?_of_filed {connection : ConnectionRecord}
    (h : store.connections[key]? = some connection) :
    filedSerial? store (.connection key) = some connection.serial := by
  rw [filedSerial?, h, Option.map_some]

lemma exists_filed_of_filedSerial? (h : filedSerial? store (.connection key) = some serial) :
    ∃ connection, store.connections[key]? = some connection ∧ connection.serial = serial :=
  Option.map_eq_some_iff.1 h

/-- Filing a record for the first time, or again, only changes the status of this record. -/
lemma recordStatus?_putConnection {connection : ConnectionRecord} (hlater : WellFiled later)
    (hconnections : later.connections = store.connections.insert connection.key connection)
    (hpending : later.pending = store.pending)
    (hown : ∀ old, store.connections[connection.key]? = some old →
      old.serial = connection.serial) :
    recordStatus? later key serial =
      if connection.key = key ∧ connection.serial = serial then some connection.status
      else recordStatus? store key serial := by
  have hfiled : later.connections[key]? =
      if connection.key = key then some connection else store.connections[key]? := by
    rw [hconnections, getElem?_insert_eq]
  by_cases hkey : connection.key = key
  · subst hkey
    rw [if_pos rfl] at hfiled
    split
    · rename_i hsame
      rw [← hsame.2]
      exact recordStatus?_of_filed hlater hfiled
    · rename_i hother
      refine recordStatus?_of_others ?_ ?_ (by rw [hpending])
      · intro hthere
        obtain ⟨old, hold, rfl⟩ := exists_filed_of_filedSerial? hthere
        exact hother ⟨rfl, (hown old hold).symm⟩
      · rw [filedSerial?_of_filed hfiled]
        exact fun hsame => hother ⟨rfl, Option.some.inj hsame⟩
  · rw [if_neg hkey] at hfiled
    rw [if_neg fun hsame => hkey hsame.1]
    exact recordStatus?_congr hfiled (by rw [hpending])

lemma recordStatus?_of_removed (hp : IsProper store) {other : RecordKey} {record : Record}
    {now : Nat} (hthere : filedSerial? store other = some record.serial)
    (hother : other ≠ .connection key) (hstatus : statusFor? key record = none)
    (hconnections : later.connections[key]? = store.connections[key]?)
    (hpending : later.pending = store.pending.add now record) :
    recordStatus? later key serial = recordStatus? store key serial := by
  have hentry : later.pending.entries[serial]? =
      if record.serial = serial then some ⟨record, now, 1⟩
      else store.pending.entries[serial]? := by
    rw [hpending, entries_add (hp.serials.apart _ _ hthere)]
  by_cases hserial : record.serial = serial
  · subst hserial
    rw [if_pos rfl] at hentry
    have hunfiled : filedSerial? store (.connection key) ≠ some record.serial :=
      fun hfiled => hother (hp.serials.distinct _ _ _ hthere hfiled)
    have hlater : filedSerial? later (.connection key) ≠ some record.serial := by
      rwa [filedSerial?, hconnections]
    rw [recordStatus?_of_unfiled hlater, recordStatus?_of_unfiled hunfiled, hentry,
      hp.serials.apart _ _ hthere]
    exact hstatus
  · rw [if_neg hserial] at hentry
    exact recordStatus?_congr hconnections hentry

lemma Removal.recordStatus? {now : Nat} (hp : IsProper store) (h : Removal now store later) :
    recordStatus? later key serial = Proofs.recordStatus? store key serial := by
  cases h with
  | nothing => rfl
  | @peer address peer there =>
    have hthere : filedSerial? store (.peer address) = some peer.serial := by
      rw [filedSerial?, there, Option.map_some]
    exact @recordStatus?_of_removed _ _ _ _ hp (.peer address)
      (.peer { peer with isBeingDeleted := true }) now hthere (by simp) rfl rfl rfl
  | @connection other connection there =>
    have hthere := filedSerial?_of_filed there
    have hkey := (hp.filed.connection _ _ there).1
    by_cases hother : other = key
    · subst hother
      have hgone : (store.connections.erase other)[other]? = none := by
        rw [getElem?_erase_eq, if_pos rfl]
      have hentry := @entries_add store.pending
        (.connection { connection with isBeingDeleted := true }) (hp.serials.apart _ _ hthere) now
        serial
      have hunfiled : filedSerial? { store with
          connections := store.connections.erase other
          pending := store.pending.add now
            (.connection { connection with isBeingDeleted := true }) }
          (.connection other) ≠ some serial := by
        rw [filedSerial?, hgone, Option.map_none]
        exact (Option.some_ne_none _).symm
      by_cases hserial : connection.serial = serial
      · subst hserial
        rw [recordStatus?_of_filed hp.filed there, recordStatus?_of_unfiled hunfiled]
        rw [hentry.trans (if_pos rfl)]
        exact if_pos hkey
      · refine recordStatus?_of_others ?_ hunfiled (hentry.trans (if_neg hserial))
        rw [hthere]
        exact fun hsame => hserial (Option.some.inj hsame)
    · refine @recordStatus?_of_removed _ _ _ _ hp (.connection other)
        (.connection { connection with isBeingDeleted := true }) now hthere ?_ ?_ ?_ rfl
      · exact fun hsame => hother (RecordKey.connection.inj hsame)
      · exact if_neg fun hsame => hother (hkey.symm.trans hsame)
      · exact (getElem?_erase_eq _ _ _).trans (if_neg hother)

lemma recordStatus?_sweepDeleted (hp : IsProper store) (now gracePeriod : Nat)
    (isHeld : Nat → Bool) :
    recordStatus? (store.sweepDeleted now gracePeriod isHeld).1 key serial =
        recordStatus? store key serial ∨
      recordStatus? (store.sweepDeleted now gracePeriod isHeld).1 key serial = none := by
  by_cases hfiled : filedSerial? store (.connection key) = some serial
  · obtain ⟨connection, hthere, rfl⟩ := exists_filed_of_filedSerial? hfiled
    have hlater : WellFiled (store.sweepDeleted now gracePeriod isHeld).1 :=
      ⟨hp.filed.peer, hp.filed.connection⟩
    rw [recordStatus?_of_filed hp.filed hthere]
    exact Or.inl (recordStatus?_of_filed hlater hthere)
  · rw [recordStatus?_of_unfiled hfiled]
    rw [recordStatus?_of_unfiled (by exact hfiled)]
    rw [entries_sweepDeleted]
    cases store.pending.entries[serial]? with
    | none => exact Or.inl rfl
    | some entry =>
      rw [Option.filter_some]
      split
      · exact Or.inl rfl
      · exact Or.inr rfl

/-- What an edit does to the status of a record, which may be a new one. -/
inductive StatusMove (rule : RecordRule) (key : ConnectionKey) (isNew : Prop) :
    Option HandshakeStatus → Option HandshakeStatus → Prop where
  | kept (status : Option HandshakeStatus) : StatusMove rule key isNew status status
  | opened (allowed : rule.opens key) (new : isNew) :
      StatusMove rule key isNew none (some .initial)
  | changed {before after : HandshakeStatus} (allowed : rule.changes key before after) :
      StatusMove rule key isNew (some before) (some after)
  | freed (status : Option HandshakeStatus) : StatusMove rule key isNew status none

/-- Every edit is a move of a record's status, which only concerns what the rule says of its key. -/
lemma Edit.statusMove (hp : IsProper store) (h : Edit rule store later) :
    StatusMove rule key (store.nextSerial ≤ serial) (recordStatus? store key serial)
      (recordStatus? later key serial) := by
  have hlater := (h.isProper hp).filed
  cases h with
  | peerOpened now address absent => exact .kept _
  | peerChanged there same kept => exact .kept _
  | @opened now other absent allowed =>
    rw [@recordStatus?_putConnection store _ key serial (store.newConnection now other) hlater rfl
      rfl fun old hold => by cases absent.symm.trans hold]
    split
    · rename_i hsame
      obtain ⟨rfl, rfl⟩ := hsame
      have hunused := @recordStatus?_of_unused store other _ hp (Nat.le_refl _)
      exact hunused ▸ .opened allowed (Nat.le_refl _)
    · exact .kept _
  | @changed old connection there same kept allowed =>
    rw [@recordStatus?_putConnection store _ key serial connection hlater rfl rfl
      fun found hfound => by cases there.symm.trans hfound; exact same.symm]
    split
    · rename_i hsame
      obtain ⟨rfl, rfl⟩ := hsame
      rw [same, recordStatus?_of_filed hp.filed there]
      rcases allowed with hstatus | hchanges
      · rw [hstatus]
        exact .kept _
      · exact .changed hchanges
    · exact .kept _
  | removed now handle =>
    rw [(markForDeletion_removal store now handle).recordStatus? hp]
    exact .kept _
  | freed now gracePeriod isHeld =>
    rcases @recordStatus?_sweepDeleted store key serial hp now gracePeriod isHeld with
      hsame | hnone
    · rw [hsame]
      exact .kept _
    · rw [hnone]
      exact .freed _

lemma Edit.nextSerial_le (h : Edit rule store later) : store.nextSerial ≤ later.nextSerial := by
  cases h with
  | peerOpened now address absent => exact Nat.le_succ _
  | opened now absent allowed => exact Nat.le_succ _
  | peerChanged there serial kept => exact Nat.le_refl _
  | changed there serial kept allowed => exact Nat.le_refl _
  | freed now gracePeriod isHeld => exact Nat.le_refl _
  | removed now handle =>
    have hremoval := markForDeletion_removal store now handle
    generalize store.markForDeletion now handle = later at hremoval
    cases hremoval <;> exact Nat.le_refl _

lemma Edits.nextSerial_le (h : Edits rule store later) :
    store.nextSerial ≤ later.nextSerial := by
  induction h with
  | refl => exact Nat.le_refl _
  | tail _ hlast ih => exact Nat.le_trans ih hlast.nextSerial_le

/-- What every change by the rule preserves holds of the status of a record after any edits, if it
holds before them and of a new record that may be opened. Freeing a record must preserve it too. -/
theorem Edits.status {Q : Option HandshakeStatus → Prop} (hp : IsProper store)
    (h : Edits rule store later)
    (hopens : rule.opens key → store.nextSerial ≤ serial → Q (some .initial))
    (hchanges : ∀ before after, rule.changes key before after → Q (some before) →
      Q (some after))
    (hfreed : Q none) (hQ : Q (recordStatus? store key serial)) :
    Q (recordStatus? later key serial) := by
  induction h with
  | refl => exact hQ
  | @tail between last hfirst hlast ih =>
    have hmove := @Edit.statusMove _ _ _ key serial (Edits.isProper hp hfirst) hlast
    generalize recordStatus? between key serial = before at ih hmove
    generalize recordStatus? last key serial = after at hmove ⊢
    cases hmove with
    | kept status => exact ih
    | opened allowed new => exact hopens allowed (Nat.le_trans (Edits.nextSerial_le hfirst) new)
    | changed allowed => exact hchanges _ _ allowed ih
    | freed status => exact hfreed

lemma Edits.exists_change (hp : IsProper store) (h : Edits rule store later)
    {status : HandshakeStatus} (hbefore : recordStatus? store key serial ≠ some status)
    (hafter : recordStatus? later key serial = some status) (hlate : status ≠ .initial) :
    ∃ earlier, rule.changes key earlier status := by
  by_contra hnever
  refine h.status hp (Q := fun found => found ≠ some status) ?_ ?_ ?_ hbefore hafter
  · rintro - - hfirst
    exact hlate (Option.some.inj hfirst).symm
  · rintro earlier _ hchange - hreached
    cases hreached
    exact hnever ⟨earlier, hchange⟩
  · exact nofun

/-- A record that was not there before was opened, with a new serial number. -/
lemma Edits.opens_of_new (hp : IsProper store) (h : Edits rule store later)
    {status : HandshakeStatus} (hbefore : recordStatus? store key serial = none)
    (hafter : recordStatus? later key serial = some status) :
    rule.opens key ∧ store.nextSerial ≤ serial := by
  by_contra hnever
  have hnone := h.status hp (Q := fun found => found = none)
    (fun hopens hnew => absurd ⟨hopens, hnew⟩ hnever) (fun _ _ _ hfound => nomatch hfound) rfl
    hbefore
  rw [hafter] at hnone
  cases hnone

end Statuses

end ReliableDatagrams.Proofs
