import ReliableDatagrams.Proofs.HandlerEdits

/-!
# What belongs to one peer

An engine keeps the records of all its peers in one store. What belongs to one of them are the
records that are filed or pending under its address. `LeavesOthers` says that something only touched
these, and `Twins` that two engines have the same of them, but for the serial numbers of records
that were opened meanwhile. Both are kept when a record is filed (`Twins.files`) and when one is
moved to the pool (`Twins.unfiles`), and so by everything that is made of that.
-/

namespace ReliableDatagrams.Proofs

section Relabelling

variable (σ : Nat → Nat)

def relabelPeer (peer : PeerRecord) : PeerRecord :=
  { peer with serial := σ peer.serial }

def relabelConnection (connection : ConnectionRecord) : ConnectionRecord :=
  { connection with serial := σ connection.serial }

/-- The record under another serial number. -/
def relabel : Record → Record
  | .peer peer => .peer (relabelPeer σ peer)
  | .connection connection => .connection (relabelConnection σ connection)

def relabelEntry (entry : PendingEntry) : PendingEntry :=
  { entry with record := relabel σ entry.record }

@[simp] lemma key_relabel (record : Record) : (relabel σ record).key = record.key := by
  cases record <;> rfl

@[simp] lemma serial_relabel (record : Record) : (relabel σ record).serial = σ record.serial := by
  cases record <;> rfl

@[simp] lemma relabel_markBeingDeleted (record : Record) :
    relabel σ record.markBeingDeleted = (relabel σ record).markBeingDeleted := by
  cases record <;> rfl

@[simp] lemma record_relabelEntry (entry : PendingEntry) :
    (relabelEntry σ entry).record = relabel σ entry.record := rfl

lemma relabel_congr {τ : Nat → Nat} {record : Record} (h : σ record.serial = τ record.serial) :
    relabel σ record = relabel τ record := by
  cases record with
  | peer peer => simp_all [relabel, relabelPeer, Record.serial]
  | connection connection => simp_all [relabel, relabelConnection, Record.serial]

lemma relabel_eq_self {record : Record} (h : σ record.serial = record.serial) :
    relabel σ record = record := by
  cases record with
  | peer peer => simp_all [relabel, relabelPeer, Record.serial]
  | connection connection => simp_all [relabel, relabelConnection, Record.serial]

lemma relabelEntry_congr {τ : Nat → Nat} {entry : PendingEntry}
    (h : σ entry.record.serial = τ entry.record.serial) :
    relabelEntry σ entry = relabelEntry τ entry := by
  rw [relabelEntry, relabelEntry, relabel_congr σ h]

lemma relabelEntry_eq_self {entry : PendingEntry}
    (h : σ entry.record.serial = entry.record.serial) : relabelEntry σ entry = entry := by
  rw [relabelEntry, relabel_eq_self σ h]

lemma relabel_relabel (τ : Nat → Nat) (record : Record) :
    relabel σ (relabel τ record) = relabel (σ ∘ τ) record := by
  cases record <;> rfl

lemma relabelEntry_relabelEntry (τ : Nat → Nat) (entry : PendingEntry) :
    relabelEntry σ (relabelEntry τ entry) = relabelEntry (σ ∘ τ) entry := by
  rw [relabelEntry, relabelEntry, relabelEntry, relabel_relabel]

end Relabelling

/-- A record is filed under a key, which takes a serial number if there was none before. -/
structure Files (engine : Engine) (key : RecordKey) (record : Record) (later : Engine) : Prop where
  filed : ∀ other, filed? later.store other =
    if key = other then some record else filed? engine.store other
  pending : later.store.pending = engine.store.pending
  config : later.store.config = engine.store.config
  messageIds : later.messageIds = engine.messageIds
  nextSerial : later.store.nextSerial =
    if (filed? engine.store key).isSome then engine.store.nextSerial
    else engine.store.nextSerial + 1

/-- The record that is filed under a key moves to the pool. -/
structure Unfiles (engine : Engine) (now : Nat) (record : Record) (later : Engine) : Prop where
  there : filed? engine.store record.key = some record
  filed : ∀ other, filed? later.store other =
    if record.key = other then none else filed? engine.store other
  pending : later.store.pending = engine.store.pending.add now record.markBeingDeleted
  config : later.store.config = engine.store.config
  messageIds : later.messageIds = engine.messageIds
  nextSerial : later.store.nextSerial = engine.store.nextSerial

section Operations

variable {engine : Engine}

lemma files_withPeer (hp : IsProper engine.store) (now : Nat) (address : Address) {α : Type}
    {change : PeerRecord → PeerRecord × α} (hchange : KeepsIdentity change) :
    Files engine (.peer address) (.peer (change (peerOrNew engine.store now address)).1)
      (engine.withPeer now address change).1 where
  filed other := by
    have hkept := (hchange.address _).trans (peerOrNew_filed hp.filed.peer now address).1
    cases other with
    | connection key => simp [filed?]
    | peer other =>
      simp only [filed?, peers_withPeer _ _ _ _ hkept, getElem?_insert_eq, RecordKey.peer.injEq]
      split <;> rfl
  pending := pending_withPeer _ _ _ _
  config := config_withPeer _ _ _ _
  messageIds := rfl
  nextSerial := by
    unfold Engine.withPeer Store.peer
    cases hpeer : engine.store.peers[address]? <;> simp [filed?, hpeer, Store.putPeer]

lemma files_connectionOrInsert (now : Nat) (key : ConnectionKey) :
    Files engine (.connection key) (.connection (connectionOrNew engine.store now key))
      { engine with store := (engine.store.connectionOrInsert now key).1 } := by
  unfold Store.connectionOrInsert connectionOrNew
  cases hthere : engine.store.connections[key]? with
  | some connection =>
    refine ⟨?_, rfl, rfl, rfl, by simp [filed?, hthere]⟩
    intro other
    by_cases hkey : .connection key = other
    · rw [if_pos hkey, ← hkey, filed?, hthere]
      rfl
    · rw [if_neg hkey]
  | none =>
    refine ⟨?_, rfl, rfl, rfl, by simp [filed?, hthere]⟩
    intro other
    cases other with
    | peer address => simp [filed?, Store.putConnection]
    | connection other =>
      simp only [filed?, Store.putConnection, getElem?_insert_eq, RecordKey.connection.injEq,
        Store.newConnection, Option.getD_none]
      by_cases hkey : key = other
      · simp only [if_pos hkey, Option.map_some]
      · simp only [if_neg hkey]

lemma files_putConnection {connection : ConnectionRecord}
    (hthere : (engine.store.connections[connection.key]?).isSome = true) :
    Files engine (.connection connection.key) (.connection connection)
      (engine.putConnection connection) where
  filed := (refiles_putConnection engine.store connection).filed
  pending := rfl
  config := rfl
  messageIds := rfl
  nextSerial := by simp [filed?, hthere, Engine.putConnection, Store.putConnection]

lemma unfiles_retire {connection found : ConnectionRecord} (now : Nat)
    (hkey : found.key = connection.key)
    (hthere : engine.store.connections[connection.key]? = some found)
    (hserial : found.serial = connection.serial) :
    Unfiles engine now (.connection found) (engine.retire now connection) := by
  have hfiled : filed? engine.store (Record.connection found).key = some (.connection found) := by
    rw [Record.key, hkey, filed?, hthere]
    rfl
  have hhandle : (Record.connection found).handle = (Record.connection connection).handle := by
    simp only [Record.handle, Record.key, Record.serial, hkey, hserial]
  have hremoves := removes_markForDeletion now hfiled
  rw [hhandle] at hremoves
  exact ⟨hfiled, hremoves.filed, hremoves.pending, config_markForDeletion _ _ _, rfl,
    hremoves.nextSerial⟩

/-- A record that is not the one filed under its key is not removed. -/
lemma retire_eq_self {connection : ConnectionRecord} (now : Nat)
    (h : ∀ found, engine.store.connections[connection.key]? = some found →
      found.serial ≠ connection.serial) : engine.retire now connection = engine := by
  have hserial : filedSerial? engine.store (Record.connection connection).handle.key ≠
      some (Record.connection connection).handle.serial := by
    intro hfiled
    obtain ⟨found, hfound, hsame⟩ := exists_filed_of_filedSerial? hfiled
    exact h found hfound hsame
  rw [Engine.retire, markForDeletion_eq_self now hserial]

end Operations

/-- Nothing but what belongs to one peer is touched. -/
structure LeavesOthers (peer : Address) (before after : Engine) : Prop where
  filed : ∀ key : RecordKey, key.address ≠ peer →
    filed? after.store key = filed? before.store key
  pending : ∀ (serial : Nat) (entry : PendingEntry), entry.record.key.address ≠ peer →
    (after.store.pending.entries[serial]? = some entry ↔
      before.store.pending.entries[serial]? = some entry)
  config : after.store.config = before.store.config
  messageIds : after.messageIds = before.messageIds

section Others

variable {peer : Address} {engine later : Engine}

lemma LeavesOthers.refl (peer : Address) (engine : Engine) : LeavesOthers peer engine engine :=
  ⟨fun _ _ => rfl, fun _ _ _ => Iff.rfl, rfl, rfl⟩

lemma LeavesOthers.trans {after : Engine} (h : LeavesOthers peer engine later)
    (h' : LeavesOthers peer later after) : LeavesOthers peer engine after where
  filed key hkey := (h'.filed key hkey).trans (h.filed key hkey)
  pending serial entry hentry :=
    (h'.pending serial entry hentry).trans (h.pending serial entry hentry)
  config := h'.config.trans h.config
  messageIds := h'.messageIds.trans h.messageIds

lemma Files.leavesOthers {key : RecordKey} {record : Record} (h : Files engine key record later)
    (hkey : key.address = peer) : LeavesOthers peer engine later where
  filed other hother := by
    rw [h.filed, if_neg]
    rintro rfl
    exact hother hkey
  pending serial entry _ := by rw [h.pending]
  config := h.config
  messageIds := h.messageIds

lemma Unfiles.leavesOthers {now : Nat} {record : Record} (hp : IsProper engine.store)
    (h : Unfiles engine now record later) (hkey : record.key.address = peer) :
    LeavesOthers peer engine later where
  filed other hother := by
    rw [h.filed, if_neg]
    rintro rfl
    exact hother hkey
  pending serial entry hentry := by
    rw [h.pending, entries_add_of_filed hp.serials h.there]
    split
    · rename_i hserial
      have hmarked : record.markBeingDeleted.key = record.key := by cases record <;> rfl
      have hapart := hp.serials.apart record.key record.serial
        (filedSerial?_eq_some h.there)
      rw [hserial] at hapart
      rw [hapart]
      constructor
      · intro heq
        cases heq
        exact absurd (hmarked ▸ hkey) hentry
      · intro heq
        cases heq
    · exact Iff.rfl
  config := h.config
  messageIds := h.messageIds

end Others

/-- Pools that hold the same of one peer. -/
def PoolTwins (peer : Address) (σ : Nat → Nat) (pool other : PendingPool) : Prop :=
  ∀ (serial : Nat) (entry : PendingEntry), entry.record.key.address = peer →
    (other.entries[serial]? = some entry ↔ ∃ (old : Nat) (found : PendingEntry),
      σ old = serial ∧ relabelEntry σ found = entry ∧ pool.entries[old]? = some found)

/-- Two engines that have come from different states, and have the same of one peer. -/
structure Twins (peer : Address) (σ : Nat → Nat) (start start' engine engine' : Engine) : Prop where
  injective : Function.Injective σ
  proper : IsProper engine.store
  proper' : IsProper engine'.store
  others : LeavesOthers peer start engine
  others' : LeavesOthers peer start' engine'
  config : engine'.store.config = engine.store.config
  nextSerial : engine'.store.nextSerial = σ engine.store.nextSerial
  succ : ∀ serial, engine.store.nextSerial ≤ serial → σ (serial + 1) = σ serial + 1
  filed : ∀ key : RecordKey, key.address = peer →
    filed? engine'.store key = (filed? engine.store key).map (relabel σ)
  pending : PoolTwins peer σ engine.store.pending engine'.store.pending

section Twins

variable {peer : Address} {σ : Nat → Nat} {start start' engine engine' later later' : Engine}

lemma PoolTwins.add (h : PoolTwins peer σ engine.store.pending engine'.store.pending)
    (hinj : Function.Injective σ) (hp : IsProper engine.store) (hp' : IsProper engine'.store)
    {record : Record} (hthere : filed? engine.store record.key = some record)
    (hthere' : filed? engine'.store record.key = some (relabel σ record)) (now : Nat) :
    PoolTwins peer σ (engine.store.pending.add now record.markBeingDeleted)
      (engine'.store.pending.add now (relabel σ record).markBeingDeleted) := by
  rw [← key_relabel σ record] at hthere'
  intro serial entry hentry
  rw [entries_add_of_filed hp'.serials hthere', serial_relabel]
  simp only [entries_add_of_filed hp.serials hthere]
  split
  · rename_i hserial
    constructor
    · intro heq
      cases heq
      exact ⟨record.serial, _, hserial, by simp [relabelEntry], if_pos rfl⟩
    · rintro ⟨old, found, hold, hfound, heq⟩
      obtain rfl : record.serial = old := hinj (hserial.trans hold.symm)
      rw [if_pos rfl] at heq
      cases heq
      rw [← hfound]
      simp [relabelEntry]
  · rename_i hserial
    rw [h serial entry hentry]
    refine exists_congr fun old => exists_congr fun found => and_congr_right fun hold =>
      and_congr_right fun _ => ?_
    rw [if_neg]
    rintro rfl
    exact hserial hold

lemma Twins.files (h : Twins peer σ start start' engine engine') (key : RecordKey)
    {record : Record} (hkey : key.address = peer) (hf : Files engine key record later)
    (hf' : Files engine' key (relabel σ record) later') (hp : IsProper later.store)
    (hp' : IsProper later'.store) : Twins peer σ start start' later later' where
  injective := h.injective
  proper := hp
  proper' := hp'
  others := h.others.trans (hf.leavesOthers hkey)
  others' := h.others'.trans (hf'.leavesOthers hkey)
  config := hf'.config.trans (h.config.trans hf.config.symm)
  nextSerial := by
    rw [hf.nextSerial, hf'.nextSerial, h.filed key hkey, Option.isSome_map, h.nextSerial]
    split
    · rfl
    · exact (h.succ _ (Nat.le_refl _)).symm
  succ serial hserial := by
    refine h.succ serial (Nat.le_trans ?_ hserial)
    rw [hf.nextSerial]
    split <;> omega
  filed other hother := by
    rw [hf.filed, hf'.filed, h.filed other hother]
    split <;> rfl
  pending := by
    rw [hf.pending, hf'.pending]
    exact h.pending

lemma Twins.unfiles (h : Twins peer σ start start' engine engine') {now : Nat}
    (record : Record) (hkey : record.key.address = peer) (hu : Unfiles engine now record later)
    (hu' : Unfiles engine' now (relabel σ record) later') (hp : IsProper later.store)
    (hp' : IsProper later'.store) : Twins peer σ start start' later later' where
  injective := h.injective
  proper := hp
  proper' := hp'
  others := h.others.trans (hu.leavesOthers h.proper hkey)
  others' := h.others'.trans (hu'.leavesOthers h.proper' (by rw [key_relabel]; exact hkey))
  config := hu'.config.trans (h.config.trans hu.config.symm)
  nextSerial := by rw [hu.nextSerial, hu'.nextSerial, h.nextSerial]
  succ serial hserial := h.succ serial (hu.nextSerial ▸ hserial)
  filed other hother := by
    rw [hu.filed, hu'.filed, key_relabel, h.filed other hother]
    split <;> rfl
  pending := by
    have hthere' := hu'.there
    rw [key_relabel] at hthere'
    rw [hu.pending, hu'.pending]
    exact h.pending.add h.injective h.proper h.proper' hu.there hthere' now

end Twins

/-- The peer that an effect is about. -/
def effectPeer : Effect → Address
  | .sent target _ _ => target
  | .delivered message => message.source

/-- What comes of the same at two engines. -/
structure Alike (peer : Address) (σ : Nat → Nat) (start start' : Engine)
    (outcome outcome' : Engine × List Effect) : Prop where
  twins : Twins peer σ start start' outcome.1 outcome'.1
  effects : outcome'.2 = outcome.2
  own : ∀ effect ∈ outcome.2, effectPeer effect = peer

section TwinOperations

variable {peer : Address} {σ : Nat → Nat} {start start' engine engine' : Engine}
variable (h : Twins peer σ start start' engine engine') (occasion : Occasion)

lemma Twins.silent (h : Twins peer σ start start' engine engine') :
    Alike peer σ start start' (engine, []) (engine', []) :=
  ⟨h, rfl, by simp⟩

lemma Alike.of_sent {frame : Bytes} {accepted : Bool}
    (h : Twins peer σ start start' engine engine') :
    Alike peer σ start start' (engine, [.sent peer frame accepted])
      (engine', [.sent peer frame accepted]) :=
  ⟨h, rfl, by simp [effectPeer]⟩

lemma Alike.deliver {outcome outcome' : Engine × List Effect}
    (h : Alike peer σ start start' outcome outcome') {message : Message}
    (hsource : message.source = peer) :
    Alike peer σ start start' (outcome.1, outcome.2 ++ [.delivered message])
      (outcome'.1, outcome'.2 ++ [.delivered message]) := by
  refine ⟨h.twins, by rw [h.effects], ?_⟩
  intro effect heffect
  rcases List.mem_append.1 heffect with hmem | hmem
  · exact h.own effect hmem
  · rw [List.mem_singleton.1 hmem]
    exact hsource

lemma connection?_key (hw : WellFiled engine.store) {key : ConnectionKey}
    {connection : ConnectionRecord} (hconnection : engine.store.connection? key = some connection) :
    connection.key = key := by
  rw [connection?_eq hw] at hconnection
  exact (hw.connection key connection hconnection).1

lemma IsProper.edited {store later : Store} (hp : IsProper store)
    (h : Edits .any store store → Edits .any store later) : IsProper later :=
  (h .refl).isProper hp

include h

lemma Twins.peers : engine'.store.peers[peer]? =
    (engine.store.peers[peer]?).map (relabelPeer σ) := by
  have hfiled := h.filed (.peer peer) rfl
  simp only [filed?] at hfiled
  cases hold : engine.store.peers[peer]? <;> cases hnew : engine'.store.peers[peer]? <;>
    simp_all [relabel]

lemma Twins.connections {key : ConnectionKey} (hkey : key.peer = peer) :
    engine'.store.connections[key]? =
      (engine.store.connections[key]?).map (relabelConnection σ) := by
  have hfiled := h.filed (.connection key) hkey
  simp only [filed?] at hfiled
  cases hold : engine.store.connections[key]? <;> cases hnew : engine'.store.connections[key]? <;>
    simp_all [relabel]

lemma Twins.connection?_eq {key : ConnectionKey} (hkey : key.peer = peer) :
    engine'.store.connection? key =
      (engine.store.connection? key).map (relabelConnection σ) := by
  rw [Proofs.connection?_eq h.proper.filed, Proofs.connection?_eq h.proper'.filed,
    h.connections hkey]

lemma Twins.peerOrNew_eq (now : Nat) : peerOrNew engine'.store now peer =
    relabelPeer σ (peerOrNew engine.store now peer) := by
  unfold peerOrNew
  rw [h.peers]
  cases engine.store.peers[peer]? with
  | some old => rfl
  | none => simp [Store.newPeer, relabelPeer, h.nextSerial, h.config]

lemma Twins.connectionOrNew_eq (now : Nat) {key : ConnectionKey} (hkey : key.peer = peer) :
    connectionOrNew engine'.store now key =
      relabelConnection σ (connectionOrNew engine.store now key) := by
  unfold connectionOrNew
  rw [h.connections hkey]
  cases engine.store.connections[key]? with
  | some old => rfl
  | none => simp [Store.newConnection, relabelConnection, h.nextSerial, h.config]

lemma Twins.withPeer (now : Nat) {α : Type} {change : PeerRecord → PeerRecord × α}
    (hchange : KeepsIdentity change)
    (hblind : ∀ record, change (relabelPeer σ record) =
      (relabelPeer σ (change record).1, (change record).2)) :
    Twins peer σ start start' (engine.withPeer now peer change).1
        (engine'.withPeer now peer change).1 ∧
      (engine'.withPeer now peer change).2 = (engine.withPeer now peer change).2 := by
  have hfiles' := files_withPeer h.proper' now peer hchange
  rw [h.peerOrNew_eq, hblind] at hfiles'
  refine ⟨h.files (.peer peer) rfl (files_withPeer h.proper now peer hchange) hfiles'
    (h.proper.edited fun hedits => hedits.withPeer h.proper now peer hchange)
    (h.proper'.edited fun hedits => hedits.withPeer h.proper' now peer hchange), ?_⟩
  rw [snd_withPeer, snd_withPeer, h.peerOrNew_eq, hblind]

lemma Twins.touchPeer (now : Nat) :
    Twins peer σ start start' (engine.touchPeer now peer) (engine'.touchPeer now peer) :=
  (h.withPeer now ⟨fun _ => rfl, fun _ => rfl, fun _ => rfl⟩ fun _ => rfl).1

lemma Twins.drawTimestamp (now : Nat) :
    Twins peer σ start start' (engine.drawTimestamp now peer).1
        (engine'.drawTimestamp now peer).1 ∧
      (engine'.drawTimestamp now peer).2 = (engine.drawTimestamp now peer).2 :=
  h.withPeer now ⟨fun _ => rfl, fun _ => rfl, fun _ => rfl⟩ fun _ => rfl

lemma Twins.acceptTimestamp (now : Nat) (timestamp : Option UInt16) :
    Twins peer σ start start' (engine.acceptTimestamp now peer timestamp).1
        (engine'.acceptTimestamp now peer timestamp).1 ∧
      (engine'.acceptTimestamp now peer timestamp).2 =
        (engine.acceptTimestamp now peer timestamp).2 := by
  cases timestamp with
  | none => exact ⟨h, rfl⟩
  | some timestamp =>
    refine h.withPeer now ⟨fun record => ?_, fun record => ?_, fun record => ?_⟩ fun record => ?_
    · unfold PeerRecord.accept
      split <;> rfl
    · unfold PeerRecord.accept
      split <;> rfl
    · unfold PeerRecord.accept
      split <;> rfl
    · have hfresh : (relabelPeer σ record).isFresh timestamp = record.isFresh timestamp := rfl
      unfold PeerRecord.accept
      rw [hfresh]
      split <;> rfl

lemma Twins.resetTimestamps (now : Nat) (timestamp : Option UInt16) :
    Twins peer σ start start' (engine.resetTimestamps now peer timestamp)
      (engine'.resetTimestamps now peer timestamp) :=
  (h.withPeer now ⟨fun _ => rfl, fun _ => rfl, fun _ => rfl⟩ fun _ => rfl).1

lemma Twins.connectionOrInsert (now : Nat) {key : ConnectionKey} (hkey : key.peer = peer) :
    Twins peer σ start start'
      { engine with store := (engine.store.connectionOrInsert now key).1 }
      { engine' with store := (engine'.store.connectionOrInsert now key).1 } := by
  have hfiles' := @files_connectionOrInsert engine' now key
  rw [h.connectionOrNew_eq now hkey] at hfiles'
  exact h.files (.connection key) hkey (files_connectionOrInsert now key) hfiles'
    (h.proper.edited fun hedits => hedits.connectionOrInsert now trivial)
    (h.proper'.edited fun hedits => hedits.connectionOrInsert now trivial)

lemma Twins.isRevision {connection : ConnectionRecord} (hkey : connection.key.peer = peer)
    (hrevision : IsRevision .any engine.store connection) :
    IsRevision .any engine'.store (relabelConnection σ connection) := by
  obtain ⟨old, hthere, hserial, hkept, -⟩ := hrevision
  refine ⟨relabelConnection σ old, ?_, congrArg σ hserial, hkept, Or.inr trivial⟩
  have hsame : (relabelConnection σ connection).key = connection.key := rfl
  rw [hsame, h.connections hkey, hthere]
  rfl

lemma Twins.putConnection (connection : ConnectionRecord) (hkey : connection.key.peer = peer)
    (hrevision : IsRevision .any engine.store connection) :
    Twins peer σ start start' (engine.putConnection connection)
      (engine'.putConnection (relabelConnection σ connection)) := by
  have hrevision' := h.isRevision hkey hrevision
  have hthere : (engine.store.connections[connection.key]?).isSome = true := by
    obtain ⟨old, hold, -⟩ := hrevision
    rw [hold]
    rfl
  have hthere' : (engine'.store.connections[
      (relabelConnection σ connection).key]?).isSome = true := by
    obtain ⟨old, hold, -⟩ := hrevision'
    rw [hold]
    rfl
  exact h.files (.connection connection.key) hkey (files_putConnection hthere)
    (files_putConnection hthere') (h.proper.edited fun hedits => hedits.putConnection hrevision)
    (h.proper'.edited fun hedits => hedits.putConnection hrevision')

lemma Twins.retire (connection : ConnectionRecord) (hkey : connection.key.peer = peer)
    (now : Nat) : Twins peer σ start start' (engine.retire now connection)
      (engine'.retire now (relabelConnection σ connection)) := by
  have hsame : (relabelConnection σ connection).key = connection.key := rfl
  have hthere' := h.connections hkey
  by_cases hfound : ∃ found, engine.store.connections[connection.key]? = some found ∧
      found.serial = connection.serial
  · obtain ⟨found, hthere, hserial⟩ := hfound
    have hown := (h.proper.filed.connection _ _ hthere).1
    rw [hthere] at hthere'
    have hremoved' := @unfiles_retire engine' (relabelConnection σ connection)
      (relabelConnection σ found) now hown hthere' (congrArg σ hserial)
    have hfoundKey : found.key.peer = peer := by rw [hown, hkey]
    exact h.unfiles (.connection found) hfoundKey (unfiles_retire now hown hthere hserial)
      hremoved' (h.proper.edited fun hedits => hedits.retire now connection)
      (h.proper'.edited fun hedits => hedits.retire now (relabelConnection σ connection))
  · rw [retire_eq_self, retire_eq_self]
    · exact h
    · intro found hthere hserial
      rw [hsame, hthere'] at hthere
      obtain ⟨old, hold, rfl⟩ := Option.map_eq_some_iff.1 hthere
      exact hfound ⟨old, hold, h.injective hserial⟩
    · intro found hthere hserial
      exact hfound ⟨found, hthere, hserial⟩

lemma Twins.transmit (connection : ConnectionRecord) (hkey : connection.key.peer = peer)
    (hrevision : IsRevision .any engine.store connection) (frame : Bytes) :
    Alike peer σ start start' (engine.transmit occasion connection frame)
      (engine'.transmit occasion (relabelConnection σ connection) frame) := by
  have hput := h.putConnection { connection with lastSent := some frame } hkey hrevision
  have hretired := hput.retire { connection with lastSent := some frame } hkey occasion.now
  have hsame : (relabelConnection σ connection).key.peer = connection.key.peer := rfl
  unfold Engine.transmit
  simp only [hsame, hkey]
  split
  · exact .of_sent hput
  · exact .of_sent hretired

lemma Twins.restamp (now : Nat) (syn : Bytes) :
    Twins peer σ start start' (engine.restamp now peer syn).1 (engine'.restamp now peer syn).1 ∧
      (engine'.restamp now peer syn).2 = (engine.restamp now peer syn).2 := by
  unfold Engine.restamp
  cases Frame.decode syn with
  | error error => exact ⟨h, rfl⟩
  | ok frame =>
    obtain ⟨hdrawn, hsame⟩ := h.drawTimestamp now
    refine ⟨hdrawn, ?_⟩
    have hconfig : (engine'.drawTimestamp now peer).1.config =
        (engine.drawTimestamp now peer).1.config := hdrawn.config
    simp only [Engine.writeFrame, hsame, hconfig]

lemma Twins.resendSyn (connection : ConnectionRecord) (hkey : connection.key.peer = peer)
    (hrevision : IsRevision .any engine.store connection) (syn : Bytes) :
    Alike peer σ start start' (engine.resendSyn occasion connection syn)
      (engine'.resendSyn occasion (relabelConnection σ connection) syn) := by
  have hsame : (relabelConnection σ connection).key.peer = peer := hkey
  obtain ⟨hstamped, hwritten⟩ := h.restamp occasion.now syn
  obtain ⟨hkept, -⟩ := @restamp_eq_none_or engine occasion.now peer syn
  unfold Engine.resendSyn
  rw [hsame, hkey]
  cases hr : engine.restamp occasion.now peer syn with
  | mk stamped written =>
    cases hr' : engine'.restamp occasion.now peer syn with
    | mk stamped' written' =>
      rw [hr, hr'] at hstamped
      rw [hr] at hkept hwritten
      rw [hr'] at hwritten
      dsimp only at hstamped hkept hwritten
      rw [hwritten]
      cases written with
      | none => exact (hstamped.retire connection hkey occasion.now).silent
      | some frame =>
        have hstatus : (relabelConnection σ connection).status = connection.status := rfl
        simp only [hstatus]
        split
        · exact hstamped.transmit occasion connection hkey (hrevision.congr hkept) frame
        · exact hstamped.silent

end TwinOperations

end ReliableDatagrams.Proofs
