import ReliableDatagrams.Proofs.NumberedFrames
import ReliableDatagrams.Proofs.PeerSlices

/-!
# Rejected first frames

A first frame is rejected if it is damaged or stale. A damaged one is rejected before anything is
looked up, a stale one once its record was found and the timestamp was compared; the failure is
counted once in both cases (`receiveSyn_of_stale`). The record of a handshake goes with the first
failure beyond its bound, and the next failure is the first one of another record. So the number of
rejected first frames tells how many records have gone to the pool, and how many failures the one
that is there has counted (`HasCounted`), whatever else there is in between.
-/

namespace ReliableDatagrams.Proofs

/-- The serial numbers of the records of a handshake that wait to be freed. -/
def pendingSerials (store : Store) (key : ConnectionKey) : List Nat :=
  (store.pending.entries.toList.filter fun entry =>
    entry.2.record.key = .connection key).map Prod.fst

/-- Any record may be opened, but none for one handshake. -/
def RecordRule.sparing (key : ConnectionKey) : RecordRule where
  opens other := other ≠ key
  changes _ _ _ := True

section Pool

variable {store later : Store} {key : ConnectionKey} {serial : Nat}

lemma mem_pendingSerials :
    serial ∈ pendingSerials store key ↔ ∃ entry, store.pending.entries[serial]? = some entry ∧
      entry.record.key = .connection key := by
  simp [pendingSerials, Std.ExtTreeMap.mem_toList_iff_getElem?_eq_some]

lemma nodup_pendingSerials (store : Store) (key : ConnectionKey) :
    (pendingSerials store key).Nodup := by
  have hkeys : (store.pending.entries.toList.map Prod.fst).Nodup := by
    rw [Std.ExtTreeMap.map_fst_toList_eq_keys]
    exact Std.ExtTreeMap.nodup_keys
  exact (List.filter_sublist.map Prod.fst).nodup hkeys

lemma pendingSerials_congr (h : later.pending = store.pending) :
    pendingSerials later key = pendingSerials store key := by
  rw [pendingSerials, h, pendingSerials]

lemma length_pendingSerials_add {now : Nat} {record : Record}
    (hkey : record.key = .connection key)
    (habsent : store.pending.entries[record.serial]? = none)
    (h : later.pending = store.pending.add now record) :
    (pendingSerials later key).length = (pendingSerials store key).length + 1 := by
  have hnew : record.serial ∉ pendingSerials store key := by
    intro hmem
    obtain ⟨entry, hentry, -⟩ := mem_pendingSerials.1 hmem
    cases habsent.symm.trans hentry
  have hperm : (pendingSerials later key).Perm (record.serial :: pendingSerials store key) := by
    rw [List.perm_ext_iff_of_nodup (nodup_pendingSerials _ _)
      (List.nodup_cons.2 ⟨hnew, nodup_pendingSerials _ _⟩)]
    intro serial
    rw [List.mem_cons, mem_pendingSerials, mem_pendingSerials, h, entries_add habsent]
    by_cases hserial : record.serial = serial
    · simp [hserial, hkey]
    · simp [hserial, Ne.symm hserial]
  exact hperm.length_eq

lemma entries_add_kept (pool : PendingPool) (now : Nat) (record : Record) {entry : PendingEntry}
    (h : pool.entries[serial]? = some entry) :
    ∃ kept, (pool.add now record).entries[serial]? = some kept ∧ kept.record = entry.record := by
  rw [PendingPool.add, getElem?_insert_eq]
  by_cases hserial : record.serial = serial
  · rw [if_pos hserial, hserial, h]
    exact ⟨_, rfl, rfl⟩
  · rw [if_neg hserial]
    exact ⟨entry, h, rfl⟩

lemma Removal.pending_kept {between : Store} {now : Nat} (h : Removal now between later)
    {entry : PendingEntry} (hentry : between.pending.entries[serial]? = some entry) :
    ∃ kept, later.pending.entries[serial]? = some kept ∧ kept.record = entry.record := by
  cases h with
  | nothing => exact ⟨entry, hentry, rfl⟩
  | peer there => exact entries_add_kept between.pending now _ hentry
  | connection there => exact entries_add_kept between.pending now _ hentry

lemma Reworks.pending_kept {now : Nat} (h : Reworks now store later) {entry : PendingEntry}
    (hentry : store.pending.entries[serial]? = some entry) :
    ∃ kept, later.pending.entries[serial]? = some kept ∧ kept.record = entry.record := by
  induction h with
  | begun => exact ⟨entry, hentry, rfl⟩
  | peer _ _ _ ih => exact ih
  | filed _ _ _ ih => exact ih
  | counted _ _ ih => exact ih
  | @removed between _ handle ih =>
    obtain ⟨kept, hkept, hrecord⟩ := ih
    obtain ⟨again, hagain, hsame⟩ := (markForDeletion_removal between now handle).pending_kept hkept
    exact ⟨again, hagain, hsame.trans hrecord⟩
  | @evicted between _ peer ih =>
    obtain ⟨kept, hkept, hrecord⟩ := ih
    obtain ⟨again, hagain, hsame⟩ := (markForDeletion_removal (between.putPeer peer) now
      (Record.peer peer).handle).pending_kept hkept
    exact ⟨again, hagain, hsame.trans hrecord⟩

lemma statusFor?_ne_none_iff {record : Record} :
    statusFor? key record ≠ none ↔ record.key = .connection key := by
  cases record with
  | peer peer => simp [statusFor?, Record.key]
  | connection connection => simp [statusFor?, Record.key]

lemma recordStatus?_ne_none_iff (h : filedSerial? store (.connection key) ≠ some serial) :
    recordStatus? store key serial ≠ none ↔ serial ∈ pendingSerials store key := by
  rw [recordStatus?_of_unfiled h, mem_pendingSerials]
  cases store.pending.entries[serial]? with
  | none => simp
  | some entry => simpa using statusFor?_ne_none_iff

/-- If no record is opened for a handshake and the one that is filed stays, the same ones are
pending. -/
lemma length_pendingSerials_kept {rule : RecordRule} {now : Nat} (hp : IsProper store)
    (hedits : Edits rule store later) (hreworks : Reworks now store later)
    (hnever : ¬ rule.opens key) (hsame : later.connections[key]? = store.connections[key]?) :
    (pendingSerials later key).length = (pendingSerials store key).length := by
  have hserials : filedSerial? later (.connection key) = filedSerial? store (.connection key) := by
    rw [filedSerial?, hsame, filedSerial?]
  refine List.Perm.length_eq ?_
  rw [List.perm_ext_iff_of_nodup (nodup_pendingSerials _ _) (nodup_pendingSerials _ _)]
  intro serial
  constructor
  · intro hmem
    obtain ⟨entry, hentry, -⟩ := mem_pendingSerials.1 hmem
    have hunfiled : filedSerial? later (.connection key) ≠ some serial := by
      intro hfiled
      cases hentry.symm.trans ((hedits.isProper hp).serials.apart _ _ hfiled)
    rw [← recordStatus?_ne_none_iff hunfiled] at hmem
    rw [hserials] at hunfiled
    rw [← recordStatus?_ne_none_iff hunfiled]
    intro hnone
    refine hmem (hedits.status hp (Q := fun found => found = none) ?_ ?_ rfl hnone)
    · exact fun hopens => absurd hopens hnever
    · exact fun _ _ _ hsome => absurd hsome (Option.some_ne_none _)
  · intro hmem
    obtain ⟨entry, hentry, hkey⟩ := mem_pendingSerials.1 hmem
    obtain ⟨kept, hkept, hrecord⟩ := hreworks.pending_kept hentry
    exact mem_pendingSerials.2 ⟨kept, hkept, hrecord ▸ hkey⟩

/-- A record that is found or opened for a handshake is not in the pool. -/
lemma unpooled_connectionOrNew (hp : IsProper store) (now : Nat) (key : ConnectionKey) :
    store.pending.entries[(connectionOrNew store now key).serial]? = none := by
  rcases serial_connectionOrNew store now key with hfiled | ⟨-, hnext⟩
  · exact hp.serials.apart _ _ hfiled
  · rw [hnext]
    cases hentry : store.pending.entries[store.nextSerial]? with
    | none => rfl
    | some entry => exact absurd (hp.serials.pooled _ _ hentry).1 (Nat.lt_irrefl _)

end Pool

/-- The record of a handshake waits for a first frame and has counted so many failures. There is none
before the first failure. -/
structure CountsFailures (key : ConnectionKey) (bound failures : Nat) (store : Store) : Prop where
  record : ∀ connection, store.connections[key]? = some connection →
    connection.failures.toNat = failures ∧ connection.failureBound.toNat = bound ∧
      ¬ .synAckSent ≤ connection.status
  absent : store.connections[key]? = none ↔ failures = 0
  within : failures ≤ bound

/-- One failure more is counted, or the record moves to the pool. -/
structure FailsOnce (key : ConnectionKey) (bound failures : Nat) (store later : Store) : Prop where
  counted : failures + 1 ≤ bound → CountsFailures key bound (failures + 1) later ∧
    (pendingSerials later key).length = (pendingSerials store key).length
  removed : bound < failures + 1 → CountsFailures key bound 0 later ∧
    (pendingSerials later key).length = (pendingSerials store key).length + 1

section Rejecting

variable {engine : Engine} (occasion : Occasion) {source : Address} {id : UInt32}
variable {bound failures : Nat} {datagram : Bytes}

lemma CountsFailures.congr {key : ConnectionKey} {store later : Store}
    (h : CountsFailures key bound failures store)
    (hsame : later.connections[key]? = store.connections[key]?) :
    CountsFailures key bound failures later where
  record connection hconnection := h.record connection (hsame.symm.trans hconnection)
  absent := hsame ▸ h.absent
  within := h.within

/-- The next failure is counted by the record that is there, or by a new one. -/
lemma CountsFailures.connectionOrNew {store : Store}
    (h : CountsFailures ⟨source, id, .receiver⟩ bound failures store)
    (hbound : store.config.receiverFailureBound.toNat = bound) (now : Nat) :
    (connectionOrNew store now ⟨source, id, .receiver⟩).failures.toNat = failures ∧
      (connectionOrNew store now ⟨source, id, .receiver⟩).failureBound.toNat = bound ∧
      ¬ .synAckSent ≤ (connectionOrNew store now ⟨source, id, .receiver⟩).status := by
  unfold Proofs.connectionOrNew
  cases hfiled : store.connections[(⟨source, id, .receiver⟩ : ConnectionKey)]? with
  | none =>
    have hnew : ¬ HandshakeStatus.synAckSent ≤ .initial := by decide
    exact ⟨(h.absent.1 hfiled).symm, hbound, hnew⟩
  | some connection => exact h.record connection hfiled

lemma acknowledge_of_accepted {connection : ConnectionRecord} {kind : FrameKind}
    (haccepts : occasion.accepts connection.key.peer
      (encodeControl kind connection.key.messageId) = true) :
    engine.acknowledge occasion connection kind =
      (engine.putConnection { connection with
          lastSent := some (encodeControl kind connection.key.messageId) },
        [.sent connection.key.peer (encodeControl kind connection.key.messageId) true]) := by
  simp only [Engine.acknowledge, Engine.transmit, haccepts, if_true]

/-- A rejected first frame leaves the pool alone while the bound holds. Beyond it, the record that has
counted the failure is added to it. -/
lemma pending_rejectSyn {connection : ConnectionRecord}
    (hfound : connectionOrNew engine.store occasion.now ⟨source, id, .receiver⟩ = connection)
    (hkey : connection.key = ⟨source, id, .receiver⟩)
    (hwaiting : ¬ .synAckSent ≤ connection.status)
    (haccepts : occasion.accepts source (encodeControl .synFailure id) = true) :
    (connection.failures + 1 ≤ connection.failureBound →
        (engine.rejectSyn occasion source id).1.store.pending = engine.store.pending) ∧
      (connection.failureBound < connection.failures + 1 → ∃ record : Record,
        record.key = .connection connection.key ∧ record.serial = connection.serial ∧
          (engine.rejectSyn occasion source id).1.store.pending =
            engine.store.pending.add occasion.now record) := by
  have hrecord := snd_connectionOrInsert engine.store occasion.now ⟨source, id, .receiver⟩
  have hopened := pending_connectionOrInsert engine.store occasion.now ⟨source, id, .receiver⟩
  rw [hfound] at hrecord
  unfold Engine.rejectSyn
  simp only [hrecord, if_neg hwaiting, ConnectionRecord.registerFailure, ConnectionRecord.touch,
    decide_eq_true_eq]
  rw [acknowledge_of_accepted occasion (by rw [hkey]; exact haccepts)]
  refine ⟨fun hwithin => ?_, fun hbeyond => ?_⟩
  · rw [if_pos hwithin]
    exact hopened
  · rw [if_neg (UInt32.not_le.2 hbeyond), ← hopened]
    refine ⟨_, ?_, ?_,
      (unfiles_retire occasion.now ?_ Std.ExtTreeMap.getElem?_insert_self ?_).pending⟩ <;> rfl

lemma rejectSyn_failsOnce (hp : IsProper engine.store)
    (h : CountsFailures ⟨source, id, .receiver⟩ bound failures engine.store)
    (hcountable : bound < 4294967295)
    (hbound : engine.store.config.receiverFailureBound.toNat = bound)
    (haccepts : occasion.accepts source (encodeControl .synFailure id) = true) :
    (engine.rejectSyn occasion source id).2 =
        [.sent source (encodeControl .synFailure id) true] ∧
      FailsOnce ⟨source, id, .receiver⟩ bound failures engine.store
        (engine.rejectSyn occasion source id).1.store := by
  generalize hfound : connectionOrNew engine.store occasion.now ⟨source, id, .receiver⟩ = found
  have hkey : found.key = ⟨source, id, .receiver⟩ := by
    rw [← hfound]
    exact connectionOrNew_key hp.filed _ _
  have hunpooled := unpooled_connectionOrNew hp occasion.now ⟨source, id, .receiver⟩
  have hcounts := h.connectionOrNew hbound occasion.now
  rw [hfound] at hunpooled hcounts
  obtain ⟨rfl, rfl, hwaiting⟩ := hcounts
  have hcount : (found.failures + 1).toNat = found.failures.toNat + 1 := by
    refine @toNat_succ_of_lt _ 4294967295 (UInt32.lt_iff_toNat_lt.2 ?_)
    exact Nat.lt_of_le_of_lt h.within hcountable
  obtain ⟨hconnections, heffects⟩ := rejectSyn_waiting occasion hfound hkey hwaiting
  obtain ⟨hkept, hadded⟩ := pending_rejectSyn occasion hfound hkey hwaiting haccepts
  rw [haccepts] at hconnections heffects
  refine ⟨heffects, fun hroom => ?_, fun hfull => ?_⟩
  · have hwithin : found.failures + 1 ≤ found.failureBound := by
      rwa [UInt32.le_iff_toNat_le, hcount]
    rw [if_pos hwithin, afterTransmit, if_pos rfl, hkey] at hconnections
    refine ⟨⟨fun connection hconnection => ?_, ?_, hroom⟩,
      congrArg _ (pendingSerials_congr (hkept hwithin))⟩
    · rw [hconnections, Std.ExtTreeMap.getElem?_insert_self] at hconnection
      cases hconnection
      exact ⟨hcount, rfl, hwaiting⟩
    · rw [hconnections, Std.ExtTreeMap.getElem?_insert_self]
      simp
  · have hbeyond : found.failureBound < found.failures + 1 := by
      rwa [UInt32.lt_iff_toNat_lt, hcount]
    obtain ⟨record, hown, hserial, hpending⟩ := hadded hbeyond
    rw [if_neg (UInt32.not_le.2 hbeyond)] at hconnections
    have hnone : (engine.rejectSyn occasion source id).1.store.connections[
        (⟨source, id, .receiver⟩ : ConnectionKey)]? = none := by
      rw [hconnections, getElem?_erase_eq, if_pos rfl]
    refine ⟨⟨fun connection hconnection => ?_, by simp [hnone], Nat.zero_le _⟩, ?_⟩
    · cases hnone.symm.trans hconnection
    · refine length_pendingSerials_add (hown.trans (congrArg _ hkey)) ?_ hpending
      rw [hserial]
      exact hunpooled

lemma acceptTimestamp_of_stale (hw : PeersFiled engine.store.peers) (now : Nat)
    {timestamp : Option UInt16} (hstale : isFreshFrom engine source timestamp = false) :
    engine.acceptTimestamp now source timestamp = (engine, false) := by
  cases timestamp with
  | none => cases hstale
  | some timestamp =>
    cases hpeer : engine.store.peers[source]? with
    | none =>
      rw [isFreshFrom, hpeer] at hstale
      cases hstale
    | some peer =>
      rw [isFreshFrom, hpeer, Option.all_some] at hstale
      have hsame : engine.store.putPeer peer = engine.store := by
        rw [Store.putPeer, (hw _ _ hpeer).1, insert_eq_self _ _ _ hpeer]
      simp only [Engine.acceptTimestamp, Engine.withPeer, Store.peer, hpeer, PeerRecord.accept,
        hstale, Bool.false_eq_true, if_false, hsame]

/-- A first frame is rejected in the same way if its record is there already. -/
lemma rejectSyn_opened (engine : Engine) (source : Address) (id : UInt32) :
    Engine.rejectSyn { engine with store :=
        (engine.store.connectionOrInsert occasion.now ⟨source, id, .receiver⟩).1 }
      occasion source id = engine.rejectSyn occasion source id := by
  have hthere := getElem?_connectionOrInsert engine.store occasion.now ⟨source, id, .receiver⟩
  have hsame := connections_connectionOrInsert_of_filed _ occasion.now _ hthere
  have hrecord := snd_connectionOrInsert engine.store occasion.now ⟨source, id, .receiver⟩
  have hagain := snd_connectionOrInsert
    (engine.store.connectionOrInsert occasion.now ⟨source, id, .receiver⟩).1 occasion.now
    ⟨source, id, .receiver⟩
  rw [connectionOrNew_of_opened rfl] at hagain
  unfold Engine.rejectSyn
  simp only [hsame, hagain, hrecord]

lemma receiveSyn_of_stale (hw : WellFiled engine.store)
    (hwaiting : ¬ .synAckSent ≤
      (connectionOrNew engine.store occasion.now ⟨source, id, .receiver⟩).status)
    {timestamp : Option UInt16} (hstale : isFreshFrom engine source timestamp = false)
    (fields : FieldMap) :
    engine.receiveSyn occasion source id timestamp fields =
      engine.rejectSyn occasion source id := by
  have hrecord := snd_connectionOrInsert engine.store occasion.now ⟨source, id, .receiver⟩
  have hpeers := peers_connectionOrInsert engine.store occasion.now ⟨source, id, .receiver⟩
  have hkept := @acceptTimestamp_of_stale { engine with store :=
      (engine.store.connectionOrInsert occasion.now ⟨source, id, .receiver⟩).1 } source
    (hpeers.symm ▸ hw.peer) occasion.now timestamp (by
      rw [← hstale]
      cases timestamp <;> simp only [isFreshFrom, hpeers])
  rw [← rejectSyn_opened]
  unfold Engine.receiveSyn
  simp only [hrecord, if_neg hwaiting, hkept]

/-- Whatever the reason, a first frame that is rejected counts once. -/
lemma receive_failsOnce (hp : IsProper engine.store)
    (h : CountsFailures ⟨source, id, .receiver⟩ bound failures engine.store)
    (hcountable : bound < 4294967295)
    (hbound : engine.store.config.receiverFailureBound.toNat = bound)
    (hrejected : IsRejectedSyn engine source datagram id)
    (haccepts : occasion.accepts source (encodeControl .synFailure id) = true) :
    (engine.receive occasion source datagram).2 =
        [.sent source (encodeControl .synFailure id) true] ∧
      FailsOnce ⟨source, id, .receiver⟩ bound failures engine.store
        (engine.receive occasion source datagram).1.store := by
  rcases hrejected with ⟨header, expected, actual, hdecoded, hkind, hid⟩ | ⟨frame, hreads, hstale⟩
  · have hreceived : engine.receive occasion source datagram =
        engine.rejectSyn occasion source id := by
      simp only [Engine.receive, hdecoded, hkind, hid]
    rw [hreceived]
    exact rejectSyn_failsOnce occasion hp h hcountable hbound haccepts
  · have hedits : Edits .any engine.store (engine.touchPeer occasion.now source).store :=
      Edits.touchPeer hp .refl _ _
    have htouched := hedits.isProper hp
    have hsame := @connections_touchPeer engine occasion.now source
    have hcounts : CountsFailures ⟨source, id, .receiver⟩ bound failures
        (engine.touchPeer occasion.now source).store := h.congr (by rw [hsame])
    have hconfig : (engine.touchPeer occasion.now source).store.config = engine.store.config :=
      config_withPeer _ _ _ _
    have hpending : (engine.touchPeer occasion.now source).store.pending = engine.store.pending :=
      pending_withPeer _ _ _ _
    rw [← hconfig] at hbound
    rw [← isFreshFrom_touchPeer hp.filed occasion.now] at hstale
    rw [receive_of_decode occasion hreads.decoded, receiveFrame_of_reads occasion hreads]
    dsimp only
    rw [receiveSyn_of_stale occasion htouched.filed
      (hcounts.connectionOrNew hbound occasion.now).2.2 hstale]
    obtain ⟨heffects, hfails⟩ := rejectSyn_failsOnce occasion htouched hcounts hcountable hbound
      haccepts
    have hbefore := @pendingSerials_congr _ _ ⟨source, id, .receiver⟩ hpending
    exact ⟨heffects, hbefore ▸ hfails.counted, hbefore ▸ hfails.removed⟩

end Rejecting

/-- A datagram is the first frame of a handshake with an id, be it damaged or not. -/
def isFirstFor (id : UInt32) (datagram : Bytes) : Bool :=
  match Frame.decode datagram with
  | .ok frame => frame.kind = .syn && frame.header.messageId = some id
  | .error (.checksumMismatch header _ _) =>
    header.flags.kind? = some .syn && header.messageId = some id
  | .error _ => false

/-- A step brings a first frame with an id from a source. -/
def bringsFirst (source : Address) (id : UInt32) : EngineStep → Bool
  | .work _ (.receive sender datagram) => sender = source && isFirstFor id datagram
  | _ => false

/-- A step is no sweep, and if it brings a first frame with an id from a source, the frame is
rejected and the socket accepts the answer. -/
def OnlyRejects (source : Address) (id : UInt32) (history : History) : EngineStep → Prop
  | .send _ _ _ _ => True
  | .work occasion (.receive sender datagram) => sender = source → isFirstFor id datagram = true →
    IsRejectedSyn history.engine source datagram id ∧
      occasion.accepts source (encodeControl .synFailure id) = true
  | .work _ .timeoutSweep | .work _ .deleteSweep => False

section Others

variable {engine after : Engine} {occasion : Occasion} {source sender : Address} {id : UInt32}
variable {datagram : Bytes} {effects : List Effect} {bound failures : Nat}

lemma Reads.isFirstFor {frame : Frame} (h : Reads datagram .syn id frame) :
    isFirstFor id datagram = true := by
  rw [Proofs.isFirstFor, h.decoded]
  simp [h.kind, h.id]

lemma isFirstFor_of_damaged {header : FrameHeader} {expected actual : UInt32}
    (hdecoded : Frame.decode datagram = .error (.checksumMismatch header expected actual))
    (hkind : header.flags.kind? = some .syn) (hid : header.messageId = some id) :
    isFirstFor id datagram = true := by
  rw [isFirstFor, hdecoded]
  simp [hkind, hid]

lemma IsRejectedSyn.isFirstFor (h : IsRejectedSyn engine source datagram id) :
    isFirstFor id datagram = true := by
  rcases h with ⟨header, expected, actual, hdecoded, hkind, hid⟩ | ⟨frame, hreads, -⟩
  · exact isFirstFor_of_damaged hdecoded hkind hid
  · exact hreads.isFirstFor

/-- The first frame of another handshake concerns another record. -/
lemma ne_of_isFirstFor (hother : sender = source → isFirstFor id datagram = false) {other : UInt32}
    (hfirst : isFirstFor other datagram = true) :
    (⟨sender, other, .receiver⟩ : ConnectionKey) ≠ ⟨source, id, .receiver⟩ := by
  intro hsame
  cases hsame
  rw [hother rfl] at hfirst
  cases hfirst

/-- What is no first frame of a handshake opens no record for it. -/
lemma edits_receive_sparing (hp : IsProper engine.store) (occasion : Occasion)
    (hother : sender = source → isFirstFor id datagram = false) :
    Edits (.sparing ⟨source, id, .receiver⟩) engine.store
      (engine.receive occasion sender datagram).1.store := by
  have hbegun : Edits (.sparing ⟨source, id, .receiver⟩) engine.store engine.store := .refl
  unfold Engine.receive
  split
  · rename_i frame hd
    have htouched := hbegun.touchPeer hp occasion.now sender
    unfold Engine.receiveFrame
    split
    · exact htouched.acceptTimestamp hp _ _ _
    · rename_i other hkind hid
      have hreads : Reads datagram .syn other frame := ⟨hd, hkind, hid⟩
      exact Edits.receiveSyn hp htouched occasion (ne_of_isFirstFor hother hreads.isFirstFor)
        (fun _ _ _ _ => trivial) _
    · exact htouched.receiveSynSuccess occasion hp fun _ _ => trivial
    · exact htouched.receiveSynFailure occasion hp
    · exact htouched.receiveSynAckSuccess occasion hp fun _ _ => trivial
    · exact htouched.receiveAck occasion hp fun _ _ => trivial
    · exact htouched
  · rename_i header expected actual hd
    split
    · rename_i other hkind hid
      exact hbegun.rejectSyn hp occasion
        (ne_of_isFirstFor hother (isFirstFor_of_damaged hd hkind hid))
    · exact hbegun
  · exact hbegun

/-- An acknowledgement of a success comes too early for a record that waits for a first frame. -/
lemma receive_of_early (hw : WellFiled engine.store) (occasion : Occasion) {frame : Frame}
    (hreads : Reads datagram .synAckSuccess id frame)
    (h : CountsFailures ⟨source, id, .receiver⟩ bound failures engine.store) :
    (engine.receive occasion source datagram).1 = engine.touchPeer occasion.now source := by
  rw [receive_of_decode occasion hreads.decoded, receiveFrame_of_reads occasion hreads]
  dsimp only
  unfold Engine.receiveSynAckSuccess
  rw [connection?_eq (wellFiled_touchPeer hw _ _), connections_touchPeer]
  cases hfiled : engine.store.connections[(⟨source, id, .receiver⟩ : ConnectionKey)]? with
  | none => rfl
  | some connection =>
    have hwaiting := (h.record connection hfiled).2.2
    have hearly : connection.status ≠ .synAckSent := by
      intro hsame
      rw [hsame] at hwaiting
      exact hwaiting (by decide)
    simp only [if_neg hearly]

/-- What is neither a first frame of a handshake nor an acknowledgement for its receiver leaves the
receiver's record alone. -/
lemma ReceiveMove.sparing (hf : ConnectionsFiled engine.store.connections)
    (h : ReceiveMove engine occasion sender datagram after effects)
    (hother : sender = source → isFirstFor id datagram = false)
    (hopen : sender = source → ∀ frame, ¬ Reads datagram .synAckSuccess id frame) :
    after.store.connections[(⟨source, id, .receiver⟩ : ConnectionKey)]? =
      engine.store.connections[(⟨source, id, .receiver⟩ : ConnectionKey)]? := by
  have hmove := h
  cases h with
  | ignored same => rw [same]
  | plain decoded kind fresh same => rw [same]
  | rejected invalid record waiting filed =>
    have hne := ne_of_isFirstFor hother invalid.isFirstFor
    rw [filed]
    split
    · rw [getElem?_afterTransmit, if_neg]
      rwa [(record.key hf).1]
    · rw [getElem?_erase_eq, if_neg hne]
  | confirmed reads record opened filed =>
    rw [filed, getElem?_afterTransmit, if_neg]
    rw [(hf _ _ record).1]
    exact ne_of_isFirstFor hother reads.isFirstFor
  | accepted reads record waiting fresh filed =>
    rw [filed, getElem?_afterTransmit, if_neg]
    rw [(record.key hf).1]
    exact ne_of_isFirstFor hother reads.isFirstFor
  | closed reads filed =>
    rw [filed, getElem?_erase_eq, if_neg]
    intro hsame
    cases hsame
    exact hopen rfl _ reads
  | acknowledged reads record status filed =>
    exact hmove.keepsReceivers hf reads.decoded (Or.inl reads.kind) rfl
  | retried reads record retry =>
    exact hmove.keepsReceivers hf reads.decoded (Or.inr (Or.inl reads.kind)) rfl
  | finished reads record status filed =>
    exact hmove.keepsReceivers hf reads.decoded (Or.inr (Or.inr reads.kind)) rfl

lemma SendMove.sparing (hf : ConnectionsFiled engine.store.connections) {target : Address}
    {fields : FieldMap} {result : Except SendError (Option UInt32)}
    (h : SendMove engine occasion target fields after effects result) {key : ConnectionKey}
    (hrole : key.role = .receiver) :
    after.store.connections[key]? = engine.store.connections[key]? := by
  cases h with
  | failed ids same => rw [same]
  | plain drawn unforced written ids same => rw [same]
  | first drawn written record ids filed =>
    have hkey := (record.key hf).1
    rw [filed]
    refine getElem?_afterTransmit_of_role ?_ _ _
    rw [hkey, hrole]
    exact Role.noConfusion

end Others

/-- After some rejected first frames of a handshake, beginning without a record. -/
structure HasCounted (key : ConnectionKey) (bound count : Nat) (start store : Store) : Prop where
  failures : CountsFailures key bound (count % (bound + 1)) store
  pending : (pendingSerials store key).length =
    (pendingSerials start key).length + count / (bound + 1)

section Runs

variable {bound count : Nat} {start : Store} {history : History} {source : Address} {id : UInt32}
variable {step : EngineStep}

/-- The failure that is one too many begins a new round of the bound. -/
lemma HasCounted.next {key : ConnectionKey} {store later : Store}
    (h : HasCounted key bound count start store)
    (hfails : FailsOnce key bound (count % (bound + 1)) store later) :
    HasCounted key bound (count + 1) start later := by
  have hpos : 0 < bound + 1 := Nat.succ_pos bound
  have hsplit := Nat.mod_add_div count (bound + 1)
  have hless := Nat.mod_lt count hpos
  by_cases hwithin : count % (bound + 1) + 1 ≤ bound
  · obtain ⟨hcounts, hpending⟩ := hfails.counted hwithin
    obtain ⟨hdiv, hmod⟩ := (Nat.div_mod_unique hpos).2
      (show count % (bound + 1) + 1 + (bound + 1) * (count / (bound + 1)) = count + 1 ∧
        count % (bound + 1) + 1 < bound + 1 by omega)
    exact ⟨hmod ▸ hcounts, by rw [hpending, h.pending, hdiv]⟩
  · obtain ⟨hcounts, hpending⟩ := hfails.removed (Nat.lt_of_not_le hwithin)
    have hlast : count % (bound + 1) = bound := by omega
    obtain ⟨hdiv, hmod⟩ := (Nat.div_mod_unique hpos).2
      (show 0 + (bound + 1) * (count / (bound + 1) + 1) = count + 1 ∧ 0 < bound + 1 by
        rw [Nat.mul_add]
        omega)
    exact ⟨hmod ▸ hcounts, by rw [hpending, h.pending, hdiv, Nat.add_assoc]⟩

/-- What brings no first frame of a handshake is nothing to its receiver. -/
lemma step_sparing (hp : IsProper history.engine.store) {failures : Nat}
    (h : CountsFailures ⟨source, id, .receiver⟩ bound failures history.engine.store)
    (honly : OnlyRejects source id history step) (hother : bringsFirst source id step = false) :
    (history.step step).engine.store.connections[(⟨source, id, .receiver⟩ : ConnectionKey)]? =
        history.engine.store.connections[(⟨source, id, .receiver⟩ : ConnectionKey)]? ∧
      (pendingSerials (history.step step).engine.store ⟨source, id, .receiver⟩).length =
        (pendingSerials history.engine.store ⟨source, id, .receiver⟩).length := by
  cases step with
  | send occasion target fields delivery =>
    have hsame : (history.step (.send occasion target fields delivery)).engine.store.connections[
        (⟨source, id, .receiver⟩ : ConnectionKey)]? =
          history.engine.store.connections[(⟨source, id, .receiver⟩ : ConnectionKey)]? :=
      (send_move occasion hp.filed target fields delivery).sparing hp.filed.connection rfl
    refine ⟨hsame, length_pendingSerials_kept hp (edits_send occasion hp target fields delivery)
      (reworks_send occasion hp.filed target fields delivery) ?_ hsame⟩
    intro hopens
    cases hopens
  | work occasion task =>
    cases task with
    | receive sender datagram =>
      have hapart : sender = source → isFirstFor id datagram = false := by
        simpa [bringsFirst] using hother
      have hsame : (history.step (.work occasion (.receive sender datagram))
          ).engine.store.connections[(⟨source, id, .receiver⟩ : ConnectionKey)]? =
            history.engine.store.connections[(⟨source, id, .receiver⟩ : ConnectionKey)]? := by
        by_cases hearly : sender = source ∧ ∃ frame, Reads datagram .synAckSuccess id frame
        · obtain ⟨rfl, frame, hreads⟩ := hearly
          have htouched : (history.step (.work occasion (.receive sender datagram))).engine =
              history.engine.touchPeer occasion.now sender :=
            receive_of_early hp.filed occasion hreads h
          rw [htouched, connections_touchPeer]
        · refine (receive_move occasion hp.filed sender datagram).sparing hp.filed.connection
            hapart ?_
          exact fun hsource frame hreads => hearly ⟨hsource, frame, hreads⟩
      exact ⟨hsame, length_pendingSerials_kept hp (edits_receive_sparing hp occasion hapart)
        (reworks_receive occasion hp.filed sender datagram) (fun hopens => hopens rfl) hsame⟩
    | timeoutSweep => exact honly.elim
    | deleteSweep => exact honly.elim

/-- A step that brings a rejected first frame counts once and is answered once. -/
lemma step_failsOnce (hp : IsProper history.engine.store) {failures : Nat}
    (h : CountsFailures ⟨source, id, .receiver⟩ bound failures history.engine.store)
    (hcountable : bound < 4294967295)
    (hbound : history.engine.store.config.receiverFailureBound.toNat = bound)
    (honly : OnlyRejects source id history step) (hbrings : bringsFirst source id step = true) :
    step.effects history.engine = [.sent source (encodeControl .synFailure id) true] ∧
      FailsOnce ⟨source, id, .receiver⟩ bound failures history.engine.store
        (history.step step).engine.store := by
  cases step with
  | send occasion target fields delivery => cases hbrings
  | work occasion task =>
    cases task with
    | receive sender datagram =>
      obtain ⟨rfl, hfirst⟩ : sender = source ∧ isFirstFor id datagram = true := by
        simpa [bringsFirst] using hbrings
      obtain ⟨hrejected, haccepts⟩ := honly rfl hfirst
      exact receive_failsOnce occasion hp h hcountable hbound hrejected haccepts
    | timeoutSweep => cases hbrings
    | deleteSweep => cases hbrings

lemma HasCounted.go_on (h : HasCounted ⟨source, id, .receiver⟩ bound count start
      history.engine.store) (hp : IsProper history.engine.store)
    (hcountable : bound < 4294967295)
    (hbound : history.engine.store.config.receiverFailureBound.toNat = bound)
    (honly : OnlyRejects source id history step) :
    HasCounted ⟨source, id, .receiver⟩ bound
      (count + if bringsFirst source id step then 1 else 0) start
      (history.step step).engine.store := by
  cases hbrings : bringsFirst source id step with
  | true => exact h.next (step_failsOnce hp h.failures hcountable hbound honly hbrings).2
  | false =>
    obtain ⟨hsame, hpending⟩ := step_sparing hp h.failures honly hbrings
    exact ⟨h.failures.congr hsame, hpending.trans h.pending⟩

lemma hasCounted_run (config : Config) (firstId : UInt32) (before steps : List EngineStep)
    (hcountable : config.receiverFailureBound < 4294967295)
    (hnone : ((History.starting config firstId).run before).engine.store.connections[
      (⟨source, id, .receiver⟩ : ConnectionKey)]? = none)
    (honly : Along (OnlyRejects source id) ((History.starting config firstId).run before) steps) :
    HasCounted ⟨source, id, .receiver⟩ config.receiverFailureBound.toNat
        (steps.countP (bringsFirst source id))
        ((History.starting config firstId).run before).engine.store
        (((History.starting config firstId).run before).run steps).engine.store ∧
      Along (fun history step => bringsFirst source id step = true →
        step.effects history.engine = [.sent source (encodeControl .synFailure id) true])
        ((History.starting config firstId).run before) steps := by
  have hsmall : config.receiverFailureBound.toNat < 4294967295 :=
    UInt32.lt_iff_toNat_lt.1 hcountable
  induction steps using List.reverseRecOn with
  | nil =>
    refine ⟨⟨⟨fun connection hconnection => ?_, iff_of_true hnone (Nat.zero_mod _), ?_⟩, ?_⟩, trivial⟩
    · cases hnone.symm.trans hconnection
    · exact Nat.le_trans (Nat.mod_le _ _) (Nat.zero_le _)
    · rw [List.countP_nil, Nat.zero_div, Nat.add_zero]
      rfl
  | append_singleton steps step ih =>
    obtain ⟨hearlier, hlast⟩ := along_concat.1 honly
    obtain ⟨hcounted, hanswered⟩ := ih hearlier
    have hp := isProper_run config firstId (before ++ steps)
    have hconfig := (isConfigured_run config firstId (before ++ steps)).configured
    rw [History.run_append] at hp hconfig
    have hbound := congrArg (fun config => config.receiverFailureBound.toNat) hconfig
    refine ⟨?_, along_concat.2 ⟨hanswered, fun hbrings => ?_⟩⟩
    · rw [History.run_concat, List.countP_append, List.countP_singleton]
      exact hcounted.go_on hp hsmall hbound hlast
    · exact (step_failsOnce hp hcounted.failures hsmall hbound hlast hbrings).1

end Runs

/-- Rejected first frames are counted. After any run that leaves no receiver's record for a message,
let there be first frames of this message that are all rejected, damaged or stale in any order, and
anything else in between, but no sweep, while the socket accepts the answers. Each of the first
frames is answered with one failure and with nothing else, and nothing is delivered. There is a
record if and only if their number is no multiple of the bound and one, and one more record is
pending for every so many of them. -/
theorem rejected_first_frames_counted (config : Config) (firstId : UInt32)
    (before steps : List EngineStep) (source : Address) (id : UInt32)
    (hcountable : config.receiverFailureBound < 4294967295)
    (hnone : ((History.starting config firstId).run before).engine.store.connection?
      ⟨source, id, .receiver⟩ = none)
    (honly : Along (OnlyRejects source id) ((History.starting config firstId).run before) steps) :
    let key : ConnectionKey := ⟨source, id, .receiver⟩
    let start := (History.starting config firstId).run before
    let history := start.run steps
    let count := steps.countP (bringsFirst source id)
    Along (fun history step => bringsFirst source id step = true →
        step.effects history.engine = [.sent source (encodeControl .synFailure id) true])
      start steps ∧
    ((history.engine.store.connection? key).isSome ↔
      ¬ config.receiverFailureBound.toNat + 1 ∣ count) ∧
    (pendingSerials history.engine.store key).length =
      (pendingSerials start.engine.store key).length +
        count / (config.receiverFailureBound.toNat + 1) := by
  intro key start history count
  rw [connection?_eq (isProper_run config firstId before).filed] at hnone
  obtain ⟨hcounted, hanswered⟩ := hasCounted_run config firstId before steps hcountable hnone honly
  have hw : WellFiled history.engine.store := by
    have hproper := isProper_run config firstId (before ++ steps)
    rw [History.run_append] at hproper
    exact hproper.filed
  refine ⟨hanswered, ?_, hcounted.pending⟩
  rw [connection?_eq hw, Nat.dvd_iff_mod_eq_zero, ← hcounted.failures.absent,
    Option.isSome_iff_ne_none]

/-- A message with the timestamp 3 was delivered, and the bound is 1. A damaged first frame opens a
record, a stale one removes it, and after a message in either direction another damaged one opens
the next record. -/
theorem rejected_first_frames_counted_mixed :
    let far : Address := .loopback 9002
    let config : Config := { selfAddress := .loopback 9001, receiverFailureBound := 1 }
    let occasion : Occasion := ⟨0, fun _ _ => true⟩
    let before : List EngineStep := [.work occasion (.receive far [0, 3, 0, 0, 0, 3, 0])]
    let damaged : Bytes := [1, 1, 0, 0, 0, 9, 0, 0, 0, 1, 0]
    let stale : Bytes := [1, 1, 0, 0, 0, 1, 0, 0, 0, 1, 0]
    let steps : List EngineStep := [.work occasion (.receive far damaged),
      .work occasion (.receive far stale), .work occasion (.receive far [0, 4, 0, 0, 0, 4, 0]),
      .send occasion far {} .reliable, .work occasion (.receive far damaged)]
    let key : ConnectionKey := ⟨far, 1, .receiver⟩
    let start := (History.starting config 1).run before
    config.receiverFailureBound < 4294967295 ∧
      start.engine.store.connection? key = none ∧ Along (OnlyRejects far 1) start steps ∧
      ((start.run steps).engine.store.connection? key).isSome = true ∧
      (pendingSerials (start.run steps).engine.store key).length = 1 := by
  intro far config occasion before damaged stale steps key start
  have hnone : start.engine.store.connection? key = none := by decide +kernel
  have honly : Along (OnlyRejects far 1) start steps := by
    have hdamaged : ∀ engine, IsRejectedSyn engine far damaged 1 := fun engine =>
      Or.inl ⟨{ flags := { syn := true }, messageId := some 1 }, 9, 1, by decide +kernel,
        by decide, rfl⟩
    have hread : Frame.decode stale =
        .ok ⟨{ flags := { syn := true }, messageId := some 1 }, .syn, some 1, {}⟩ := by
      decide +kernel
    have hstale : IsRejectedSyn (start.step (.work occasion (.receive far damaged))).engine far
        stale 1 :=
      Or.inr ⟨_, ⟨hread, rfl, rfl⟩, by decide +kernel⟩
    refine ⟨fun _ _ => ⟨hdamaged _, rfl⟩, fun _ _ => ⟨hstale, rfl⟩, ?_, trivial,
      fun _ _ => ⟨hdamaged _, rfl⟩, trivial⟩
    intro _ hfirst
    exact absurd hfirst (by decide +kernel)
  have hcount : steps.countP (bringsFirst far 1) = 3 := by decide +kernel
  obtain ⟨-, hlive, hpending⟩ :=
    rejected_first_frames_counted config 1 before steps far 1 (by decide) hnone honly
  rw [hcount] at hlive hpending
  refine ⟨by decide, hnone, honly, ?_, ?_⟩
  · rw [hlive]
    decide
  · rw [hpending]
    decide +kernel

end ReliableDatagrams.Proofs
