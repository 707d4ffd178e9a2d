import ReliableDatagrams.Proofs.Draining
import ReliableDatagrams.Proofs.Repeatability
import ReliableDatagrams.Proofs.Repetition

/-!
# What a sweep comes to

A sweep comes to all peers first, and then to all handshakes. A handshake that was idle for its
timeout is given up, unless it is a sender's that still waits for the first answer and has failures
left: then its first frame is repeated. To repeat a first frame counts as interaction with the peer
that it goes to, and takes a number from that peer's counter, whatever comes of the frame. So one
sweep may find a peer idle and write to it, and may write to a peer that it has just evicted, which
gets a new record.
-/

namespace ReliableDatagrams.Proofs

/-- The record of a handshake has the timeout of a configuration, and a sender's has its bound. -/
structure HasBounds (config : Config) (record : ConnectionRecord) : Prop where
  timeout : record.timeout = config.connectionTimeout
  failureBound : record.key.role = .sender → record.failureBound = config.senderFailureBound

/-- All records have the timeouts and the bounds of a configuration. -/
structure IsConfigured (config : Config) (store : Store) : Prop where
  configured : store.config = config
  handshakes : EveryRecord (HasBounds config) store
  peers : ∀ (address : Address) (record : PeerRecord), store.peers[address]? = some record →
    record.timeout = config.peerTimeout ∧ record.maxTimeouts = config.peerMaxTimeouts

section Configured

variable {config : Config} {store later : Store} {now : Nat}

lemma IsConfigured.reworks (h : IsConfigured config store) (hr : Reworks now store later) :
    IsConfigured config later where
  configured := (config_reworks hr).trans h.configured
  handshakes := by
    refine h.handshakes.reworks hr (fun _ hrecord => ⟨hrecord.timeout, hrecord.failureBound⟩) ?_
    intro old record hold hupdates
    have hbounds : HasBounds config old := by
      rcases hold with hfiled | ⟨-, serial, time, hnew⟩
      · exact h.handshakes.filed _ _ hfiled
      · rw [hnew, ← h.configured]
        refine ⟨rfl, fun hrole => ?_⟩
        simp only [Store.newConnection] at hrole ⊢
        rw [hrole]
    refine ⟨hupdates.timeout.trans hbounds.timeout, fun hrole => ?_⟩
    rw [hupdates.key] at hrole
    exact hupdates.failureBound.trans (hbounds.failureBound hrole)
  peers := by
    refine hr.forall_peers ?_ ?_ h.peers
    · intro address serial
      rw [← h.configured]
      exact ⟨rfl, rfl⟩
    · rintro old peer ⟨htimeout, hmost⟩ hupdates
      exact ⟨hupdates.timeout.trans htimeout, hupdates.maxTimeouts.trans hmost⟩

lemma isConfigured_run (config : Config) (firstId : UInt32) (steps : List EngineStep) :
    IsConfigured config ((History.starting config firstId).run steps).engine.store := by
  refine (@History.run_induction (History.starting config firstId)
    (fun history => IsConfigured config history.engine.store) ?_
    (wellFiled_starting config firstId) ?_ steps).2
  · intro history after effects hw h hmove
    cases hmove with
    | sent occasion target fields delivery =>
      exact h.reworks (reworks_send occasion hw target fields delivery)
    | received occasion source datagram => exact h.reworks (reworks_receive occasion hw _ _)
    | visitedPeer occasion address => exact h.reworks (reworks_sweepPeer occasion address)
    | visitedConnection occasion key => exact h.reworks (reworks_sweepConnection occasion hw key)
    | freed now => exact ⟨h.configured, h.handshakes.sweepDeleted _ _ _, h.peers⟩
  · refine ⟨rfl, ⟨?_, ?_⟩, ?_⟩
    · intro key record hrecord
      simp [History.starting, Engine.starting] at hrecord
    · intro serial entry record hentry
      simp [History.starting, Engine.starting] at hentry
    · intro address record hrecord
      simp [History.starting, Engine.starting] at hrecord

end Configured

/-- A sender has waited for the first answer for its timeout, and its bound allows for one failure
more. -/
structure IsOverdue (now : Nat) (record : ConnectionRecord) : Prop where
  role : record.key.role = .sender
  status : record.status = .synSent
  idle : record.timeout ≤ record.idleTime now
  bound : record.failures + 1 ≤ record.failureBound

instance (now : Nat) (record : ConnectionRecord) : Decidable (IsOverdue now record) :=
  decidable_of_iff (record.key.role = .sender ∧ record.status = .synSent ∧
    record.timeout ≤ record.idleTime now ∧ record.failures + 1 ≤ record.failureBound)
    ⟨fun h => ⟨h.1, h.2.1, h.2.2.1, h.2.2.2⟩, fun h => ⟨h.role, h.status, h.idle, h.bound⟩⟩

/-- The handshake with this key is a sender's that is overdue. -/
def isOverdueAt (engine : Engine) (now : Nat) (key : ConnectionKey) : Bool :=
  (engine.store.connections[key]?).any fun record => decide (IsOverdue now record)

lemma isOverdueAt_of_filed {engine : Engine} {now : Nat} {key : ConnectionKey}
    {record : ConnectionRecord} (h : engine.store.connections[key]? = some record) :
    isOverdueAt engine now key = decide (IsOverdue now record) := by
  rw [isOverdueAt, h]
  rfl

section Visits

variable {Sent : Address → UInt32 → FieldMap → Prop} {engine : Engine} (occasion : Occasion)
variable {key : ConnectionKey} {record : ConnectionRecord} {syn : Bytes}

lemma resetOrExpire_of_overdue {now : Nat} (h : IsOverdue now record)
    (hsyn : record.lastSent = some syn) :
    record.resetOrExpire now = (retried record now, .resend syn) := by
  unfold ConnectionRecord.resetOrExpire
  rw [h.role, h.status, hsyn]
  simp only [ConnectionRecord.registerFailure, h.bound, decide_true, if_true]
  rfl

lemma resetOrExpire_of_not_overdue {now : Nat} (h : ¬ IsOverdue now record)
    (hidle : record.timeout ≤ record.idleTime now) : (record.resetOrExpire now).2 = .expire := by
  rcases resetOrExpire_cases record now with ⟨syn, hrole, hstatus, hsyn, hbound, -⟩ |
    ⟨given, -, hreset⟩
  · exact absurd ⟨hrole, hstatus, hidle, hbound⟩ h
  · rw [hreset]

/-- What is kept for a sender that waits is a first frame of its message. -/
lemma IsOverdue.buffered (hs : SendersKeep Sent engine.store.connections)
    (hfiled : engine.store.connections[key]? = some record) {now : Nat}
    (h : IsOverdue now record) :
    ∃ fields syn, record.lastSent = some syn ∧ IsFirstFrame record.key.messageId fields syn := by
  obtain ⟨fields, -, hkeeps⟩ := hs key record hfiled h.role
  exact ⟨fields, hkeeps.waiting h.status⟩

variable (hw : WellFiled engine.store)

include hw

lemma sweepConnection_of_absent (hfiled : engine.store.connections[key]? = none) :
    engine.sweepConnection occasion key = (engine, []) := by
  unfold Engine.sweepConnection
  rw [connection?_eq hw, hfiled]

variable (hfiled : engine.store.connections[key]? = some record)

include hfiled

lemma sweepConnection_of_awake (hawake : record.idleTime occasion.now < record.timeout) :
    engine.sweepConnection occasion key = (engine, []) := by
  unfold Engine.sweepConnection
  rw [connection?_eq hw, hfiled]
  exact if_pos hawake

lemma sweepConnection_of_overdue (h : IsOverdue occasion.now record)
    (hsyn : record.lastSent = some syn) :
    engine.sweepConnection occasion key =
      (engine.putConnection (retried record occasion.now)).resendSyn occasion
        (retried record occasion.now) syn := by
  unfold Engine.sweepConnection
  rw [connection?_eq hw, hfiled]
  dsimp only
  rw [if_neg (Nat.not_lt.2 h.idle), resetOrExpire_of_overdue h hsyn]

lemma sweepConnection_of_expired (h : ¬ IsOverdue occasion.now record)
    (hidle : record.timeout ≤ record.idleTime occasion.now) :
    engine.sweepConnection occasion key =
      ((engine.putConnection (record.resetOrExpire occasion.now).1).retire occasion.now
        (record.resetOrExpire occasion.now).1, []) := by
  have hexpire := resetOrExpire_of_not_overdue h hidle
  unfold Engine.sweepConnection
  rw [connection?_eq hw, hfiled]
  dsimp only
  rw [if_neg (Nat.not_lt.2 hidle)]
  cases hreset : record.resetOrExpire occasion.now with
  | mk given action =>
    rw [hreset] at hexpire
    dsimp only at hexpire ⊢
    rw [hexpire]

end Visits

/-- Two stores have the same of all peers, and the same serial number is next. -/
structure SamePeers (store later : Store) : Prop where
  peers : later.peers = store.peers
  nextSerial : later.nextSerial = store.nextSerial

section Peers

variable {Sent : Address → UInt32 → FieldMap → Prop} {engine : Engine} (occasion : Occasion)

lemma samePeers_putConnection (engine : Engine) (connection : ConnectionRecord) :
    SamePeers engine.store (engine.putConnection connection).store :=
  ⟨rfl, rfl⟩

lemma SamePeers.retire {store : Store} (h : SamePeers store engine.store) (now : Nat)
    (connection : ConnectionRecord) : SamePeers store (engine.retire now connection).store := by
  refine ⟨(peers_retire _ _ _).trans h.peers, ?_⟩
  rw [← h.nextSerial]
  simp only [Engine.retire, Store.markForDeletion, Record.handle, Record.key, Record.serial]
  cases engine.store.connections[connection.key]? with
  | none => rfl
  | some filed => exact apply_ite Store.nextSerial _ _ _ |>.trans (ite_self _)

lemma SamePeers.transmit {store : Store} (h : SamePeers store engine.store)
    (connection : ConnectionRecord) (frame : Bytes) :
    SamePeers store (engine.transmit occasion connection frame).1.store := by
  have hput : SamePeers store
      (engine.putConnection { connection with lastSent := some frame }).store :=
    ⟨h.peers, h.nextSerial⟩
  unfold Engine.transmit
  dsimp only
  split
  · exact hput
  · exact hput.retire _ _

lemma drawTimestamp_putConnection (now : Nat) (address : Address) (connection : ConnectionRecord) :
    (engine.putConnection connection).drawTimestamp now address =
      ((engine.drawTimestamp now address).1.putConnection connection,
        (engine.drawTimestamp now address).2) := by
  unfold Engine.drawTimestamp Engine.withPeer Store.peer Engine.putConnection Store.putConnection
  cases hpeer : engine.store.peers[address]? <;> rfl

/-- To repeat a first frame takes a number for its peer, whatever comes of the frame. -/
lemma samePeers_resendSyn (hw : WellFiled engine.store) {connection : ConnectionRecord}
    {id : UInt32} {fields : FieldMap} {syn : Bytes} (hfirst : IsFirstFrame id fields syn) :
    SamePeers (engine.drawTimestamp occasion.now connection.key.peer).1.store
      (engine.resendSyn occasion connection syn).1.store := by
  have hsame : SamePeers (engine.drawTimestamp occasion.now connection.key.peer).1.store
      (engine.drawTimestamp occasion.now connection.key.peer).1.store := ⟨rfl, rfl⟩
  obtain ⟨frame, -, -, hrestamp⟩ :=
    restamp_of_isFirstFrame hw hfirst occasion.now connection.key.peer
  unfold Engine.resendSyn
  rw [hrestamp]
  split
  · rename_i stamped hr
    cases (Prod.mk.inj hr).1
    exact hsame.retire _ _
  · rename_i stamped again hr
    cases (Prod.mk.inj hr).1
    split
    · exact hsame.transmit occasion _ _
    · exact hsame

/-- A visit to a handshake draws a number for its peer if it is overdue. -/
lemma samePeers_sweepConnection (hw : WellFiled engine.store)
    (hs : SendersKeep Sent engine.store.connections) (key : ConnectionKey) :
    SamePeers
      (if isOverdueAt engine occasion.now key then (engine.drawTimestamp occasion.now key.peer).1
        else engine).store
      (engine.sweepConnection occasion key).1.store := by
  cases hfiled : engine.store.connections[key]? with
  | none =>
    rw [sweepConnection_of_absent occasion hw hfiled, isOverdueAt, hfiled]
    exact ⟨rfl, rfl⟩
  | some record =>
    rw [isOverdueAt_of_filed hfiled]
    by_cases hoverdue : IsOverdue occasion.now record
    · obtain ⟨fields, syn, hsyn, hfirst⟩ := hoverdue.buffered hs hfiled
      obtain ⟨hkey, hkept⟩ := hw.connection _ _ hfiled
      have hput := @wellFiled_putConnection engine hw (retried record occasion.now) hkept
      have hresent := @samePeers_resendSyn _ occasion hput (retried record occasion.now) _ _ _
        hfirst
      have hpeer : (retried record occasion.now).key.peer = key.peer := congrArg _ hkey
      rw [hpeer, drawTimestamp_putConnection] at hresent
      rw [if_pos (decide_eq_true hoverdue),
        sweepConnection_of_overdue occasion hw hfiled hoverdue hsyn]
      exact ⟨hresent.peers, hresent.nextSerial⟩
    · rw [if_neg (by simpa using hoverdue)]
      by_cases hidle : record.timeout ≤ record.idleTime occasion.now
      · rw [sweepConnection_of_expired occasion hw hfiled hoverdue hidle]
        exact (samePeers_putConnection _ _).retire _ _
      · rw [sweepConnection_of_awake occasion hw hfiled (Nat.lt_of_not_le hidle)]
        exact ⟨rfl, rfl⟩

/-- The record of a peer after so many frames were written to it. -/
def writtenTo (now count : Nat) (record : PeerRecord) : PeerRecord :=
  { record.touch now with nextTimestamp := record.nextTimestamp + .ofNat count }

/-- So many frames were written to a peer, of which this was known before and that is afterwards. If
there are any, it has a record then, and a new one if it had none. -/
structure WritesTo (store : Store) (now : Nat) (peer : Address) (count : Nat)
    (known found : Option PeerRecord) : Prop where
  unwritten : count = 0 → found = known
  written : 0 < count → ∃ serial, store.nextSerial ≤ serial ∧
    found = some (writtenTo now count
      (known.getD ({ store with nextSerial := serial }.newPeer now peer)))

lemma touch_writtenTo (now count : Nat) (record : PeerRecord) :
    (((writtenTo now count record).touch now).drawTimestamp).1 =
      writtenTo now (count + 1) record := by
  simp only [writtenTo, PeerRecord.touch, PeerRecord.drawTimestamp, UInt16.add_assoc,
    UInt16.ofNat_add]
  rfl

variable {between : Engine} {peer : Address} {count : Nat}

lemma WritesTo.draw {known : Option PeerRecord}
    (h : WritesTo engine.store occasion.now peer count known between.store.peers[peer]?)
    (hw : WellFiled between.store) (hconfig : between.store.config = engine.store.config)
    (hnext : engine.store.nextSerial ≤ between.store.nextSerial) :
    WritesTo engine.store occasion.now peer (count + 1) known
      (between.drawTimestamp occasion.now peer).1.store.peers[peer]? where
  unwritten hzero := absurd hzero (Nat.succ_ne_zero count)
  written _ := by
    rw [(drawTimestamp_eq hw occasion.now peer).1, getElem?_insert_eq, if_pos rfl, peerOrNew]
    rcases Nat.eq_zero_or_pos count with rfl | hsome
    · refine ⟨between.store.nextSerial, hnext, ?_⟩
      rw [h.unwritten rfl]
      simp only [Store.newPeer, hconfig]
      rfl
    · obtain ⟨serial, hserial, hpeer⟩ := h.written hsome
      refine ⟨serial, hserial, ?_⟩
      rw [hpeer, Option.getD_some, touch_writtenTo]

end Peers

/-- What a sweep leaves of a peer before it comes to the handshakes. -/
def sweptOf (engine : Engine) (now : Nat) (peer : Address) : Option PeerRecord :=
  (engine.store.peers[peer]?).bind (sweptPeer? now)

/-- How many first frames are repeated to a peer in visits to some handshakes. -/
def repeatsTo (engine : Engine) (now : Nat) (peer : Address) (keys : List ConnectionKey) : Nat :=
  keys.countP fun key => decide (key.peer = peer) && isOverdueAt engine now key

/-- Visits to some handshakes, as other handshakes and all peers see them. -/
structure VisitsHandshakes (Sent : Address → UInt32 → FieldMap → Prop) (engine : Engine)
    (now : Nat) (keys : List ConnectionKey) (after : Engine) : Prop where
  filed : WellFiled after.store
  senders : SendersKeep Sent after.store.connections
  config : after.store.config = engine.store.config
  nextSerial : engine.store.nextSerial ≤ after.store.nextSerial
  others : ∀ key ∉ keys, after.store.connections[key]? = engine.store.connections[key]?
  peers : ∀ peer, WritesTo engine.store now peer (repeatsTo engine now peer keys)
    engine.store.peers[peer]? after.store.peers[peer]?

section VisitsToHandshakes

variable {Sent : Address → UInt32 → FieldMap → Prop} {engine : Engine} (occasion : Occasion)
variable {keys : List ConnectionKey}

lemma visitAll_concat {κ : Type} (visit : Engine → κ → Engine × List Effect) (engine : Engine)
    (keys : List κ) (key : κ) : engine.visitAll visit (keys ++ [key]) =
      ((visit (engine.visitAll visit keys).1 key).1,
        (engine.visitAll visit keys).2 ++ (visit (engine.visitAll visit keys).1 key).2) := by
  rw [visitAll_append]
  simp only [Engine.visitAll, List.append_nil]

lemma isOverdueAt_congr {between : Engine} {now : Nat} {key : ConnectionKey}
    (h : between.store.connections[key]? = engine.store.connections[key]?) :
    isOverdueAt between now key = isOverdueAt engine now key := by
  rw [isOverdueAt, h, isOverdueAt]

lemma isOverdueAt_of_connections {between : Engine}
    (h : between.store.connections = engine.store.connections) (now : Nat) :
    isOverdueAt between now = isOverdueAt engine now :=
  funext fun key => isOverdueAt_congr (by rw [h])

lemma repeatsTo_congr {between : Engine}
    (h : between.store.connections = engine.store.connections) (now : Nat) (peer : Address) :
    repeatsTo between now peer keys = repeatsTo engine now peer keys := by
  rw [repeatsTo, isOverdueAt_of_connections h, repeatsTo]

lemma repeatsTo_concat (engine : Engine) (now : Nat) (peer : Address) (keys : List ConnectionKey)
    (key : ConnectionKey) : repeatsTo engine now peer (keys ++ [key]) =
      repeatsTo engine now peer keys +
        if key.peer = peer ∧ isOverdueAt engine now key = true then 1 else 0 := by
  simp [repeatsTo, List.countP_append, List.countP_singleton]

lemma VisitsHandshakes.visit {between : Engine} {key : ConnectionKey}
    (h : VisitsHandshakes Sent engine occasion.now keys between) (hkey : key ∉ keys) :
    VisitsHandshakes Sent engine occasion.now (keys ++ [key])
      (between.sweepConnection occasion key).1 := by
  have hsame := samePeers_sweepConnection occasion h.filed h.senders key
  rw [isOverdueAt_congr (h.others key hkey)] at hsame
  have hfaithful := (sweepConnection_move occasion h.filed key).faithful h.senders
  refine ⟨h.filed.sweepConnection occasion key, hfaithful.senders, ?_, ?_, ?_, ?_⟩
  · exact (config_reworks (reworks_sweepConnection occasion h.filed key)).trans h.config
  · refine Nat.le_trans h.nextSerial ?_
    rw [hsame.nextSerial]
    split
    · unfold Engine.drawTimestamp Engine.withPeer Store.peer
      cases between.store.peers[key.peer]? with
      | none => exact Nat.le_succ _
      | some record => exact Nat.le_refl _
    · exact Nat.le_refl _
  · intro other hother
    rw [List.mem_append, List.mem_singleton, not_or] at hother
    rw [(sweepConnection_filed h.filed key).1 other (Ne.symm hother.2), h.others other hother.1]
  · intro peer
    have hpeer := h.peers peer
    rw [repeatsTo_concat]
    by_cases hoverdue : isOverdueAt engine occasion.now key = true
    · rw [if_pos hoverdue] at hsame
      rw [hsame.peers]
      by_cases hown : key.peer = peer
      · subst hown
        rw [if_pos ⟨rfl, hoverdue⟩]
        exact hpeer.draw occasion h.filed h.config h.nextSerial
      · rw [if_neg fun hboth => hown hboth.1]
        rwa [(drawTimestamp_eq h.filed occasion.now key.peer).1, getElem?_insert_eq, if_neg hown]
    · rw [if_neg hoverdue] at hsame
      rw [if_neg fun hboth => hoverdue hboth.2, hsame.peers]
      exact hpeer

lemma visitHandshakes (hw : WellFiled engine.store)
    (hs : SendersKeep Sent engine.store.connections) (hnodup : keys.Nodup) :
    VisitsHandshakes Sent engine occasion.now keys
      (engine.visitAll (Engine.sweepConnection occasion) keys).1 := by
  induction keys using List.reverseRecOn with
  | nil =>
    refine ⟨hw, hs, rfl, Nat.le_refl _, fun _ _ => rfl, fun peer => ⟨fun _ => rfl, fun h => ?_⟩⟩
    exact absurd h (Nat.lt_irrefl 0)
  | append_singleton keys key ih =>
    rw [← List.concat_eq_append, List.nodup_concat] at hnodup
    rw [visitAll_concat]
    exact (ih hnodup.2).visit occasion hnodup.1

end VisitsToHandshakes

end ReliableDatagrams.Proofs
