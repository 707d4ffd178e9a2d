import ReliableDatagrams.Proofs.RecordAges
import ReliableDatagrams.Proofs.TimestampMoves

/-!
# A store drains when traffic stops

With nothing but sweeps from some time on, every record is found idle in the end. A sweep that comes
late enough finds them all idle at once: a handshake then has one failure more, or is given up. When
the handshakes are gone nothing is sent any more, and such a sweep takes every peer one timeout closer to
its eviction. Sweeps that come earlier can only make this quicker.
-/

namespace ReliableDatagrams.Proofs

/-- An engine has come to a history by steps in the order of time, the last of them at some time. -/
inductive ReachedAt (config : Config) (firstId : UInt32) : Nat → History → Prop where
  | starting (time : Nat) : ReachedAt config firstId time (.starting config firstId)
  | step {time : Nat} {history : History} (before : ReachedAt config firstId time history)
      (step : EngineStep) (later : time ≤ step.time) :
      ReachedAt config firstId step.time (history.step step)

/-- From a history on, an engine only sweeps, the last time at some time. So many of its timeout sweeps
come late, that is, at least `gap` after the step before. -/
inductive SweepsFrom (gap start : Nat) (history : History) : Nat → Nat → History → Prop where
  | begun : SweepsFrom gap start history 0 start history
  | late {rounds time : Nat} {between : History}
      (before : SweepsFrom gap start history rounds time between) {occasion : Occasion}
      (late : time + gap ≤ occasion.now) :
      SweepsFrom gap start history (rounds + 1) occasion.now
        (between.step (.work occasion .timeoutSweep))
  | other {rounds time : Nat} {between : History}
      (before : SweepsFrom gap start history rounds time between) {occasion : Occasion}
      {task : EngineTask} (sweeps : task = .timeoutSweep ∨ task = .deleteSweep)
      (later : time ≤ occasion.now) :
      SweepsFrom gap start history rounds occasion.now (between.step (.work occasion task))

section Visits

variable {engine : Engine} {occasion : Occasion}

/-- Visits to the values that are filed under some keys, each of which only changes its own and leaves
it done if it was due. -/
lemma visitAll_done {κ α : Type} [DecidableEq κ] {visit : Engine → κ → Engine × List Effect}
    {filed : Engine → κ → Option α} {Inv : Engine → Prop} {Due Done : α → Prop}
    (hvisit : ∀ engine key, Inv engine → Inv (visit engine key).1 ∧
      (∀ other, key ≠ other → filed (visit engine key).1 other = filed engine other) ∧
        ∀ value, filed (visit engine key).1 key = some value →
          ∃ old, filed engine key = some old ∧ (Due old ∨ Done old → Done value))
    (keys : List κ) (engine : Engine) (h : Inv engine)
    (hall : ∀ key value, filed engine key = some value → Done value ∨ key ∈ keys ∧ Due value) :
    ∀ key value, filed (engine.visitAll visit keys).1 key = some value → Done value := by
  induction keys generalizing engine with
  | nil =>
    intro key value hvalue
    rcases hall key value hvalue with hdone | ⟨hmem, -⟩
    · exact hdone
    · cases hmem
  | cons first rest ih =>
    obtain ⟨hinv, hothers, hown⟩ := hvisit engine first h
    refine ih _ hinv fun key value hvalue => ?_
    by_cases hkey : first = key
    · subst hkey
      obtain ⟨old, hold, hdone⟩ := hown value hvalue
      exact Or.inl (hdone ((hall _ old hold).elim Or.inr fun hdue => Or.inl hdue.2))
    · rw [hothers key hkey] at hvalue
      refine (hall key value hvalue).imp_right fun hdue => ⟨?_, hdue.2⟩
      exact List.mem_of_ne_of_mem (Ne.symm hkey) hdue.1

/-- What the visit to a handshake leaves of it. -/
inductive SweptHandshake (now : Nat) (old : ConnectionRecord) : ConnectionRecord → Prop where
  | awake (early : old.idleTime now < old.timeout) : SweptHandshake now old old
  | failed {record : ConnectionRecord} (key : record.key = old.key)
      (role : old.key.role = .sender) (failures : record.failures = old.failures + 1)
      (failureBound : record.failureBound = old.failureBound)
      (within : record.failures ≤ record.failureBound) : SweptHandshake now old record

/-- Once a handshake is erased, the others are as they were. -/
lemma erased_at {key filed : ConnectionKey} (hkey : filed = key)
    {connections later : Std.ExtTreeMap ConnectionKey ConnectionRecord}
    (hlater : later = connections.erase filed) :
    (∀ other, key ≠ other → later[other]? = connections[other]?) ∧
      ∀ value, later[key]? ≠ some value := by
  subst hkey hlater
  refine ⟨fun other hother => ?_, fun value hvalue => ?_⟩
  · rw [getElem?_erase_eq, if_neg hother]
  · rw [getElem?_erase_eq, if_pos rfl] at hvalue
    cases hvalue

lemma sweepConnection_filed (hw : WellFiled engine.store) (key : ConnectionKey) :
    (∀ other, key ≠ other → (engine.sweepConnection occasion key).1.store.connections[other]? =
      engine.store.connections[other]?) ∧
    ∀ value, (engine.sweepConnection occasion key).1.store.connections[key]? = some value →
      ∃ old, engine.store.connections[key]? = some old ∧
        SweptHandshake occasion.now old value := by
  unfold Engine.sweepConnection
  rw [connection?_eq hw]
  cases hfiled : engine.store.connections[key]? with
  | none =>
    refine ⟨fun _ _ => rfl, fun value hvalue => ?_⟩
    rw [hfiled] at hvalue
    cases hvalue
  | some connection =>
    have hkey := (hw.connection key connection hfiled).1
    dsimp only
    split
    · rename_i hearly
      refine ⟨fun _ _ => rfl, fun value hvalue => ⟨connection, rfl, ?_⟩⟩
      rw [hfiled] at hvalue
      cases hvalue
      exact .awake hearly
    · rcases resetOrExpire_cases connection occasion.now with
        ⟨syn, hrole, hstatus, hsyn, hbound, hreset⟩ | ⟨given, hgiven, hreset⟩
      · have hretry := @resendSyn_move engine occasion _ _ syn hrole hstatus hsyn hbound rfl
        rw [hreset]
        dsimp only
        generalize (Engine.resendSyn _ _ _ syn).1 = after at hretry ⊢
        generalize (Engine.resendSyn _ _ _ syn).2 = effects at hretry
        cases hretry with
        | givenUp filed =>
          obtain ⟨hothers, hnone⟩ := erased_at hkey filed
          exact ⟨hothers, fun value hvalue => absurd hvalue (hnone value)⟩
        | repeated role status buffered written within filed =>
          rw [filed]
          refine ⟨fun other hother => ?_, fun value hvalue => ⟨connection, rfl, ?_⟩⟩
          · rw [getElem?_afterTransmit, if_neg]
            exact fun hsame => hother (hkey.symm.trans hsame)
          · rw [getElem?_afterTransmit, if_pos hkey] at hvalue
            split at hvalue
            · cases hvalue
              exact .failed rfl hrole rfl rfl within
            · cases hvalue
      · rw [hreset]
        have herased : ((engine.putConnection given).retire occasion.now given).store.connections =
            engine.store.connections.erase connection.key := by
          rw [connections_retire_putConnection, hgiven]
        obtain ⟨hothers, hnone⟩ := erased_at hkey herased
        exact ⟨hothers, fun value hvalue => absurd hvalue (hnone value)⟩

end Visits

/-- A handshake that so many late sweeps have come to. -/
structure HasFailed (rounds : Nat) (record : ConnectionRecord) : Prop where
  failures : rounds ≤ record.failures.toNat
  role : 0 < rounds → record.key.role = .sender
  within : record.key.role = .sender → record.failures ≤ record.failureBound ∧
    record.failureBound < 4294967295

/-- A peer that so many late sweeps have come to. -/
structure HasTimedOut (rounds : Nat) (record : PeerRecord) : Prop where
  timeouts : rounds ≤ record.timeouts.toNat
  kept : 0 < rounds → record.timeouts < record.maxTimeouts

section Sweeps

variable {engine : Engine} {occasion : Occasion} {rounds now : Nat}

/-- The count of a handshake that goes on has not overflowed. -/
lemma HasFailed.again {old record : ConnectionRecord} (h : HasFailed rounds old)
    (key : record.key = old.key) (role : old.key.role = .sender)
    (failures : record.failures = old.failures + 1)
    (failureBound : record.failureBound = old.failureBound)
    (within : record.failures ≤ record.failureBound) : HasFailed (rounds + 1) record := by
  obtain ⟨hroom, hcountable⟩ := h.within role
  have hcount := toNat_succ_of_lt (UInt32.lt_of_le_of_lt hroom hcountable)
  refine ⟨?_, fun _ => by rw [key, role], fun _ => ⟨within, by rwa [failureBound]⟩⟩
  rw [failures, hcount]
  exact Nat.succ_le_succ h.failures

lemma SweptHandshake.hasFailed {old record : ConnectionRecord}
    (h : SweptHandshake now old record) (hold : HasFailed rounds old) :
    HasFailed rounds record := by
  cases h with
  | awake early => exact hold
  | failed key role failures failureBound within =>
    have hagain := hold.again key role failures failureBound within
    exact ⟨Nat.le_of_succ_le hagain.failures, fun _ => by rw [key, role], hagain.within⟩

lemma SweptHandshake.hasFailed_succ {old record : ConnectionRecord}
    (h : SweptHandshake now old record) (hold : HasFailed rounds old)
    (hidle : old.timeout ≤ old.idleTime now) : HasFailed (rounds + 1) record := by
  cases h with
  | awake early => exact absurd early (Nat.not_lt.2 hidle)
  | failed key role failures failureBound within =>
    exact hold.again key role failures failureBound within

/-- What is below its bound, or zero, is counted without overflow. -/
lemma toNat_succ_timeouts {record : PeerRecord}
    (h : record.timeouts = 0 ∨ record.timeouts < record.maxTimeouts) :
    (record.timeouts + 1).toNat = record.timeouts.toNat + 1 := by
  rcases h with hzero | hfew
  · rw [hzero]
    rfl
  · exact toNat_succ_of_lt hfew

lemma HasTimedOut.swept {old record : PeerRecord} (h : HasTimedOut rounds old)
    (hcounted : old.timeouts = 0 ∨ old.timeouts < old.maxTimeouts)
    (hswept : sweptPeer? now old = some record) : HasTimedOut rounds record := by
  unfold sweptPeer? at hswept
  split at hswept
  · cases hswept
    exact h
  · split at hswept
    · cases hswept
    · rename_i hkept
      cases hswept
      refine ⟨?_, fun _ => UInt32.not_le.1 hkept⟩
      rw [PeerRecord.resetOrExpire, toNat_succ_timeouts hcounted]
      exact Nat.le_succ_of_le h.timeouts

lemma HasTimedOut.swept_succ {old record : PeerRecord} (h : HasTimedOut rounds old)
    (hcounted : old.timeouts = 0 ∨ old.timeouts < old.maxTimeouts)
    (hidle : old.timeout ≤ old.idleTime now) (hswept : sweptPeer? now old = some record) :
    HasTimedOut (rounds + 1) record := by
  unfold sweptPeer? at hswept
  rw [if_neg (Nat.not_lt.2 hidle)] at hswept
  split at hswept
  · cases hswept
  · rename_i hkept
    cases hswept
    refine ⟨?_, fun _ => UInt32.not_le.1 hkept⟩
    rw [PeerRecord.resetOrExpire, toNat_succ_timeouts hcounted]
    exact Nat.succ_le_succ h.timeouts

lemma timeoutSweep_handshakes {Due Done : ConnectionRecord → Prop} (hw : WellFiled engine.store)
    (hdone : ∀ old record, SweptHandshake occasion.now old record → Due old ∨ Done old →
      Done record)
    (hall : AllRecords Due engine.store.connections) :
    AllRecords Done (engine.timeoutSweep occasion).1.store.connections := by
  obtain ⟨hbetween, -, hsame, -⟩ :=
    visitPeers_swept occasion hw (@Std.ExtTreeMap.nodup_keys _ _ _ engine.store.peers _)
  unfold Engine.timeoutSweep
  dsimp only
  generalize (engine.visitAll (Engine.sweepPeer occasion) engine.store.peers.keys).1 = between
    at hbetween hsame ⊢
  refine @visitAll_done ConnectionKey ConnectionRecord _ (Engine.sweepConnection occasion)
    (fun later key => later.store.connections[key]?) (fun later => WellFiled later.store) Due Done
    ?_ between.store.connections.keys between hbetween ?_
  · intro later key hlater
    obtain ⟨hothers, hown⟩ := @sweepConnection_filed later occasion hlater key
    refine ⟨hlater.sweepConnection occasion key, hothers, fun value hvalue => ?_⟩
    obtain ⟨old, hold, hswept⟩ := hown value hvalue
    exact ⟨old, hold, hdone old value hswept⟩
  · intro key record hrecord
    refine Or.inr ⟨?_, hall key record (by rwa [hsame] at hrecord)⟩
    rw [Std.ExtTreeMap.mem_keys, Std.ExtTreeMap.mem_iff_isSome_getElem?, hrecord]
    rfl

lemma timeoutSweep_peers (hw : WellFiled engine.store) (hnone : engine.store.connections = ∅)
    (address : Address) : (engine.timeoutSweep occasion).1.store.peers[address]? =
      (engine.store.peers[address]?).bind (sweptPeer? occasion.now) := by
  obtain ⟨-, -, hsame, -⟩ :=
    visitPeers_swept occasion hw (@Std.ExtTreeMap.nodup_keys _ _ _ engine.store.peers _)
  have hvisits : (engine.timeoutSweep occasion).1 =
      (engine.visitAll (Engine.sweepPeer occasion) engine.store.peers.keys).1 := by
    unfold Engine.timeoutSweep
    dsimp only
    rw [hsame, hnone]
    rfl
  rw [hvisits]
  exact visitPeers_all occasion hw address

end Sweeps

/-- How far an engine has come after so many late sweeps: first the handshakes go, then the peers. -/
structure Draining (config : Config) (rounds time : Nat) (engine : Engine) : Prop where
  standing : Standing config time engine
  failed : AllRecords (HasFailed rounds) engine.store.connections
  timedOut : ∀ (address : Address) (record : PeerRecord),
    engine.store.peers[address]? = some record →
      HasTimedOut (rounds - (config.senderFailureBound.toNat + 1)) record

section Progress

variable {config : Config} {firstId : UInt32} {rounds time : Nat} {engine : Engine}

lemma hasTimedOut_zero (record : PeerRecord) : HasTimedOut 0 record :=
  ⟨Nat.zero_le _, fun h => absurd h (Nat.lt_irrefl 0)⟩

lemma Standing.draining (hcountable : config.senderFailureBound < 4294967295)
    (h : Standing config time engine) : Draining config 0 time engine where
  standing := h
  failed key record hrecord := by
    refine ⟨Nat.zero_le _, fun h => absurd h (Nat.lt_irrefl 0), fun hrole => ?_⟩
    have hsender := h.senders key record hrecord hrole
    rw [hsender.failureBound]
    exact ⟨hsender.failures, hcountable⟩
  timedOut _ record _ := by
    rw [Nat.zero_sub]
    exact hasTimedOut_zero record

lemma Draining.noHandshakes (h : Draining config rounds time engine)
    (hmany : config.senderFailureBound.toNat + 1 ≤ rounds) : engine.store.connections = ∅ := by
  ext key : 1
  rw [Std.ExtTreeMap.getElem?_empty]
  cases hrecord : engine.store.connections[key]? with
  | none => rfl
  | some record =>
    have hfailed := h.failed key record hrecord
    have hwithin := h.standing.senders key record hrecord (hfailed.role (by omega))
    have hrounds := Nat.le_trans hfailed.failures (UInt32.le_iff_toNat_le.1 hwithin.failures)
    omega

lemma Draining.late {history : History} (h : Draining config rounds time history.engine)
    {occasion : Occasion}
    (hlate : time + max config.connectionTimeout config.peerTimeout ≤ occasion.now) :
    Draining config (rounds + 1) occasion.now
      (history.step (.work occasion .timeoutSweep)).engine where
  standing := by
    have hlater : time ≤ (EngineStep.work occasion .timeoutSweep).time :=
      Nat.le_trans (Nat.le_add_right _ _) hlate
    exact h.standing.step hlater
  failed := by
    refine @timeoutSweep_handshakes history.engine occasion (fun old => HasFailed rounds old ∧
      old.timeout ≤ old.idleTime occasion.now) _ h.standing.aged.filed ?_ ?_
    · rintro old record hswept (⟨hfailed, hidle⟩ | hdone)
      · exact hswept.hasFailed_succ hfailed hidle
      · exact hswept.hasFailed hdone
    · intro key record hrecord
      have haged := h.standing.aged.handshakes key record hrecord
      have htouched := haged.touched
      refine ⟨h.failed key record hrecord, ?_⟩
      rw [haged.timeout, ConnectionRecord.idleTime]
      omega
  timedOut := by
    by_cases hmany : config.senderFailureBound.toNat + 1 ≤ rounds
    · have hrounds : rounds + 1 - (config.senderFailureBound.toNat + 1) =
          rounds - (config.senderFailureBound.toNat + 1) + 1 := by omega
      rw [hrounds]
      intro address record hrecord
      obtain ⟨old, hold, hswept⟩ := Option.bind_eq_some_iff.1
        ((timeoutSweep_peers h.standing.aged.filed (h.noHandshakes hmany) address).symm.trans hrecord)
      obtain ⟨htimeout, -, htouched, hcounted⟩ := h.standing.aged.peers address old hold
      refine (h.timedOut address old hold).swept_succ hcounted ?_ hswept
      rw [htimeout, PeerRecord.idleTime]
      omega
    · intro address record _
      have hrounds : rounds + 1 - (config.senderFailureBound.toNat + 1) = 0 := by omega
      rw [hrounds]
      exact hasTimedOut_zero record

/-- A sweep that comes early takes nothing back. -/
lemma Draining.other {history : History} (h : Draining config rounds time history.engine)
    {occasion : Occasion} (hlater : time ≤ occasion.now) {task : EngineTask}
    (hsweeps : task = .timeoutSweep ∨ task = .deleteSweep) :
    Draining config rounds occasion.now (history.step (.work occasion task)).engine := by
  have hnow : time ≤ (EngineStep.work occasion task).time := hlater
  have hstanding := h.standing.step hnow
  rcases hsweeps with rfl | rfl
  · refine ⟨hstanding, ?_, ?_⟩
    · exact timeoutSweep_handshakes h.standing.aged.filed
        (fun old record hswept hold => hswept.hasFailed (hold.elim id id)) h.failed
    · by_cases hmany : config.senderFailureBound.toNat + 1 ≤ rounds
      · intro address record hrecord
        obtain ⟨old, hold, hswept⟩ := Option.bind_eq_some_iff.1
          ((timeoutSweep_peers h.standing.aged.filed (h.noHandshakes hmany)
            address).symm.trans hrecord)
        have hcounted := (h.standing.aged.peers address old hold).2.2.2
        exact (h.timedOut address old hold).swept hcounted hswept
      · intro address record _
        rw [Nat.sub_eq_zero_of_le (by omega)]
        exact hasTimedOut_zero record
  · exact ⟨hstanding, h.failed, h.timedOut⟩

lemma ReachedAt.standing {history : History} (h : ReachedAt config firstId time history) :
    Standing config time history.engine := by
  induction h with
  | starting time => exact standing_starting config firstId time
  | step before step later ih => exact ih.step later

lemma SweepsFrom.draining {start : Nat} {history after : History}
    (hcountable : config.senderFailureBound < 4294967295)
    (h : SweepsFrom (max config.connectionTimeout config.peerTimeout) start history rounds time
      after)
    (hstart : Standing config start history.engine) : Draining config rounds time after.engine := by
  induction h with
  | begun => exact hstart.draining hcountable
  | late before late ih => exact ih.late late
  | other before sweeps later ih => exact ih.other later sweeps

end Progress

section Repeats

variable {engine : Engine} {occasion : Occasion} {bound : UInt32} {peer : Address} {id : UInt32}

/-- A sweep repeats the first frame of a message at most as often as its sender may fail. -/
lemma timeoutSweep_budget (hcountable : bound < 4294967295) (hw : WellFiled engine.store)
    (hs : SendersWithin bound engine.store.connections) (effects : List Effect)
    (hb : SynBudget bound engine.store.connections[(⟨peer, id, .sender⟩ : ConnectionKey)]?
      (1 + effects.countP (isSynFor peer id))) :
    SynBudget bound (engine.timeoutSweep occasion).1.store.connections[
        (⟨peer, id, .sender⟩ : ConnectionKey)]?
      (1 + (effects ++ (engine.timeoutSweep occasion).2).countP (isSynFor peer id)) := by
  let Inv (later : Engine) (sofar : List Effect) : Prop := WellFiled later.store ∧
    SendersWithin bound later.store.connections ∧
      SynBudget bound later.store.connections[(⟨peer, id, .sender⟩ : ConnectionKey)]?
        (1 + sofar.countP (isSynFor peer id))
  have hmove : ∀ {later after : Engine} {sofar more : List Effect}, Inv later sofar →
      WellFiled after.store → SweepMove later occasion after more → Inv after (sofar ++ more) := by
    rintro later after sofar more ⟨hfiled, hsenders, hbudget⟩ hafter hmove
    refine ⟨hafter, hmove.sendersWithin hsenders, ?_⟩
    rw [List.countP_append, ← Nat.add_assoc]
    exact hbudget.change hcountable (hmove.senderChange hfiled.connection hsenders)
  have hpeers := @visitAll_accumulates _ (Engine.sweepPeer occasion) Inv
    (fun later sofar address h => hmove h (h.1.sweepPeer occasion address)
      (sweepPeer_move occasion address))
    engine.store.peers.keys engine effects ⟨hw, hs, hb⟩
  have hall := @visitAll_accumulates _ (Engine.sweepConnection occasion) Inv
    (fun later sofar key h => hmove h (h.1.sweepConnection occasion key)
      (sweepConnection_move occasion h.1 key))
    (engine.visitAll (Engine.sweepPeer occasion)
      engine.store.peers.keys).1.store.connections.keys _ _ hpeers
  rw [List.append_assoc] at hall
  exact hall.2.2

lemma SweepsFrom.budget {config : Config} {rounds time start : Nat} {history after : History}
    (hcountable : config.senderFailureBound < 4294967295)
    (h : SweepsFrom (max config.connectionTimeout config.peerTimeout) start history rounds time
      after)
    (hstart : Standing config start history.engine) (peer : Address) (id : UInt32) :
    ∃ more, after.effects = history.effects ++ more ∧
      SynBudget config.senderFailureBound (after.senderRecord? peer id)
        (1 + more.countP (isSynFor peer id)) := by
  have hsweep : ∀ {time : Nat} {between : History} {occasion : Occasion},
      Standing config time between.engine → (∃ more, between.effects = history.effects ++ more ∧
        SynBudget config.senderFailureBound (between.senderRecord? peer id)
          (1 + more.countP (isSynFor peer id))) →
      ∃ more, (between.step (.work occasion .timeoutSweep)).effects = history.effects ++ more ∧
        SynBudget config.senderFailureBound
          ((between.step (.work occasion .timeoutSweep)).senderRecord? peer id)
          (1 + more.countP (isSynFor peer id)) := by
    rintro time between occasion hstanding ⟨more, hmore, hbudget⟩
    refine ⟨more ++ (between.engine.timeoutSweep occasion).2, ?_,
      timeoutSweep_budget hcountable hstanding.aged.filed hstanding.senders more hbudget⟩
    rw [← List.append_assoc, ← hmore]
    rfl
  induction h with
  | begun =>
    refine ⟨[], (List.append_nil _).symm, Nat.le_add_right 1 _, fun record _ _ => ?_⟩
    exact Nat.le_add_left 1 _
  | late before late ih => exact hsweep (before.draining hcountable hstart).standing ih
  | other before sweeps later ih =>
    rcases sweeps with rfl | rfl
    · exact hsweep (before.draining hcountable hstart).standing ih
    · obtain ⟨more, hmore, hbudget⟩ := ih
      exact ⟨more, (List.append_nil _).trans hmore, hbudget⟩

end Repeats

lemma peerMaxTimeouts_pos {config : Config} (h : config.validate = .ok ()) :
    0 < config.peerMaxTimeouts := by
  by_contra hmost
  have hnone : config.peerMaxTimeouts = 0 := UInt32.le_zero_iff.1 (UInt32.not_lt.1 hmost)
  unfold Config.validate at h
  rw [if_pos hnone] at h
  repeat (split at h; · cases h)
  cases h

/-- With the largest bound of 32 bits no failure is ever one too many. -/
lemma registerFailure_of_largest {record : ConnectionRecord}
    (h : record.failureBound = 4294967295) : record.registerFailure.2 = true := by
  refine decide_eq_true (UInt32.le_iff_toNat_le.2 ?_)
  rw [h]
  exact Nat.le_of_lt_succ (record.failures + 1).toNat_lt

/-- The count of failures starts anew, and the frame is repeated once more. -/
example : ((⟨0, ⟨.loopback 1, 1, .sender⟩, 0, 4294967295, false, .synSent, some [], 4294967295, 0⟩ :
    ConnectionRecord).resetOrExpire 0) =
      (⟨0, ⟨.loopback 1, 1, .sender⟩, 0, 4294967295, false, .synSent, some [], 0, 0⟩,
        .resend []) := by
  decide

end ReliableDatagrams.Proofs
