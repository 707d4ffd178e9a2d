import ReliableDatagrams.Proofs.Answers
import ReliableDatagrams.Proofs.EngineRuns
import ReliableDatagrams.Proofs.FrameRoundTrip

/-!
# How often a first frame is sent

Calls of `send`, sweeps and failures from the receiver all hand first frames to the socket, and the
two latter count failures. `SenderChange` says what a move can do to one message: a frame more is a
failure more, and only while the sender waits for the first answer. With the failure bound n no
message is sent more than 1 + n times, whatever comes in, and never again once a success was seen.
-/

namespace ReliableDatagrams.Proofs

def synId? (bytes : Bytes) : Option UInt32 :=
  match Frame.decode bytes with
  | .ok frame => if frame.kind = .syn then frame.header.messageId else none
  | .error _ => none

/-- The first frame of a message is handed to the socket, whether that accepts it or not. -/
def isSynFor (peer : Address) (id : UInt32) : Effect → Bool
  | .sent target bytes _ => decide (target = peer ∧ synId? bytes = some id)
  | .delivered _ => false

lemma synId?_of_reads {bytes : Bytes} {id : UInt32} {frame : Frame}
    (h : Reads bytes .syn id frame) : synId? bytes = some id := by
  rw [synId?, h.decoded]
  simp only [h.kind, if_true, h.id]

lemma reads_of_synId? {bytes : Bytes} {id : UInt32} (h : synId? bytes = some id) :
    ∃ frame, Reads bytes .syn id frame := by
  unfold synId? at h
  split at h
  · rename_i frame hd
    split at h
    · rename_i hkind
      exact ⟨frame, hd, hkind, h⟩
    · cases h
  · cases h

lemma synId?_of_encode {fields : List FieldValues} {options : FrameOptions} {bytes : Bytes}
    (h : encode fields options = .ok bytes) : synId? bytes = options.messageId := by
  rw [synId?, decode_of_encode h]
  cases hid : options.messageId <;> simp [writtenFrame, dataKind, hid]

lemma synId?_encodeControl {kind : FrameKind} (hkind : kind.isControl = true) (id : UInt32) :
    synId? (encodeControl kind id) = none := by
  unfold synId?
  by_cases hid : id = 0
  · have hzero : Frame.decode (encodeControl kind 0) = .error .zeroMessageId := by
      cases kind <;> first | rfl | exact absurd hkind (by decide)
    rw [hid, hzero]
  · rw [decode_encodeControl hkind hid]
    have hother : kind ≠ .syn := by
      intro hsyn
      rw [hsyn] at hkind
      exact absurd hkind (by decide)
    simp only [if_neg hother]

section Counting

variable (peer : Address) (id : UInt32)

lemma countP_isSynFor_control {kind : FrameKind} (hkind : kind.isControl = true)
    (target : Address) (seen : UInt32) (accepted : Bool) :
    [Effect.sent target (encodeControl kind seen) accepted].countP (isSynFor peer id) = 0 := by
  simp [isSynFor, synId?_encodeControl hkind]

lemma countP_isSynFor_syn {bytes : Bytes} {seen : UInt32} (hsyn : synId? bytes = some seen)
    (target : Address) (accepted : Bool) :
    [Effect.sent target bytes accepted].countP (isSynFor peer id) =
      if target = peer ∧ seen = id then 1 else 0 := by
  simp [List.countP_cons, isSynFor, hsyn]

end Counting

/-- A sender's record between two moves. -/
structure IsSenderWithin (bound : UInt32) (record : ConnectionRecord) : Prop where
  failureBound : record.failureBound = bound
  failures : record.failures ≤ bound
  status : record.status = .synSent ∨ record.status = .ackSent
  buffered : record.status = .synSent → ∀ syn, record.lastSent = some syn →
    synId? syn = some record.key.messageId

def SendersWithin (bound : UInt32) : Std.ExtTreeMap ConnectionKey ConnectionRecord → Prop :=
  AllRecords fun record => record.key.role = .sender → IsSenderWithin bound record

section Senders

variable {engine after : Engine} {effects : List Effect} {bound : UInt32} {occasion : Occasion}

lemma Restamped.synId? {timestamp : UInt16} {syn frame : Bytes} {id : UInt32}
    (h : Restamped timestamp syn frame) (hsyn : Proofs.synId? syn = some id) :
    Proofs.synId? frame = some id := by
  obtain ⟨decoded, hdecoded, hwritten⟩ := h
  rw [synId?_of_encode hwritten]
  rw [Proofs.synId?, hdecoded] at hsyn
  dsimp only at hsyn ⊢
  split at hsyn
  · exact hsyn
  · cases hsyn

lemma sendersWithin_receiver {record : ConnectionRecord} (hrole : record.key.role = .receiver) :
    record.key.role = .sender → IsSenderWithin bound record := by
  intro hsender
  rw [hrole] at hsender
  cases hsender

lemma RetryMove.sendersWithin {connection : ConnectionRecord}
    (hs : SendersWithin bound engine.store.connections)
    (hconnection : connection.key.role = .sender → IsSenderWithin bound connection)
    (h : RetryMove engine occasion connection after effects) :
    SendersWithin bound after.store.connections := by
  cases h with
  | givenUp filed =>
    rw [filed]
    exact hs.erase _
  | repeated role status buffered written within filed =>
    have hsender := hconnection role
    rw [filed]
    apply hs.afterTransmit
    intro _ _
    have hroom := hsender.failureBound ▸ within
    refine ⟨hsender.failureBound, hroom, Or.inl status, ?_⟩
    intro _ syn hsyn
    cases hsyn
    exact written.synId? (hsender.buffered status _ buffered)

lemma ReceiveMove.sendersWithin {source : Address} {datagram : Bytes}
    (hf : ConnectionsFiled engine.store.connections)
    (hs : SendersWithin bound engine.store.connections)
    (h : ReceiveMove engine occasion source datagram after effects) :
    SendersWithin bound after.store.connections := by
  cases h with
  | ignored same => rwa [same]
  | plain decoded kind fresh same => rwa [same]
  | rejected invalid record waiting filed =>
    have hkey := (record.key hf).1
    rw [filed]
    split
    · refine hs.afterTransmit fun _ => sendersWithin_receiver ?_
      simp only [hkey]
    · exact hs.erase _
  | confirmed reads record opened filed =>
    have hkey := (hf _ _ record).1
    rw [filed]
    refine hs.afterTransmit fun _ => sendersWithin_receiver ?_
    simp only [hkey]
  | accepted reads record waiting fresh filed =>
    have hkey := (record.key hf).1
    rw [filed]
    refine hs.afterTransmit fun _ => sendersWithin_receiver ?_
    simp only [hkey]
  | acknowledged reads record status filed =>
    have hkey := (hf _ _ record).1
    rw [filed]
    refine hs.afterTransmit fun _ _ => ?_
    have hsender := hs _ _ record (by rw [hkey])
    refine ⟨hsender.failureBound, hsender.failures, Or.inr rfl, ?_⟩
    intro hwaiting
    cases hwaiting
  | retried reads record retry => exact retry.sendersWithin hs (hs _ _ record)
  | closed reads filed =>
    rw [filed]
    exact hs.erase _
  | finished reads record status filed =>
    rw [filed]
    exact hs.erase _

lemma SweepMove.sendersWithin (hs : SendersWithin bound engine.store.connections)
    (h : SweepMove engine occasion after effects) : SendersWithin bound after.store.connections := by
  cases h with
  | kept same => rwa [same]
  | retried record retry => exact retry.sendersWithin hs (hs _ _ record)
  | expired filed =>
    rw [filed]
    exact hs.erase _

lemma IsFiledOrNew.sender {store : Store} (hs : SendersWithin bound store.connections)
    (hbound : store.config.senderFailureBound = bound) {key : ConnectionKey}
    {record : ConnectionRecord} (h : IsFiledOrNew store key record) (hrole : key.role = .sender)
    (hkey : record.key = key) : record.failureBound = bound ∧ record.failures ≤ bound := by
  rcases h with hfiled | ⟨-, serial, now, rfl⟩
  · have hsender := hs _ _ hfiled (by rw [hkey, hrole])
    exact ⟨hsender.failureBound, hsender.failures⟩
  · refine ⟨?_, Nat.zero_le _⟩
    simp only [Store.newConnection, hrole]
    exact hbound

lemma SendMove.sendersWithin {target : Address} {fields : FieldMap}
    {result : Except SendError (Option UInt32)} (hf : ConnectionsFiled engine.store.connections)
    (hs : SendersWithin bound engine.store.connections)
    (hbound : engine.store.config.senderFailureBound = bound)
    (h : SendMove engine occasion target fields after effects result) :
    SendersWithin bound after.store.connections := by
  cases h with
  | failed ids same => rwa [same]
  | plain drawn unforced written ids same => rwa [same]
  | first drawn written record ids filed =>
    have hkey := (record.key hf).1
    obtain ⟨hfailureBound, hfailures⟩ := record.sender hs hbound rfl hkey
    rw [filed]
    refine hs.afterTransmit fun _ _ => ⟨hfailureBound, hfailures, Or.inl rfl, ?_⟩
    intro _ syn hsyn
    cases hsyn
    simp only [hkey]
    exact synId?_of_encode written

end Senders

/-- From one record of a sender to the next, with the number of first frames that are sent. -/
inductive SenderChange (bound : UInt32) (before : Option ConnectionRecord) :
    Option ConnectionRecord → Nat → Prop where
  | kept : SenderChange bound before before 0
  | gone : SenderChange bound before none 0
  | seen {record later : ConnectionRecord} (there : before = some record)
      (status : later.status = .ackSent) : SenderChange bound before (some later) 0
  | repeated {record : ConnectionRecord} {after : Option ConnectionRecord}
      (there : before = some record) (waiting : record.status = .synSent)
      (room : record.failures ≤ bound) (within : record.failures + 1 ≤ bound)
      (counted : ∀ later, after = some later → later.failures = record.failures + 1) :
      SenderChange bound before after 1

section Changes

variable {engine after : Engine} {effects : List Effect} {bound : UInt32} {occasion : Occasion}
variable {peer : Address} {id : UInt32}

lemma getElem?_afterTransmit (connections : Std.ExtTreeMap ConnectionKey ConnectionRecord)
    (connection : ConnectionRecord) (frame : Bytes) (accepted : Bool) (key : ConnectionKey) :
    (afterTransmit connections connection frame accepted)[key]? =
      if connection.key = key then
        if accepted then some { connection with lastSent := some frame } else none
      else connections[key]? := by
  unfold afterTransmit
  split
  · rw [getElem?_insert_eq]
  · rw [getElem?_erase_eq]

lemma senderChange_erase (connections : Std.ExtTreeMap ConnectionKey ConnectionRecord)
    (erased key : ConnectionKey) :
    SenderChange bound connections[key]? (connections.erase erased)[key]? 0 := by
  rw [getElem?_erase_eq]
  split
  · exact .gone
  · exact .kept

lemma senderChange_other {connections : Std.ExtTreeMap ConnectionKey ConnectionRecord}
    {connection : ConnectionRecord} {key : ConnectionKey} (h : connection.key ≠ key)
    (frame : Bytes) (accepted : Bool) : SenderChange bound connections[key]?
      (afterTransmit connections connection frame accepted)[key]? 0 := by
  rw [getElem?_afterTransmit, if_neg h]
  exact .kept

lemma RetryMove.senderChange {connection : ConnectionRecord}
    (hs : SendersWithin bound engine.store.connections)
    (hfiled : engine.store.connections[connection.key]? = some connection)
    (h : RetryMove engine occasion connection after effects) :
    SenderChange bound engine.store.connections[(⟨peer, id, .sender⟩ : ConnectionKey)]?
      after.store.connections[(⟨peer, id, .sender⟩ : ConnectionKey)]?
      (effects.countP (isSynFor peer id)) := by
  cases h with
  | givenUp filed =>
    rw [filed]
    exact senderChange_erase _ _ _
  | repeated role status buffered written within filed =>
    have hsender := hs _ _ hfiled role
    have hsyn := written.synId? (hsender.buffered status _ buffered)
    rw [filed, countP_isSynFor_syn _ _ hsyn, getElem?_afterTransmit]
    by_cases hkey : connection.key = ⟨peer, id, .sender⟩
    · have hsame : connection.key.peer = peer ∧ connection.key.messageId = id := by simp [hkey]
      rw [if_pos hsame, if_pos hkey]
      refine .repeated (hkey ▸ hfiled) status hsender.failures
        (hsender.failureBound ▸ within) ?_
      intro later hlater
      split at hlater
      · cases hlater
        rfl
      · cases hlater
    · have hother : ¬ (connection.key.peer = peer ∧ connection.key.messageId = id) := by
        rintro ⟨hpeer, hid⟩
        exact hkey (by rw [← hpeer, ← hid, ← role])
      rw [if_neg hother, if_neg hkey]
      exact .kept

lemma ReceiveMove.senderChange {source : Address} {datagram : Bytes}
    (hf : ConnectionsFiled engine.store.connections)
    (hs : SendersWithin bound engine.store.connections)
    (h : ReceiveMove engine occasion source datagram after effects) :
    SenderChange bound engine.store.connections[(⟨peer, id, .sender⟩ : ConnectionKey)]?
      after.store.connections[(⟨peer, id, .sender⟩ : ConnectionKey)]?
      (effects.countP (isSynFor peer id)) := by
  cases h with
  | ignored same =>
    rw [same]
    exact .kept
  | plain decoded kind fresh same =>
    rw [same]
    exact .kept
  | rejected invalid record waiting filed =>
    have hkey := (record.key hf).1
    rw [filed, countP_isSynFor_control _ _ rfl]
    split
    · apply senderChange_other
      simp [hkey]
    · exact senderChange_erase _ _ _
  | confirmed reads record opened filed =>
    have hkey := (hf _ _ record).1
    rw [filed, countP_isSynFor_control _ _ rfl]
    apply senderChange_other
    simp [hkey]
  | accepted reads record waiting fresh filed =>
    have hkey := (record.key hf).1
    rw [filed, List.countP_cons_of_neg
        (by simp [isSynFor, @synId?_encodeControl .synSuccess rfl]),
      List.countP_cons_of_neg (by simp [isSynFor]), List.countP_nil]
    apply senderChange_other
    simp [hkey]
  | acknowledged reads record status filed =>
    have hkey := (hf _ _ record).1
    rw [filed, countP_isSynFor_control _ _ rfl, getElem?_afterTransmit]
    split
    · rename_i hown
      split
      · exact .seen (by rw [← hown, hkey, record]) rfl
      · exact .gone
    · exact .kept
  | retried reads record retry =>
    have hkey := (hf _ _ record).1
    exact retry.senderChange hs (by rw [hkey]; exact record)
  | closed reads filed =>
    rw [filed, countP_isSynFor_control _ _ rfl]
    exact senderChange_erase _ _ _
  | finished reads record status filed =>
    rw [filed]
    exact senderChange_erase _ _ _

lemma SweepMove.senderChange (hf : ConnectionsFiled engine.store.connections)
    (hs : SendersWithin bound engine.store.connections)
    (h : SweepMove engine occasion after effects) :
    SenderChange bound engine.store.connections[(⟨peer, id, .sender⟩ : ConnectionKey)]?
      after.store.connections[(⟨peer, id, .sender⟩ : ConnectionKey)]?
      (effects.countP (isSynFor peer id)) := by
  cases h with
  | kept same =>
    rw [same]
    exact .kept
  | retried record retry =>
    have hkey := (hf _ _ record).1
    exact retry.senderChange hs (by rw [hkey]; exact record)
  | expired filed =>
    rw [filed]
    exact senderChange_erase _ _ _

/-- A call of `send` is the first for the message whose id it draws, and touches no other. -/
lemma SendMove.senderChange {target : Address} {fields : FieldMap}
    {result : Except SendError (Option UInt32)} (hf : ConnectionsFiled engine.store.connections)
    (h : SendMove engine occasion target fields after effects result) :
    SenderChange bound engine.store.connections[(⟨peer, id, .sender⟩ : ConnectionKey)]?
        after.store.connections[(⟨peer, id, .sender⟩ : ConnectionKey)]?
        (effects.countP (isSynFor peer id)) ∨
      id = engine.messageIds.draw.1 ∧ after.messageIds = engine.messageIds.draw.2 ∧
        effects.countP (isSynFor peer id) ≤ 1 := by
  cases h with
  | failed ids same =>
    rw [same]
    exact Or.inl .kept
  | plain drawn unforced written ids same =>
    rw [same, List.countP_cons_of_neg (by simp [isSynFor, synId?_of_encode written]),
      List.countP_nil]
    exact Or.inl .kept
  | first drawn written record ids filed =>
    have hkey := (record.key hf).1
    by_cases hid : id = engine.messageIds.draw.1
    · exact Or.inr ⟨hid, ids, List.countP_le_length⟩
    · left
      rw [filed, countP_isSynFor_syn _ _ (synId?_of_encode written),
        if_neg fun hsame => hid hsame.2.symm]
      apply senderChange_other
      simp only [hkey, ne_eq, ConnectionKey.mk.injEq, not_and]
      exact fun _ hsame => absurd hsame.symm hid

/-- What a move does to one message, unless it draws the id of that message. -/
lemma EngineMove.senderChange (hw : WellFiled engine.store)
    (hs : SendersWithin bound engine.store.connections) (h : EngineMove engine after effects) :
    SenderChange bound engine.store.connections[(⟨peer, id, .sender⟩ : ConnectionKey)]?
        after.store.connections[(⟨peer, id, .sender⟩ : ConnectionKey)]?
        (effects.countP (isSynFor peer id)) ∨
      id = engine.messageIds.draw.1 ∧ after.messageIds = engine.messageIds.draw.2 ∧
        effects.countP (isSynFor peer id) ≤ 1 := by
  cases h with
  | sent occasion target fields delivery =>
    exact (send_move occasion hw target fields delivery).senderChange hw.connection
  | received occasion source datagram =>
    exact Or.inl ((receive_move occasion hw source datagram).senderChange hw.connection hs)
  | visitedPeer occasion address =>
    exact Or.inl ((sweepPeer_move occasion address).senderChange hw.connection hs)
  | visitedConnection occasion key =>
    exact Or.inl ((sweepConnection_move occasion hw key).senderChange hw.connection hs)
  | freed now => exact Or.inl .kept

lemma EngineMove.sendersWithin (hw : WellFiled engine.store)
    (hs : SendersWithin bound engine.store.connections)
    (hbound : engine.config.senderFailureBound = bound) (h : EngineMove engine after effects) :
    SendersWithin bound after.store.connections := by
  cases h with
  | sent occasion target fields delivery =>
    exact (send_move occasion hw target fields delivery).sendersWithin hw.connection hs hbound
  | received occasion source datagram =>
    exact (receive_move occasion hw source datagram).sendersWithin hw.connection hs
  | visitedPeer occasion address => exact (sweepPeer_move occasion address).sendersWithin hs
  | visitedConnection occasion key =>
    exact (sweepConnection_move occasion hw key).sendersWithin hs
  | freed now => exact hs

lemma EngineMove.everyRecord (hw : WellFiled engine.store)
    (hs : SendersWithin bound engine.store.connections)
    (hbound : engine.config.senderFailureBound = bound)
    (he : EveryRecord (fun record => record.key.role = .sender → record.failures.toNat ≤ bound.toNat + 1)
      engine.store) (h : EngineMove engine after effects) :
    EveryRecord (fun record => record.key.role = .sender → record.failures.toNat ≤ bound.toNat + 1)
      after.store := by
  have hreworks : ∀ {now : Nat} {later : Store}, Reworks now engine.store later →
      EveryRecord (fun record => record.key.role = .sender → record.failures.toNat ≤ bound.toNat + 1)
        later := by
    intro now later hr
    refine he.reworks hr (fun _ hrecord => hrecord) ?_
    intro old later hold hlater hrole
    have hwithin := (hold.sender hs hbound (hlater.key ▸ hrole) rfl).2
    have hbefore := UInt32.le_iff_toNat_le.1 hwithin
    have hmore := hlater.failures
    omega
  cases h with
  | sent occasion target fields delivery => exact hreworks (reworks_send occasion hw _ _ _)
  | received occasion source datagram => exact hreworks (reworks_receive occasion hw _ _)
  | visitedPeer occasion address => exact hreworks (reworks_sweepPeer occasion _)
  | visitedConnection occasion key => exact hreworks (reworks_sweepConnection occasion hw _)
  | freed now => exact he.sweepDeleted _ _ _

end Changes

/-- So many first frames of a message were sent, given the record of its sender. -/
structure SynBudget (bound : UInt32) (record? : Option ConnectionRecord) (count : Nat) : Prop where
  total : count ≤ 1 + bound.toNat
  waiting : ∀ record, record? = some record → record.status = .synSent →
    count ≤ record.failures.toNat + 1

def Settled (record? : Option ConnectionRecord) : Prop :=
  ∀ record, record? = some record → record.status ≠ .synSent

section Budgets

variable {bound : UInt32} {sent : Nat} {before after : Option ConnectionRecord}

/-- As long as the bound leaves room for one failure more, a count of failures does not start anew. -/
lemma SynBudget.change {count : Nat} (hcountable : bound < 4294967295)
    (hb : SynBudget bound before count) (h : SenderChange bound before after sent) :
    SynBudget bound after (count + sent) := by
  cases h with
  | kept => exact hb
  | gone => exact ⟨hb.total, nofun⟩
  | seen there status =>
    refine ⟨hb.total, ?_⟩
    intro record hrecord hwaiting
    cases hrecord
    rw [status] at hwaiting
    cases hwaiting
  | repeated there waiting room within counted =>
    have hsofar := hb.waiting _ there waiting
    have hcount := toNat_succ_of_lt (UInt32.lt_of_le_of_lt room hcountable)
    have htotal := UInt32.le_iff_toNat_le.1 within
    refine ⟨by omega, ?_⟩
    intro later hlater _
    rw [counted later hlater]
    omega

lemma Settled.change (hs : Settled before) (h : SenderChange bound before after sent) :
    Settled after ∧ sent = 0 := by
  cases h with
  | kept => exact ⟨hs, rfl⟩
  | gone => exact ⟨nofun, rfl⟩
  | seen there status =>
    refine ⟨?_, rfl⟩
    intro record hrecord
    cases hrecord
    rw [status]
    decide
  | repeated there waiting room within counted => exact absurd waiting (hs _ there)

lemma SenderChange.of_none (h : SenderChange bound none after sent) : after = none ∧ sent = 0 := by
  cases h with
  | kept => exact ⟨rfl, rfl⟩
  | gone => exact ⟨rfl, rfl⟩
  | seen there status => cases there
  | repeated there waiting room within counted => cases there

end Budgets

namespace History

/-- How many first frames of a message were handed to the socket so far. -/
def synCount (history : History) (peer : Address) (id : UInt32) : Nat :=
  history.effects.countP (isSynFor peer id)

def senderRecord? (history : History) (peer : Address) (id : UInt32) : Option ConnectionRecord :=
  history.engine.store.connections[(⟨peer, id, .sender⟩ : ConnectionKey)]?

/-- What a run preserves of all records of senders. -/
structure BoundsSenders (config : Config) (firstId : UInt32) (history : History) : Prop where
  configured : history.engine.config = config
  ids : CountsIds firstId history
  senders : SendersWithin config.senderFailureBound history.engine.store.connections
  held : EveryRecord (fun record =>
    record.key.role = .sender →
      record.failures.toNat ≤ config.senderFailureBound.toNat + 1) history.engine.store

/-- What a run preserves of one message, as long as ids are not drawn again. -/
structure BoundsMessage (config : Config) (firstId : UInt32) (peer : Address) (id : UInt32)
    (history : History) : Prop where
  unsent : id ∉ MessageIds.drawMany history.idsDrawn ⟨firstId⟩ →
    history.senderRecord? peer id = none ∧ history.synCount peer id = 0
  budget : config.senderFailureBound < 4294967295 → SynBudget config.senderFailureBound
    (history.senderRecord? peer id) (history.synCount peer id)

/-- What a run preserves of a message once its success was seen. -/
structure SettledAt (firstId : UInt32) (peer : Address) (id : UInt32) (count : Nat)
    (history : History) : Prop where
  drawn : id ∈ MessageIds.drawMany history.idsDrawn ⟨firstId⟩
  settled : Settled (history.senderRecord? peer id)
  count : history.synCount peer id = count

section Runs

variable {config : Config} {firstId : UInt32} {peer : Address} {id : UInt32}
variable {history : History} {after : Engine} {effects : List Effect}

lemma synCount_note (history : History) (after : Engine) (effects : List Effect) :
    (history.note after effects).synCount peer id =
      history.synCount peer id + effects.countP (isSynFor peer id) :=
  List.countP_append

lemma BoundsSenders.note (hw : WellFiled history.engine.store)
    (h : BoundsSenders config firstId history)
    (hmove : EngineMove history.engine after effects) :
    BoundsSenders config firstId (history.note after effects) where
  configured := (hmove.config hw).trans h.configured
  ids := h.ids.note (hmove.messageIds hw)
  senders := hmove.sendersWithin hw h.senders (by rw [h.configured])
  held := hmove.everyRecord hw h.senders (by rw [h.configured]) h.held

lemma boundsSenders_starting (config : Config) (firstId : UInt32) :
    BoundsSenders config firstId (starting config firstId) where
  configured := rfl
  ids := countsIds_starting config firstId
  senders key record hrecord := by simp [starting, Engine.starting] at hrecord
  held := by
    constructor
    · intro key record hrecord
      simp [starting, Engine.starting] at hrecord
    · intro serial entry record hentry
      simp [starting, Engine.starting] at hentry

/-- Either the record of a message changes, or its id is drawn in the move. -/
lemma BoundsMessage.note (hw : WellFiled history.engine.store)
    (hs : BoundsSenders config firstId history)
    (h : BoundsMessage config firstId peer id history)
    (hfew : (history.note after effects).idsDrawn < idCycle)
    (hmove : EngineMove history.engine after effects) :
    BoundsMessage config firstId peer id (history.note after effects) := by
  rcases @EngineMove.senderChange _ _ _ _ peer id hw hs.senders hmove with
    hchange | ⟨hid, hdrawn, hcount⟩
  · constructor
    · intro hunsent
      obtain ⟨hnone, hzero⟩ :=
        h.unsent fun hmem => hunsent (mem_drawMany_note history after effects hmem)
      rw [senderRecord?] at hnone
      rw [hnone] at hchange
      obtain ⟨hgone, hsilent⟩ := hchange.of_none
      exact ⟨hgone, by rw [synCount_note, hzero, hsilent]⟩
    · rw [synCount_note]
      exact fun hcountable => (h.budget hcountable).change hcountable hchange
  · -- nothing was sent for the message before its id was drawn
    have hfew' := Nat.lt_of_le_of_lt (idsDrawn_note_le history after effects) hfew
    have hfresh := hs.ids.draw_notMem hfew'
    rw [← hid] at hfresh
    have hzero := (h.unsent hfresh).2
    have hmem := hs.ids.draw_mem_note effects hdrawn
    rw [← hid] at hmem
    refine ⟨fun hunsent => absurd hmem hunsent, ?_⟩
    rw [synCount_note, hzero, Nat.zero_add]
    exact fun _ => ⟨by omega, fun record _ _ => by omega⟩

lemma boundsMessage_starting (config : Config) (firstId : UInt32) (peer : Address) (id : UInt32) :
    BoundsMessage config firstId peer id (starting config firstId) where
  unsent _ := ⟨by simp [senderRecord?, starting, Engine.starting], rfl⟩
  budget _ := by
    refine ⟨Nat.zero_le _, ?_⟩
    intro record hrecord
    simp [senderRecord?, starting, Engine.starting] at hrecord

lemma SettledAt.note {count : Nat} (hw : WellFiled history.engine.store)
    (hs : BoundsSenders config firstId history) (h : SettledAt firstId peer id count history)
    (hfew : (history.note after effects).idsDrawn < idCycle)
    (hmove : EngineMove history.engine after effects) :
    SettledAt firstId peer id count (history.note after effects) := by
  have hdrawn := mem_drawMany_note history after effects h.drawn
  rcases @EngineMove.senderChange _ _ _ _ peer id hw hs.senders hmove with
    hchange | ⟨hid, hdraw, hcount⟩
  · obtain ⟨hsettled, hsilent⟩ := h.settled.change hchange
    exact ⟨hdrawn, hsettled, by rw [synCount_note, hsilent, h.count, Nat.add_zero]⟩
  · have hfew' := Nat.lt_of_le_of_lt (idsDrawn_note_le history after effects) hfew
    exact absurd (hid ▸ h.drawn) (hs.ids.draw_notMem hfew')

lemma settledAt_of_success (hw : WellFiled history.engine.store)
    (hs : BoundsSenders config firstId history)
    (h : BoundsMessage config firstId peer id history) {record : ConnectionRecord}
    (hrecord : history.senderRecord? peer id = some record) (occasion : Occasion)
    {datagram : Bytes} {frame : Frame} (hr : Reads datagram .synSuccess id frame) :
    SettledAt firstId peer id (history.synCount peer id)
      (history.step (.work occasion (.receive peer datagram))) := by
  have hsender := hs.senders _ _ hrecord (by rw [(hw.connection _ _ hrecord).1])
  have hdrawn : id ∈ MessageIds.drawMany history.idsDrawn ⟨firstId⟩ := by
    by_contra hunsent
    rw [(h.unsent hunsent).1] at hrecord
    cases hrecord
  have hsettled : Settled ((history.engine.receive occasion peer datagram).1.store.connections[
      (⟨peer, id, .sender⟩ : ConnectionKey)]?) ∧
      (history.engine.receive occasion peer datagram).2.countP (isSynFor peer id) = 0 := by
    rcases hsender.status with hwaiting | hseen
    · obtain ⟨⟨later, hkey, hstatus, hconnections⟩, heffects, -⟩ :=
        receive_synSuccess occasion hw hr hrecord hwaiting
      rw [hconnections, heffects, countP_isSynFor_control _ _ rfl, getElem?_afterTransmit,
        if_pos hkey]
      refine ⟨?_, rfl⟩
      intro filed hfiled
      split at hfiled
      · cases hfiled
        simp [hstatus]
      · cases hfiled
    · have hchange := @ReceiveMove.senderChange _ _ _ _ _ peer id _ _ hw.connection hs.senders
        (receive_move occasion hw peer datagram)
      refine Settled.change ?_ hchange
      intro filed hfiled
      rw [senderRecord?] at hrecord
      rw [hrecord] at hfiled
      cases hfiled
      simp [hseen]
  refine ⟨mem_drawMany_note _ _ _ hdrawn, hsettled.1, ?_⟩
  have hcount := @synCount_note peer id history (history.engine.receive occasion peer datagram).1
    (history.engine.receive occasion peer datagram).2
  rw [hsettled.2, Nat.add_zero] at hcount
  exact hcount

lemma idsDrawn_run_le (hw : WellFiled history.engine.store) (steps : List EngineStep) :
    history.idsDrawn ≤ (history.run steps).idsDrawn :=
  (@run_induction _ (fun later => history.idsDrawn ≤ later.idsDrawn)
    (fun _ h _ => Nat.le_trans h (idsDrawn_note_le _ _ _)) hw (Nat.le_refl _) steps).2

lemma boundsSenders_run (config : Config) (firstId : UInt32) (steps : List EngineStep) :
    WellFiled ((starting config firstId).run steps).engine.store ∧
      BoundsSenders config firstId ((starting config firstId).run steps) :=
  run_induction (fun hw h hmove => h.note hw hmove) (wellFiled_starting config firstId)
    (boundsSenders_starting config firstId) steps

lemma run_induction_of_few {Inv : History → Prop}
    (hmove : ∀ {history : History} {after : Engine} {effects : List Effect},
      WellFiled history.engine.store → BoundsSenders config firstId history → Inv history →
        (history.note after effects).idsDrawn < idCycle →
          EngineMove history.engine after effects → Inv (history.note after effects))
    (hw : WellFiled history.engine.store) (hs : BoundsSenders config firstId history)
    (h : Inv history) (steps : List EngineStep) (hfew : (history.run steps).idsDrawn < idCycle) :
    Inv (history.run steps) := by
  have hrun := @run_induction history (fun later =>
      BoundsSenders config firstId later ∧ (later.idsDrawn < idCycle → Inv later))
    (fun hw hinv hengine => ⟨hinv.1.note hw hengine, fun hfew => hmove hw hinv.1
      (hinv.2 (Nat.lt_of_le_of_lt (idsDrawn_note_le _ _ _) hfew)) hfew hengine⟩)
    hw ⟨hs, fun _ => h⟩ steps
  exact hrun.2.2 hfew

lemma boundsMessage_run (config : Config) (firstId : UInt32) (peer : Address) (id : UInt32)
    (steps : List EngineStep) (hfew : ((starting config firstId).run steps).idsDrawn < idCycle) :
    BoundsMessage config firstId peer id ((starting config firstId).run steps) :=
  run_induction_of_few (fun hw hs h hfew hmove => h.note hw hs hfew hmove)
    (wellFiled_starting config firstId) (boundsSenders_starting config firstId)
    (boundsMessage_starting config firstId peer id) steps hfew

end Runs

end History

/-- A record of a handshake that an engine holds, filed or waiting to be freed. -/
def IsHeld (store : Store) (record : ConnectionRecord) : Prop :=
  store.connections[record.key]? = some record ∨
    ∃ (serial : Nat) (entry : PendingEntry), store.pending.entries[serial]? = some entry ∧
      entry.record = .connection record

/-- Retransmission is bounded. Whatever an engine sends and receives, whenever it sweeps and whatever
its socket refuses: with the failure bound n, the first frame of a message is handed to the socket at
most 1 + n times, no sender's record has counted more than n + 1 failures, and once a success has
reached the record of a message its first frame is never sent again. -/
theorem retransmissions_bounded (config : Config) (firstId : UInt32) (steps : List EngineStep)
    (hcountable : config.senderFailureBound < 4294967295)
    (hfew : ((History.starting config firstId).run steps).idsDrawn < 4294967295)
    (peer : Address) (id : UInt32) :
    ((History.starting config firstId).run steps).synCount peer id ≤
        1 + config.senderFailureBound.toNat ∧
      (∀ record, IsHeld ((History.starting config firstId).run steps).engine.store record →
        record.key.role = .sender →
          record.failures.toNat ≤ config.senderFailureBound.toNat + 1) ∧
      ∀ (before after : List EngineStep) (occasion : Occasion) (datagram : Bytes) (frame : Frame)
        (record : ConnectionRecord),
        steps = before ++ .work occasion (.receive peer datagram) :: after →
        Reads datagram .synSuccess id frame →
        ((History.starting config firstId).run before).engine.store.connection?
          ⟨peer, id, .sender⟩ = some record →
        ((History.starting config firstId).run steps).synCount peer id =
          ((History.starting config firstId).run before).synCount peer id := by
  have hmessage := History.boundsMessage_run config firstId peer id steps hfew
  refine ⟨(hmessage.budget hcountable).total, ?_, ?_⟩
  · intro record hheld hrole
    have hall := (History.boundsSenders_run config firstId steps).2.held
    rcases hheld with hfiled | ⟨serial, entry, hentry, hrecord⟩
    · exact hall.filed _ record hfiled hrole
    · exact hall.pending serial entry record hentry hrecord hrole
  · intro before after occasion datagram frame record hsteps hreads hrecord
    obtain ⟨hw, hs⟩ := History.boundsSenders_run config firstId before
    rw [connection?_eq hw] at hrecord
    have hlate : (History.starting config firstId).run steps =
        (((History.starting config firstId).run before).step
          (.work occasion (.receive peer datagram))).run after := by
      rw [hsteps, History.run_append]
      rfl
    have hreceived := @EngineMove.received
      ((History.starting config firstId).run before).engine occasion peer datagram
    rw [hlate] at hfew ⊢
    have hlittle := Nat.lt_of_le_of_lt
      (History.idsDrawn_run_le (hreceived.wellFiled hw) after) hfew
    have hfew' := Nat.lt_of_le_of_lt (History.idsDrawn_note_le _ _ _) hlittle
    have hsettled := History.settledAt_of_success hw hs
      (History.boundsMessage_run config firstId peer id before hfew') hrecord occasion hreads
    exact (History.run_induction_of_few (fun hw hs h hfew hmove => h.note hw hs hfew hmove)
      (hreceived.wellFiled hw) (hs.note hw hreceived) hsettled after hfew).count

/-- With two failures allowed, a sweep and a failure use them up. The success comes after all three
first frames, and neither a failure nor a sweep after it brings a fourth one. -/
theorem retransmissions_bounded_exhausted :
    let near : Address := .loopback 9001
    let far : Address := .loopback 9002
    let config : Config := { selfAddress := near, senderFailureBound := 2 }
    let atTime (now : Nat) : Occasion := ⟨now, fun _ _ => true⟩
    let success : Bytes := encodeControl .synSuccess 1
    let failure : Bytes := encodeControl .synFailure 1
    let before : List EngineStep :=
      [.send (atTime 0) far {} .reliable, .work (atTime 1000) .timeoutSweep,
        .work (atTime 1000) (.receive far failure)]
    let after : List EngineStep :=
      [.work (atTime 1000) (.receive far failure), .work (atTime 2000) .timeoutSweep]
    let steps := before ++ .work (atTime 1000) (.receive far success) :: after
    config.senderFailureBound < 4294967295 ∧
      ((History.starting config 1).run steps).idsDrawn < 4294967295 ∧
      (∃ frame, Reads success .synSuccess 1 frame) ∧
      (((History.starting config 1).run before).engine.store.connection?
        ⟨far, 1, .sender⟩).isSome = true ∧
      ((History.starting config 1).run before).synCount far 1 = 1 + 2 ∧
      ((History.starting config 1).run steps).synCount far 1 = 1 + 2 := by
  intro near far config atTime success failure before after steps
  have hfew : ((History.starting config 1).run steps).idsDrawn < 4294967295 := by
    decide +kernel
  have hthere : (((History.starting config 1).run before).engine.store.connection?
      ⟨far, 1, .sender⟩).isSome = true := by
    decide +kernel
  have hthree : ((History.starting config 1).run before).synCount far 1 = 1 + 2 := by
    decide +kernel
  have hreads : Reads success .synSuccess 1 _ := ⟨decode_encodeControl rfl (by decide), rfl, rfl⟩
  obtain ⟨record, hrecord⟩ := Option.isSome_iff_exists.1 hthere
  have hbounded := retransmissions_bounded config 1 steps (by decide) hfew far 1
  refine ⟨by decide, hfew, ⟨_, hreads⟩, hthere, hthree, ?_⟩
  rw [hbounded.2.2 before after (atTime 1000) success _ record rfl hreads hrecord]
  exact hthree

end ReliableDatagrams.Proofs
