import Mathlib.Data.List.Induction
import ReliableDatagrams.Proofs.TimestampMoves

/-!
# What first frames carry

The first frame of a message is written when the message is sent, and again whenever it is repeated,
then from what is read of the copy that is kept. `IsFirstFrame` leaves only the timestamp open, and
does not mind whether there is one; so it comes back after any number of rounds. From it follow what
a reader finds in such a frame (`IsFirstFrame.readsMessage`) and that it can always be written again
(`IsFirstFrame.restamp`).

A sweep takes the records one after the other. What is shown here holds wherever it has come to.
-/

namespace ReliableDatagrams.Proofs

/-- A frame that is written for a message, with any timestamp. -/
def IsFirstFrame (id : UInt32) (fields : FieldMap) (bytes : Bytes) : Prop :=
  ∃ timestamp : UInt16, encode fields.toList
    { messageId := some id
      timestamp := some timestamp
      doubleCount := fields.needsDoubleCount } = .ok bytes

/-- A reader takes a frame for the first of a handshake, and finds the fields of a message in it,
laid out as these need it. -/
def ReadsMessage (id : UInt32) (fields : FieldMap) (bytes : Bytes) : Prop :=
  ∃ frame, Reads bytes .syn id frame ∧ frame.fields = fields ∧
    frame.header.flags.doubleCount = fields.needsDoubleCount

section Frames

variable {id : UInt32} {fields : FieldMap} {bytes : Bytes}

lemma decode_of_isFirstFrame (h : IsFirstFrame id fields bytes) :
    ∃ frame, Frame.decode bytes = .ok frame ∧ frame.kind = .syn ∧
      frame.header.messageId = some id ∧ frame.fields = fields ∧
      frame.header.flags.doubleCount = fields.needsDoubleCount := by
  obtain ⟨timestamp, hwritten⟩ := h
  exact ⟨_, decode_of_encode hwritten, rfl, rfl, ofList_toList fields, rfl⟩

lemma IsFirstFrame.readsMessage (h : IsFirstFrame id fields bytes) :
    ReadsMessage id fields bytes := by
  obtain ⟨frame, hdecoded, hkind, hid, hfields, hcount⟩ := decode_of_isFirstFrame h
  exact ⟨frame, ⟨hdecoded, hkind, hid⟩, hfields, hcount⟩

lemma IsFirstFrame.restamp (h : IsFirstFrame id fields bytes) (timestamp : UInt16) :
    ∃ frame, Restamped timestamp bytes frame := by
  obtain ⟨decoded, hdecoded, -, hid, hfields, hcount⟩ := decode_of_isFirstFrame h
  obtain ⟨earlier, hwritten⟩ := h
  obtain ⟨again, hagain, -⟩ := encode_restamped hwritten timestamp
  refine ⟨again, decoded, hdecoded, ?_⟩
  rw [hid, hfields, hcount]
  exact hagain

lemma IsFirstFrame.of_restamped {timestamp : UInt16} {frame : Bytes}
    (h : IsFirstFrame id fields bytes) (hagain : Restamped timestamp bytes frame) :
    IsFirstFrame id fields frame := by
  obtain ⟨decoded, hdecoded, -, hid, hfields, hcount⟩ := decode_of_isFirstFrame h
  obtain ⟨other, hother, hwritten⟩ := hagain
  cases hdecoded.symm.trans hother
  rw [hid, hfields, hcount] at hwritten
  exact ⟨timestamp, hwritten⟩

end Frames

/-- What is kept for a message that waits for an answer, or has seen its success. -/
structure KeepsMessage (fields : FieldMap) (record : ConnectionRecord) : Prop where
  status : record.status = .synSent ∨ record.status = .ackSent
  waiting : record.status = .synSent →
    ∃ syn, record.lastSent = some syn ∧ IsFirstFrame record.key.messageId fields syn
  seen : record.status = .ackSent →
    record.lastSent = some (encodeControl .synAckSuccess record.key.messageId)

section Senders

variable (Sent : Address → UInt32 → FieldMap → Prop)

def SendersKeep : Std.ExtTreeMap ConnectionKey ConnectionRecord → Prop :=
  AllRecords fun record => record.key.role = .sender →
    ∃ fields, Sent record.key.peer record.key.messageId fields ∧ KeepsMessage fields record

/-- A first frame is one of a message that was sent. -/
def IsFaithful : Effect → Prop
  | .sent target bytes _ => ∀ id, synId? bytes = some id →
      ∃ fields, Sent target id fields ∧ IsFirstFrame id fields bytes
  | .delivered _ => True

structure FaithfulOutcome (after : Engine) (effects : List Effect) : Prop where
  senders : SendersKeep Sent after.store.connections
  effects : ∀ effect ∈ effects, IsFaithful Sent effect

variable {Sent} {engine after : Engine} {effects : List Effect} {occasion : Occasion}

lemma isFaithful_control {kind : FrameKind} (hkind : kind.isControl = true) (target : Address)
    (id : UInt32) (accepted : Bool) :
    IsFaithful Sent (.sent target (encodeControl kind id) accepted) := by
  intro seen hseen
  rw [synId?_encodeControl hkind] at hseen
  cases hseen

/-- A frame that is handed to the socket for a waiting record is a first frame of its message. -/
lemma RetryMove.repeats {connection : ConnectionRecord} {fields : FieldMap}
    (hkeeps : KeepsMessage fields connection)
    (h : RetryMove engine occasion connection after effects) :
    ∀ effect ∈ effects, ∃ bytes accepted, effect = .sent connection.key.peer bytes accepted ∧
      IsFirstFrame connection.key.messageId fields bytes := by
  cases h with
  | givenUp filed => simp
  | repeated role status buffered written bound filed =>
    intro effect heffect
    obtain ⟨syn, hsyn, hfirst⟩ := hkeeps.waiting status
    rw [buffered] at hsyn
    cases hsyn
    exact ⟨_, _, List.mem_singleton.1 heffect, hfirst.of_restamped written⟩

lemma IsFirstFrame.isFaithful {target : Address} {id : UInt32} {fields : FieldMap} {bytes : Bytes}
    (h : IsFirstFrame id fields bytes) (hsent : Sent target id fields) (accepted : Bool) :
    IsFaithful Sent (.sent target bytes accepted) := by
  intro seen hseen
  obtain ⟨timestamp, hwritten⟩ := h
  cases (synId?_of_encode hwritten).symm.trans hseen
  exact ⟨fields, hsent, timestamp, hwritten⟩

lemma RetryMove.faithful (hs : SendersKeep Sent engine.store.connections)
    {key : ConnectionKey} {connection : ConnectionRecord}
    (hfiled : engine.store.connections[key]? = some connection)
    (h : RetryMove engine occasion connection after effects) :
    FaithfulOutcome Sent after effects := by
  cases h with
  | givenUp filed =>
    refine ⟨?_, by simp⟩
    rw [filed]
    exact hs.erase _
  | repeated role status buffered written bound filed =>
    obtain ⟨fields, hsent, hkeeps⟩ := hs _ _ hfiled role
    obtain ⟨syn, hsyn, hfirst⟩ := hkeeps.waiting status
    rw [buffered] at hsyn
    cases hsyn
    have hagain := hfirst.of_restamped written
    constructor
    · rw [filed]
      apply hs.afterTransmit
      intro _ _
      refine ⟨fields, hsent, Or.inl status, fun _ => ⟨_, rfl, hagain⟩, ?_⟩
      intro hseen
      cases status.symm.trans hseen
    · intro effect heffect
      rw [List.mem_singleton.1 heffect]
      exact hagain.isFaithful hsent _

lemma sendersKeep_receiver {record : ConnectionRecord} (hrole : record.key.role = .receiver) :
    record.key.role = .sender →
      ∃ fields, Sent record.key.peer record.key.messageId fields ∧ KeepsMessage fields record := by
  intro hsender
  cases hrole.symm.trans hsender

lemma ReceiveMove.faithful {source : Address} {datagram : Bytes}
    (hf : ConnectionsFiled engine.store.connections)
    (hs : SendersKeep Sent engine.store.connections)
    (h : ReceiveMove engine occasion source datagram after effects) :
    FaithfulOutcome Sent after effects := by
  have hcontrol : ∀ {kind : FrameKind} {id : UInt32}, kind.isControl = true →
      ∀ effect ∈ [Effect.sent source (encodeControl kind id)
        (occasion.accepts source (encodeControl kind id))], IsFaithful Sent effect := by
    intro kind id hkind effect heffect
    rw [List.mem_singleton.1 heffect]
    exact isFaithful_control hkind _ _ _
  cases h with
  | ignored same => exact ⟨same ▸ hs, by simp⟩
  | plain decoded kind fresh same => exact ⟨same ▸ hs, by simp [IsFaithful]⟩
  | rejected invalid record waiting filed =>
    have hkey := (record.key hf).1
    refine ⟨?_, hcontrol rfl⟩
    rw [filed]
    split
    · exact hs.afterTransmit fun _ => sendersKeep_receiver (by simp only [hkey])
    · exact hs.erase _
  | confirmed reads record opened filed =>
    have hkey := (hf _ _ record).1
    refine ⟨?_, hcontrol rfl⟩
    rw [filed]
    exact hs.afterTransmit fun _ => sendersKeep_receiver (by simp only [hkey])
  | accepted reads record waiting fresh filed =>
    have hkey := (record.key hf).1
    constructor
    · rw [filed]
      exact hs.afterTransmit fun _ => sendersKeep_receiver (by simp only [hkey])
    · intro effect heffect
      rcases List.mem_pair.1 heffect with rfl | rfl
      · exact isFaithful_control rfl _ _ _
      · trivial
  | @acknowledged id frame connection reads record status filed =>
    have hkey := (hf _ _ record).1
    refine ⟨?_, hcontrol rfl⟩
    rw [filed]
    apply hs.afterTransmit
    intro _ hrole
    obtain ⟨fields, hsent, -⟩ := hs _ _ record hrole
    refine ⟨fields, hsent, Or.inr rfl, ?_, fun _ => ?_⟩
    · intro hwaiting
      cases hwaiting
    · simp only [hkey]
  | retried reads record retry => exact retry.faithful hs record
  | closed reads filed =>
    refine ⟨?_, hcontrol rfl⟩
    rw [filed]
    exact hs.erase _
  | finished reads record status filed =>
    refine ⟨?_, by simp⟩
    rw [filed]
    exact hs.erase _

lemma SweepMove.faithful (hs : SendersKeep Sent engine.store.connections)
    (h : SweepMove engine occasion after effects) : FaithfulOutcome Sent after effects := by
  cases h with
  | kept same => exact ⟨same ▸ hs, by simp⟩
  | retried record retry => exact retry.faithful hs record
  | expired filed =>
    refine ⟨?_, by simp⟩
    rw [filed]
    exact hs.erase _

/-- Where a call hands a first frame to the socket, that is the one of its message. -/
lemma SendMove.first_of_synId? {target other : Address} {fields : FieldMap}
    {result : Except SendError (Option UInt32)} {first : Bytes} {accepted : Bool} {id : UInt32}
    (h : SendMove engine occasion target fields after effects result)
    (hmem : Effect.sent other first accepted ∈ effects) (hid : synId? first = some id) :
    other = target ∧ id = engine.messageIds.draw.1 ∧
      after.messageIds = engine.messageIds.draw.2 ∧ IsFirstFrame id fields first := by
  cases h with
  | failed ids same => simp at hmem
  | plain drawn unforced written ids same =>
    cases List.mem_singleton.1 hmem
    rw [synId?_of_encode written] at hid
    cases hid
  | first drawn written record ids filed =>
    cases List.mem_singleton.1 hmem
    rw [synId?_of_encode written] at hid
    cases hid
    exact ⟨rfl, rfl, ids, _, written⟩

lemma SendMove.faithful (hf : ConnectionsFiled engine.store.connections)
    (hs : SendersKeep Sent engine.store.connections) {target : Address} {fields : FieldMap}
    {result : Except SendError (Option UInt32)}
    (h : SendMove engine occasion target fields after effects result)
    (hsent : ∀ first accepted id, Effect.sent target first accepted ∈ effects →
      synId? first = some id → Sent target id fields) :
    FaithfulOutcome Sent after effects := by
  refine ⟨?_, ?_⟩
  · cases h with
    | failed ids same => rwa [same]
    | plain drawn unforced written ids same => rwa [same]
    | first drawn written record ids filed =>
      have hkey := (record.key hf).1
      rw [filed]
      apply hs.afterTransmit
      intro _ _
      have hdrawn := hsent _ _ _ (List.mem_singleton_self _) (synId?_of_encode written)
      refine ⟨fields, ?_, Or.inl rfl, fun _ => ⟨_, rfl, ?_⟩, ?_⟩
      · simpa only [hkey] using hdrawn
      · simp only [hkey]
        exact ⟨_, written⟩
      · intro hseen
        cases hseen
  · intro effect heffect
    cases effect with
    | delivered message => trivial
    | sent other bytes accepted =>
      intro id hid
      obtain ⟨rfl, -, -, hfirst⟩ := h.first_of_synId? heffect hid
      exact ⟨fields, hsent bytes accepted id heffect hid, hfirst⟩

lemma FaithfulOutcome.mono {More : Address → UInt32 → FieldMap → Prop}
    (hmore : ∀ target id fields, Sent target id fields → More target id fields)
    (h : FaithfulOutcome Sent after effects) : FaithfulOutcome More after effects := by
  constructor
  · refine h.senders.mono ?_
    intro record hrecord hrole
    obtain ⟨fields, hsent, hkeeps⟩ := hrecord hrole
    exact ⟨fields, hmore _ _ _ hsent, hkeeps⟩
  · intro effect heffect
    have hfaithful := h.effects effect heffect
    cases effect with
    | delivered message => trivial
    | sent target bytes accepted =>
      intro id hid
      obtain ⟨fields, hsent, hfirst⟩ := hfaithful id hid
      exact ⟨fields, hmore _ _ _ hsent, hfirst⟩

lemma visited_faithful (occasion : Occasion) (hw : WellFiled engine.store)
    (hs : SendersKeep Sent engine.store.connections) (addresses : List Address)
    (keys : List ConnectionKey) :
    WellFiled (visited engine occasion addresses keys).1.store ∧
      FaithfulOutcome Sent (visited engine occasion addresses keys).1
        (visited engine occasion addresses keys).2 := by
  obtain ⟨⟨hwell, hafter⟩, heffects⟩ := @visited_induction engine occasion
    (fun between => SendersKeep Sent between.store.connections) (IsFaithful Sent) (by
      intro between after effects hinv hmove _
      have hfaithful := hmove.faithful hinv
      exact ⟨hfaithful.senders, hfaithful.effects⟩) hw hs addresses keys
  exact ⟨hwell, hafter, heffects⟩

/-- At the record of a message, a timeout and a failure hand over nothing but its first frame. -/
lemma Retries.repeats (hf : ConnectionsFiled engine.store.connections) {key : ConnectionKey}
    {fields : FieldMap} (hkeeps : ∀ record, engine.store.connections[key]? = some record →
      KeepsMessage fields record) (h : Retries engine occasion key after effects) :
    ∀ effect ∈ effects, ∃ bytes accepted, effect = .sent key.peer bytes accepted ∧
      IsFirstFrame key.messageId fields bytes := by
  cases h with
  | passed peers filed => simp
  | @resent connection syn due =>
    have hretry := @resendSyn_move engine occasion (retried connection occasion.now) connection syn
      due.role due.status due.buffered due.bound rfl
    have hrepeats := hretry.repeats (hkeeps _ due.filed)
    rw [(hf _ _ due.filed).1] at hrepeats
    exact hrepeats

lemma run_faithful (occasion : Occasion) (hw : WellFiled engine.store)
    (hs : SendersKeep Sent engine.store.connections) (task : EngineTask) :
    FaithfulOutcome Sent (engine.run occasion task).1 (engine.run occasion task).2 := by
  cases task with
  | receive source datagram =>
    exact (receive_move occasion hw source datagram).faithful hw.connection hs
  | timeoutSweep => exact (visited_faithful occasion hw hs _ _).2
  | deleteSweep => exact ⟨hs, by simp [Engine.run]⟩

end Senders

namespace History

/-- A call among the steps has sent this message: its first frame was handed to the socket. -/
def HasSent (start : History) (steps : List EngineStep) (target : Address) (id : UInt32)
    (fields : FieldMap) : Prop :=
  ∃ before occasion delivery after,
    steps = before ++ .send occasion target fields delivery :: after ∧
      ∃ first accepted, Effect.sent target first accepted ∈
        ((start.run before).engine.send occasion target fields delivery).2.1 ∧
          synId? first = some id

/-- All that an engine keeps of its messages, and all that it has handed to the socket for them. -/
structure KeepsFaith (start : History) (steps : List EngineStep) (history : History) : Prop where
  filed : WellFiled history.engine.store
  senders : SendersKeep (HasSent start steps) history.engine.store.connections
  effects : ∀ effect ∈ history.effects, IsFaithful (HasSent start steps) effect

def midway (history : History) (occasion : Occasion) (addresses : List Address)
    (keys : List ConnectionKey) : History :=
  history.note (visited history.engine occasion addresses keys).1
    (visited history.engine occasion addresses keys).2

section Runs

variable {start : History} {steps : List EngineStep} {target : Address} {id : UInt32}
variable {fields : FieldMap}

lemma HasSent.append (h : HasSent start steps target id fields) (more : List EngineStep) :
    HasSent start (steps ++ more) target id fields := by
  obtain ⟨before, occasion, delivery, after, rfl, hfirst⟩ := h
  exact ⟨before, occasion, delivery, after ++ more, by simp, hfirst⟩

lemma KeepsFaith.note {history : History} {after : Engine} {effects : List Effect}
    (h : KeepsFaith start steps history) (hw : WellFiled after.store)
    (ho : FaithfulOutcome (HasSent start steps) after effects) :
    KeepsFaith start steps (history.note after effects) where
  filed := hw
  senders := ho.senders
  effects := by
    intro effect heffect
    rcases List.mem_append.1 heffect with hmem | hmem
    · exact h.effects effect hmem
    · exact ho.effects effect hmem

lemma KeepsFaith.midway {history : History} (h : KeepsFaith start steps history)
    (occasion : Occasion) (addresses : List Address) (keys : List ConnectionKey) :
    KeepsFaith start steps (history.midway occasion addresses keys) := by
  obtain ⟨hw, hvisited⟩ := visited_faithful occasion h.filed h.senders addresses keys
  exact h.note hw hvisited

lemma KeepsFaith.append {history : History} (h : KeepsFaith start steps history)
    (more : List EngineStep) : KeepsFaith start (steps ++ more) history := by
  have hmore := @FaithfulOutcome.mono (HasSent start steps) history.engine history.effects
    (HasSent start (steps ++ more)) (fun _ _ _ hsent => hsent.append more) ⟨h.senders, h.effects⟩
  exact ⟨h.filed, hmore.senders, hmore.effects⟩

lemma keepsFaith_run (config : Config) (firstId : UInt32) (steps : List EngineStep) :
    KeepsFaith (starting config firstId) steps ((starting config firstId).run steps) := by
  induction steps using List.reverseRecOn with
  | nil =>
    refine ⟨wellFiled_starting config firstId, ?_, by simp [run, starting]⟩
    intro key record hrecord
    simp [run, starting, Engine.starting] at hrecord
  | append_singleton steps step ih =>
    have hmore := ih.append [step]
    rw [run_append]
    cases step with
    | work occasion task =>
      have hlater := (@step_induction _ (fun _ => True) (fun _ _ _ => trivial) hmore.filed trivial
        (.work occasion task)).1
      exact hmore.note hlater (run_faithful occasion hmore.filed hmore.senders task)
    | send occasion target fields delivery =>
      refine hmore.note (hmore.filed.send occasion target fields delivery) ?_
      refine (send_move occasion hmore.filed target fields delivery).faithful
        hmore.filed.connection hmore.senders ?_
      intro first accepted id hmem hid
      exact ⟨steps, occasion, delivery, [], rfl, first, accepted, hmem, hid⟩

lemma mem_drawMany_of_le {count more : Nat} {ids : MessageIds} (h : count ≤ more)
    (hmem : id ∈ MessageIds.drawMany count ids) : id ∈ MessageIds.drawMany more ids := by
  obtain ⟨rest, rfl⟩ := Nat.exists_eq_add_of_le h
  induction rest with
  | zero => exact hmem
  | succ rest ih =>
    rw [← Nat.add_assoc, drawMany_succ]
    exact List.mem_append_left _ (ih (Nat.le_add_right _ _))

/-- Once the first frame of a message has been sent, no other message gets its id. -/
lemma draw_ne_of_sent {config : Config} {firstId : UInt32} {before more : List EngineStep}
    {occasion : Occasion} {delivery : Delivery} {other : Address} {first : Bytes} {accepted : Bool}
    (hmem : Effect.sent other first accepted ∈
      (((starting config firstId).run before).engine.send occasion target fields delivery).2.1)
    (hid : synId? first = some id)
    (hfew : ((starting config firstId).run
      (before ++ .send occasion target fields delivery :: more)).idsDrawn < idCycle) :
    ((starting config firstId).run
      (before ++ .send occasion target fields delivery :: more)).engine.messageIds.draw.1 ≠ id := by
  intro hagain
  obtain ⟨hw, -, hcounts⟩ := wellFiled_run config firstId before
  obtain ⟨-, -, hlater⟩ := wellFiled_run config firstId
    (before ++ .send occasion target fields delivery :: more)
  refine hlater.draw_notMem hfew ?_
  obtain ⟨-, hdraw, hids, -⟩ :=
    (send_move occasion hw target fields delivery).first_of_synId? hmem hid
  have hdrawn := hcounts.draw_mem_note
    (((starting config firstId).run before).engine.send occasion target fields delivery).2.1 hids
  rw [hagain, hdraw]
  refine mem_drawMany_of_le ?_ hdrawn
  rw [run_append]
  exact idsDrawn_run_le (hw.send occasion target fields delivery) more

lemma HasSent.unique {config : Config} {firstId : UInt32} {steps : List EngineStep}
    (hfew : ((starting config firstId).run steps).idsDrawn < idCycle) {other : Address}
    {found : FieldMap} (h : HasSent (starting config firstId) steps target id fields)
    (h' : HasSent (starting config firstId) steps other id found) :
    other = target ∧ found = fields := by
  obtain ⟨before, occasion, delivery, after, hsteps, first, accepted, hmem, hid⟩ := h
  obtain ⟨before', occasion', delivery', after', hsteps', first', accepted', hmem', hid'⟩ := h'
  have hdrawn : ∀ {before occasion target fields delivery first accepted},
      Effect.sent target first accepted ∈
        (((starting config firstId).run before).engine.send occasion target fields delivery).2.1 →
      synId? first = some id →
      ((starting config firstId).run before).engine.messageIds.draw.1 = id := by
    intro before occasion target fields delivery first accepted hmem hid
    have hw := (wellFiled_run config firstId before).1
    exact ((send_move occasion hw target fields delivery).first_of_synId? hmem hid).2.1.symm
  have hbefore : ∀ {before after}, steps = before ++ after →
      ((starting config firstId).run before).idsDrawn < idCycle := by
    rintro before after rfl
    rw [run_append] at hfew
    exact Nat.lt_of_le_of_lt (idsDrawn_run_le (wellFiled_run config firstId before).1 after) hfew
  have hfew' := hbefore hsteps'
  have hfew := hbefore hsteps
  -- neither call stands before the other
  rcases List.append_eq_append_iff.1 (hsteps.symm.trans hsteps') with
    ⟨_ | ⟨step, more⟩, rfl, hrest⟩ | ⟨_ | ⟨step, more⟩, rfl, hrest⟩
  · cases hrest
    exact ⟨rfl, rfl⟩
  · cases hrest
    exact absurd (hdrawn hmem' hid') (draw_ne_of_sent hmem hid hfew')
  · cases hrest
    exact ⟨rfl, rfl⟩
  · cases hrest
    exact absurd (hdrawn hmem hid) (draw_ne_of_sent hmem' hid' hfew)

end Runs

/-- What an engine keeps for a message that it has sent, and what it hands to the socket for it. -/
structure IsTrueTo (history : History) (target : Address) (id : UInt32) (fields : FieldMap) :
    Prop where
  kept : ∀ record, history.engine.store.connection? ⟨target, id, .sender⟩ = some record →
    (record.status = .synSent ∧ ∃ syn, record.lastSent = some syn ∧ ReadsMessage id fields syn ∧
        ∀ timestamp, ∃ frame, Restamped timestamp syn frame) ∨
      (record.status = .ackSent ∧ record.lastSent = some (encodeControl .synAckSuccess id))
  sent : ∀ other bytes accepted, Effect.sent other bytes accepted ∈ history.effects →
    synId? bytes = some id → other = target ∧ ReadsMessage id fields bytes
  repeated : ∀ (occasion : Occasion) (effect : Effect),
    (effect ∈ (history.engine.sweepConnection occasion ⟨target, id, .sender⟩).2 ∨
      ∃ datagram frame, Reads datagram .synFailure id frame ∧
        effect ∈ (history.engine.receive occasion target datagram).2) →
    ∃ bytes accepted, effect = .sent target bytes accepted ∧ ReadsMessage id fields bytes

section Faith

variable {config : Config} {firstId : UInt32} {steps : List EngineStep} {history : History}
variable {target : Address} {id : UInt32} {fields : FieldMap}

lemma KeepsFaith.keepsMessage (h : KeepsFaith (starting config firstId) steps history)
    (hfew : ((starting config firstId).run steps).idsDrawn < idCycle)
    (hsent : HasSent (starting config firstId) steps target id fields) {record : ConnectionRecord}
    (hrecord : history.engine.store.connections[(⟨target, id, .sender⟩ : ConnectionKey)]? =
      some record) : KeepsMessage fields record := by
  have hkey := (h.filed.connection _ _ hrecord).1
  obtain ⟨found, hfound, hkeeps⟩ := h.senders _ _ hrecord (by rw [hkey])
  rw [hkey] at hfound
  rwa [(hsent.unique hfew hfound).2] at hkeeps

lemma KeepsFaith.isTrueTo (h : KeepsFaith (starting config firstId) steps history)
    (hfew : ((starting config firstId).run steps).idsDrawn < idCycle)
    (hsent : HasSent (starting config firstId) steps target id fields) :
    IsTrueTo history target id fields where
  kept record hrecord := by
    rw [connection?_eq h.filed] at hrecord
    have hkey := (h.filed.connection _ _ hrecord).1
    have hkeeps := h.keepsMessage hfew hsent hrecord
    rcases hkeeps.status with hwaiting | hseen
    · obtain ⟨syn, hsyn, hfirst⟩ := hkeeps.waiting hwaiting
      rw [hkey] at hfirst
      exact Or.inl ⟨hwaiting, syn, hsyn, hfirst.readsMessage, hfirst.restamp⟩
    · have hlast := hkeeps.seen hseen
      rw [hkey] at hlast
      exact Or.inr ⟨hseen, hlast⟩
  sent other bytes accepted hmem hid := by
    obtain ⟨found, hfound, hfirst⟩ := h.effects _ hmem id hid
    obtain ⟨hother, hfields⟩ := hsent.unique hfew hfound
    rw [hfields] at hfirst
    exact ⟨hother, hfirst.readsMessage⟩
  repeated occasion effect heffect := by
    have hrepeats : ∃ bytes accepted, effect = .sent target bytes accepted ∧
        IsFirstFrame id fields bytes := by
      rcases heffect with hmem | ⟨datagram, frame, hreads, hmem⟩
      · exact (sweepConnection_retries occasion h.filed _).repeats h.filed.connection
          (fun record => h.keepsMessage hfew hsent) effect hmem
      · have htouched := wellFiled_touchPeer h.filed occasion.now target
        rw [receive_of_synFailure occasion hreads] at hmem
        refine (receiveSynFailure_retries occasion htouched target id).repeats
          htouched.connection ?_ effect hmem
        intro record hrecord
        rw [connections_touchPeer] at hrecord
        exact h.keepsMessage hfew hsent hrecord
    obtain ⟨bytes, accepted, heffect, hfirst⟩ := hrepeats
    exact ⟨bytes, accepted, heffect, hfirst.readsMessage⟩

end Faith

end History

/-- First frames stay true to their messages. Whatever an engine sends and receives, whatever its
socket refuses, and wherever its sweep has come to: every sender's record belongs to a call of
`send` that has handed a first frame to the socket. What is kept for that message is a first frame
with its id and fields, which can be written again with any timestamp, until it is the
acknowledgement of the success; and every first frame that was or will be handed to the socket for
it has this id, these fields and the layout of the first one. -/
theorem first_frames_true_to_messages (config : Config) (firstId : UInt32)
    (steps : List EngineStep)
    (hfew : ((History.starting config firstId).run steps).idsDrawn < 4294967295)
    (occasion : Occasion) (addresses : List Address) (keys : List ConnectionKey) :
    (∀ target id record,
      (((History.starting config firstId).run steps).midway occasion addresses
        keys).engine.store.connection? ⟨target, id, .sender⟩ = some record →
      ∃ fields, History.HasSent (History.starting config firstId) steps target id fields) ∧
    ∀ target id fields,
      History.HasSent (History.starting config firstId) steps target id fields →
      History.IsTrueTo (((History.starting config firstId).run steps).midway occasion addresses
        keys) target id fields := by
  have hfaith := (History.keepsFaith_run config firstId steps).midway occasion addresses keys
  refine ⟨?_, fun target id fields hsent => hfaith.isTrueTo hfew hsent⟩
  intro target id record hrecord
  rw [connection?_eq hfaith.filed] at hrecord
  have hkey := (hfaith.filed.connection _ _ hrecord).1
  obtain ⟨fields, hsent, -⟩ := hfaith.senders _ _ hrecord (by rw [hkey])
  rw [hkey] at hsent
  exact ⟨fields, hsent⟩

/-- A first frame is repeated by a sweep and upon a failure, with another timestamp each time. Then
a sweep comes to its record once more. -/
theorem first_frames_true_to_messages_repeated :
    let far : Address := .loopback 9002
    let config : Config := { selfAddress := .loopback 9001 }
    let fields : FieldMap := { shorts := some [5] }
    let atTime (now : Nat) : Occasion := ⟨now, fun _ _ => true⟩
    let steps : List EngineStep :=
      [.send (atTime 0) far fields .reliable, .work (atTime 1000) .timeoutSweep,
        .work (atTime 1000) (.receive far (encodeControl .synFailure 1))]
    let history := ((History.starting config 1).run steps).midway (atTime 2000) [far]
      [⟨far, 1, .sender⟩]
    ((History.starting config 1).run steps).idsDrawn < 4294967295 ∧
      History.HasSent (History.starting config 1) steps far 1 fields ∧
      history.effects =
        [.sent far [1, 1, 0, 0, 0, 102, 0, 0, 0, 0, 0, 97, 5, 0] true,
          .sent far [1, 1, 0, 0, 0, 103, 0, 0, 0, 1, 0, 97, 5, 0] true,
          .sent far [1, 1, 0, 0, 0, 104, 0, 0, 0, 2, 0, 97, 5, 0] true,
          .sent far [1, 1, 0, 0, 0, 105, 0, 0, 0, 3, 0, 97, 5, 0] true] ∧
      ReadsMessage 1 fields [1, 1, 0, 0, 0, 105, 0, 0, 0, 3, 0, 97, 5, 0] := by
  intro far config fields atTime steps history
  have hfew : ((History.starting config 1).run steps).idsDrawn < 4294967295 := by
    decide +kernel
  have hsent : History.HasSent (History.starting config 1) steps far 1 fields :=
    ⟨[], atTime 0, .reliable, steps.tail, rfl, [1, 1, 0, 0, 0, 102, 0, 0, 0, 0, 0, 97, 5, 0], true,
      by decide +kernel, by decide +kernel⟩
  have heffects : history.effects =
      [.sent far [1, 1, 0, 0, 0, 102, 0, 0, 0, 0, 0, 97, 5, 0] true,
        .sent far [1, 1, 0, 0, 0, 103, 0, 0, 0, 1, 0, 97, 5, 0] true,
        .sent far [1, 1, 0, 0, 0, 104, 0, 0, 0, 2, 0, 97, 5, 0] true,
        .sent far [1, 1, 0, 0, 0, 105, 0, 0, 0, 3, 0, 97, 5, 0] true] := by
    decide +kernel
  have htrue := (first_frames_true_to_messages config 1 steps hfew (atTime 2000) [far]
    [⟨far, 1, .sender⟩]).2 far 1 fields hsent
  refine ⟨hfew, hsent, heffects, (htrue.sent far _ true ?_ (by decide +kernel)).2⟩
  exact heffects ▸ by simp

end ReliableDatagrams.Proofs
