import ReliableDatagrams.Proofs.Fleet
import ReliableDatagrams.Proofs.FrameRoundTrip

/-!
# What records and datagrams stand for

A first frame on the wire, and a sender's record that waits for an answer to it, stand for a message
that was sent. A success on the wire, a sender's record that has seen one, and a receiver's record
that has sent one, all stand for a message that was delivered. Every move of a handshake keeps to
this, whatever is lost, repeated, delayed or forgotten.
-/

namespace ReliableDatagrams.Proofs

/-- A call has sent this message, and returned its id. -/
def Posted (ledger : Ledger) (source target : Address) (id : Option UInt32) (fields : FieldMap) :
    Prop :=
  ∃ call ∈ ledger.calls, call.source = source ∧ call.target = target ∧ call.fields = fields ∧
    call.result = .ok id

/-- The message has been delivered. -/
def Heard (ledger : Ledger) (source target : Address) (id : UInt32) : Prop :=
  ∃ fields, { target, message := { source, id := some id, fields } } ∈ ledger.arrivals

structure Ledger.Extends (later earlier : Ledger) : Prop where
  calls : earlier.calls ⊆ later.calls
  arrivals : earlier.arrivals ⊆ later.arrivals

section Ledgers

variable {ledger later : Ledger} {source target : Address}

lemma Posted.mono {id : Option UInt32} {fields : FieldMap}
    (h : Posted ledger source target id fields) (hext : later.Extends ledger) :
    Posted later source target id fields := by
  obtain ⟨call, hcall, hrest⟩ := h
  exact ⟨call, hext.calls hcall, hrest⟩

lemma Heard.mono {id : UInt32} (h : Heard ledger source target id) (hext : later.Extends ledger) :
    Heard later source target id := by
  obtain ⟨fields, hfields⟩ := h
  exact ⟨fields, hext.arrivals hfields⟩

lemma extends_hear (ledger : Ledger) (host : Address) (effects : List Effect) :
    (ledger.hear host effects).Extends ledger :=
  ⟨List.Subset.refl _, List.subset_append_left _ _⟩

lemma extends_post (ledger : Ledger) (call : SendCall) : (ledger.post call).Extends ledger :=
  ⟨List.subset_append_left _ _, List.Subset.refl _⟩

lemma Ledger.Extends.trans {last : Ledger} (h : last.Extends later)
    (h' : later.Extends ledger) : last.Extends ledger :=
  ⟨List.Subset.trans h'.calls h.calls, List.Subset.trans h'.arrivals h.arrivals⟩

end Ledgers

structure SoundDatagram (ledger : Ledger) (datagram : Datagram) : Prop where
  plain : ∀ frame, Frame.decode datagram.bytes = .ok frame → frame.kind = .plain →
    Posted ledger datagram.source datagram.target none frame.fields
  first : ∀ id frame, Reads datagram.bytes .syn id frame →
    Posted ledger datagram.source datagram.target (some id) frame.fields
  success : ∀ id frame, Reads datagram.bytes .synSuccess id frame →
    Heard ledger datagram.target datagram.source id

/-- What a record of a handshake stands for at the address that holds it. -/
structure SoundRecord (ledger : Ledger) (host : Address) (record : ConnectionRecord) : Prop where
  waiting : record.key.role = .sender → record.status = .synSent → ∃ syn frame,
    record.lastSent = some syn ∧ Reads syn .syn record.key.messageId frame ∧
      Posted ledger host record.key.peer (some record.key.messageId) frame.fields
  acknowledged : record.key.role = .sender → .ackSent ≤ record.status →
    Heard ledger host record.key.peer record.key.messageId
  accepted : record.key.role = .receiver → .synAckSent ≤ record.status →
    Heard ledger record.key.peer host record.key.messageId

def SoundEffect (ledger : Ledger) (host : Address) : Effect → Prop
  | .sent target bytes true => SoundDatagram ledger { source := host, target, bytes }
  | .sent _ _ false => True
  | .delivered message => Posted ledger message.source host message.id message.fields

/-- The records of an engine are sound after its effects, which are sound too. -/
structure SoundOutcome (ledger : Ledger) (host : Address) (after : Engine) (effects : List Effect) :
    Prop where
  records : AllRecords (SoundRecord ledger host) after.store.connections
  effects : ∀ effect ∈ effects, SoundEffect ledger host effect

section Soundness

variable {ledger later : Ledger} {host : Address}

lemma SoundDatagram.mono {datagram : Datagram} (h : SoundDatagram ledger datagram)
    (hext : later.Extends ledger) : SoundDatagram later datagram where
  plain frame hframe hkind := (h.plain frame hframe hkind).mono hext
  first id frame hframe := (h.first id frame hframe).mono hext
  success id frame hframe := (h.success id frame hframe).mono hext

lemma SoundRecord.mono {record : ConnectionRecord} (h : SoundRecord ledger host record)
    (hext : later.Extends ledger) : SoundRecord later host record where
  waiting hrole hstatus := by
    obtain ⟨syn, frame, hsent, hreads, hposted⟩ := h.waiting hrole hstatus
    exact ⟨syn, frame, hsent, hreads, hposted.mono hext⟩
  acknowledged hrole hstatus := (h.acknowledged hrole hstatus).mono hext
  accepted hrole hstatus := (h.accepted hrole hstatus).mono hext

lemma SoundEffect.mono {effect : Effect} (h : SoundEffect ledger host effect)
    (hext : later.Extends ledger) : SoundEffect later host effect := by
  cases effect with
  | delivered message =>
    have hposted : Posted ledger message.source host message.id message.fields := h
    exact hposted.mono hext
  | sent target bytes accepted =>
    cases accepted with
    | false => trivial
    | true =>
      have hdatagram : SoundDatagram ledger { source := host, target, bytes } := h
      exact hdatagram.mono hext

lemma SoundOutcome.mono {after : Engine} {effects : List Effect}
    (h : SoundOutcome ledger host after effects) (hext : later.Extends ledger) :
    SoundOutcome later host after effects where
  records := h.records.mono fun _ hrecord => hrecord.mono hext
  effects effect heffect := (h.effects effect heffect).mono hext

lemma soundRecord_of_receiver {record : ConnectionRecord} (hrole : record.key.role = .receiver)
    (h : .synAckSent ≤ record.status → Heard ledger record.key.peer host record.key.messageId) :
    SoundRecord ledger host record where
  waiting hsender := by
    rw [hrole] at hsender
    cases hsender
  acknowledged hsender := by
    rw [hrole] at hsender
    cases hsender
  accepted _ hstatus := h hstatus

lemma soundRecord_of_acknowledged {record : ConnectionRecord} (hrole : record.key.role = .sender)
    (hstatus : record.status = .ackSent)
    (h : Heard ledger host record.key.peer record.key.messageId) :
    SoundRecord ledger host record where
  waiting _ hwaiting := by
    rw [hstatus] at hwaiting
    cases hwaiting
  acknowledged _ _ := h
  accepted hreceiver := by
    rw [hrole] at hreceiver
    cases hreceiver

lemma soundRecord_of_waiting {record : ConnectionRecord} {syn : Bytes} {frame : Frame}
    (hrole : record.key.role = .sender) (hstatus : record.status = .synSent)
    (hsent : record.lastSent = some syn) (hreads : Reads syn .syn record.key.messageId frame)
    (h : Posted ledger host record.key.peer (some record.key.messageId) frame.fields) :
    SoundRecord ledger host record where
  waiting _ _ := ⟨syn, frame, hsent, hreads, h⟩
  acknowledged _ hacknowledged := by
    rw [hstatus] at hacknowledged
    exact absurd hacknowledged (by decide)
  accepted hreceiver := by
    rw [hrole] at hreceiver
    cases hreceiver

lemma decode_encodeControl_zero {kind : FrameKind} (hkind : kind.isControl = true) :
    Frame.decode (encodeControl kind 0) = .error .zeroMessageId := by
  cases kind <;> first | rfl | exact absurd hkind (by decide)

lemma decode_encodeControl_eq_ok {kind : FrameKind} (hkind : kind.isControl = true) {id : UInt32}
    {frame : Frame} (h : Frame.decode (encodeControl kind id) = .ok frame) :
    frame.kind = kind ∧ frame.header.messageId = some id := by
  by_cases hid : id = 0
  · rw [hid, decode_encodeControl_zero hkind] at h
    cases h
  · rw [decode_encodeControl hkind hid] at h
    cases h
    exact ⟨rfl, rfl⟩

lemma soundDatagram_control {kind : FrameKind} (hkind : kind.isControl = true)
    (hother : kind ≠ .synSuccess) (target : Address) (id : UInt32) :
    SoundDatagram ledger { source := host, target, bytes := encodeControl kind id } where
  plain frame hframe hplain := by
    rw [(decode_encodeControl_eq_ok hkind hframe).1] at hplain
    rw [hplain] at hkind
    cases hkind
  first seen frame hframe := by
    have hsyn := hframe.kind
    rw [(decode_encodeControl_eq_ok hkind hframe.decoded).1] at hsyn
    rw [hsyn] at hkind
    cases hkind
  success seen frame hframe := by
    have hsuccess := hframe.kind
    rw [(decode_encodeControl_eq_ok hkind hframe.decoded).1] at hsuccess
    exact absurd hsuccess hother

lemma soundDatagram_success {target : Address} {id : UInt32} (h : Heard ledger target host id) :
    SoundDatagram ledger
      { source := host, target, bytes := encodeControl .synSuccess id } where
  plain frame hframe hplain := by
    rw [(decode_encodeControl_eq_ok rfl hframe).1] at hplain
    cases hplain
  first seen frame hframe := by
    have hsyn := hframe.kind
    rw [(decode_encodeControl_eq_ok rfl hframe.decoded).1] at hsyn
    cases hsyn
  success seen frame hframe := by
    have hid := hframe.id
    rw [(decode_encodeControl_eq_ok rfl hframe.decoded).2] at hid
    cases hid
    exact h

lemma soundEffect_sent {target : Address} {bytes : Bytes} (accepted : Bool)
    (h : accepted = true → SoundDatagram ledger { source := host, target, bytes }) :
    SoundEffect ledger host (.sent target bytes accepted) := by
  cases accepted with
  | false => trivial
  | true => exact h rfl

lemma soundDatagram_written {fields : FieldMap} {options : FrameOptions} {target : Address}
    {bytes : Bytes} (hwritten : encode fields.toList options = .ok bytes)
    (h : Posted ledger host target options.messageId fields) :
    SoundDatagram ledger { source := host, target, bytes } := by
  have hdecode := decode_of_encode hwritten
  have hfields : (writtenFrame fields.toList options).fields = fields := ofList_toList fields
  constructor
  · intro frame hframe hkind
    rw [hdecode] at hframe
    cases hframe
    have hnone : options.messageId = none := by
      cases hid : options.messageId with
      | none => rfl
      | some id => simp [writtenFrame, dataKind, hid] at hkind
    rw [hfields, ← hnone]
    exact h
  · intro id frame hframe
    obtain ⟨hdecoded, hkind, hid⟩ := hframe
    rw [hdecode] at hdecoded
    cases hdecoded
    have hsome : options.messageId = some id := hid
    rw [hfields, ← hsome]
    exact h
  · intro id frame hframe
    obtain ⟨hdecoded, hkind, hid⟩ := hframe
    rw [hdecode] at hdecoded
    cases hdecoded
    have hdata : dataKind options.messageId = .synSuccess := hkind
    cases hid' : options.messageId <;> simp [dataKind, hid'] at hdata

lemma reads_written {fields : FieldMap} {options : FrameOptions} {id : UInt32} {bytes : Bytes}
    (hwritten : encode fields.toList options = .ok bytes) (hid : options.messageId = some id) :
    ∃ frame, Reads bytes .syn id frame ∧ frame.fields = fields := by
  refine ⟨writtenFrame fields.toList options, ⟨decode_of_encode hwritten, ?_, hid⟩,
    ofList_toList fields⟩
  simp [writtenFrame, dataKind, hid]

variable {engine after : Engine} (occasion : Occasion) {effects : List Effect}

lemma RetryMove.sound {connection : ConnectionRecord}
    (hrecords : AllRecords (SoundRecord ledger host) engine.store.connections)
    (hconnection : SoundRecord ledger host connection)
    (h : RetryMove engine occasion connection after effects) :
    SoundOutcome ledger host after effects := by
  cases h with
  | givenUp filed => exact ⟨by rw [filed]; exact hrecords.erase _, by simp⟩
  | repeated role status buffered written bound filed =>
    obtain ⟨syn, frame, hsyn, hreads, hposted⟩ := hconnection.waiting role status
    obtain ⟨decoded, hdecoded, hwritten⟩ := written
    -- what is read of the buffered frame is what the record's message was written from
    have hsame : decoded = frame := by
      rw [buffered] at hsyn
      cases hsyn
      exact Except.ok.inj (hdecoded.symm.trans hreads.decoded)
    subst hsame
    rw [hreads.id] at hwritten
    constructor
    · rw [filed]
      apply hrecords.afterTransmit
      intro _
      obtain ⟨again, hagain, hfields⟩ := reads_written hwritten rfl
      rw [← hfields] at hposted
      exact soundRecord_of_waiting role status rfl hagain hposted
    · intro effect heffect
      rw [List.mem_singleton.1 heffect]
      exact soundEffect_sent _ fun _ => soundDatagram_written hwritten hposted

lemma ReceiveMove.sound {source : Address} {datagram : Bytes}
    (hfiled : ConnectionsFiled engine.store.connections)
    (hrecords : AllRecords (SoundRecord ledger host) engine.store.connections)
    (hdatagram : SoundDatagram ledger { source, target := host, bytes := datagram })
    (h : ReceiveMove engine occasion source datagram after effects) :
    SoundOutcome (ledger.hear host effects) host after effects := by
  have hext := extends_hear ledger host effects
  have hlater := hrecords.mono fun record hrecord => hrecord.mono hext
  cases h with
  | ignored same => exact ⟨same ▸ hlater, by simp⟩
  | plain decoded kind fresh same =>
    refine ⟨same ▸ hlater, ?_⟩
    intro effect heffect
    rw [List.mem_singleton.1 heffect]
    exact (hdatagram.plain _ decoded kind).mono hext
  | rejected invalid record waiting filed =>
    have hkey := (record.key hfiled).1
    constructor
    · rw [filed]
      split
      · apply hlater.afterTransmit
        intro _
        apply soundRecord_of_receiver
        · simp only [hkey]
        · intro hstatus
          exact absurd hstatus waiting
      · exact hlater.erase _
    · intro effect heffect
      rw [List.mem_singleton.1 heffect]
      exact soundEffect_sent _ fun _ => soundDatagram_control rfl (by decide) _ _
  | confirmed reads record opened filed =>
    have hkey := (hfiled _ _ record).1
    have hheard := (hlater _ _ record).accepted (by rw [hkey]) opened
    rw [hkey] at hheard
    constructor
    · rw [filed]
      apply hlater.afterTransmit
      intro _
      apply soundRecord_of_receiver
      · simp only [hkey]
      · intro _
        simp only [hkey]
        exact hheard
    · intro effect heffect
      rw [List.mem_singleton.1 heffect]
      exact soundEffect_sent _ fun _ => soundDatagram_success hheard
  | @accepted id frame connection reads record waiting fresh filed =>
    have hkey := (record.key hfiled).1
    have hheard : Heard (ledger.hear host [.sent source (encodeControl .synSuccess id)
          (occasion.accepts source (encodeControl .synSuccess id)),
        .delivered { source, id := some id, fields := frame.fields }]) source host id :=
      ⟨frame.fields, List.mem_append_right _ (List.mem_singleton_self _)⟩
    constructor
    · rw [filed]
      apply hlater.afterTransmit
      intro _
      apply soundRecord_of_receiver
      · simp only [hkey]
      · intro _
        simp only [hkey]
        exact hheard
    · intro effect heffect
      rcases List.mem_pair.1 heffect with rfl | rfl
      · exact soundEffect_sent _ fun _ => soundDatagram_success hheard
      · exact (hdatagram.first _ _ reads).mono hext
  | acknowledged reads record status filed =>
    have hkey := (hfiled _ _ record).1
    constructor
    · rw [filed]
      apply hlater.afterTransmit
      intro _
      apply soundRecord_of_acknowledged
      · simp only [hkey]
      · rfl
      · simp only [hkey]
        exact (hdatagram.success _ _ reads).mono hext
    · intro effect heffect
      rw [List.mem_singleton.1 heffect]
      exact soundEffect_sent _ fun _ => soundDatagram_control rfl (by decide) _ _
  | retried reads record retry => exact retry.sound occasion hlater (hlater _ _ record)
  | closed reads filed =>
    refine ⟨by rw [filed]; exact hlater.erase _, ?_⟩
    intro effect heffect
    rw [List.mem_singleton.1 heffect]
    exact soundEffect_sent _ fun _ => soundDatagram_control rfl (by decide) _ _
  | finished reads record status filed =>
    exact ⟨by rw [filed]; exact hlater.erase _, by simp⟩

lemma SweepMove.sound (hrecords : AllRecords (SoundRecord ledger host) engine.store.connections)
    (h : SweepMove engine occasion after effects) : SoundOutcome ledger host after effects := by
  cases h with
  | kept same => exact ⟨same ▸ hrecords, by simp⟩
  | retried record retry => exact retry.sound occasion hrecords (hrecords _ _ record)
  | expired filed => exact ⟨by rw [filed]; exact hrecords.erase _, by simp⟩

lemma SendMove.sound {target : Address} {fields : FieldMap}
    {result : Except SendError (Option UInt32)}
    (hfiled : ConnectionsFiled engine.store.connections)
    (hrecords : AllRecords (SoundRecord ledger host) engine.store.connections)
    (hposted : ∀ id, result = .ok id → Posted ledger host target id fields)
    (h : SendMove engine occasion target fields after effects result) :
    SoundOutcome ledger host after effects := by
  cases h with
  | failed ids same => exact ⟨same ▸ hrecords, by simp⟩
  | plain drawn unforced written ids same =>
    refine ⟨same ▸ hrecords, ?_⟩
    intro effect heffect
    rw [List.mem_singleton.1 heffect]
    apply soundEffect_sent
    intro haccepted
    exact soundDatagram_written written (hposted none (if_pos haccepted))
  | first drawn written record ids filed =>
    have hkey := (record.key hfiled).1
    constructor
    · rw [filed]
      apply hrecords.afterTransmit
      intro haccepted
      obtain ⟨frame, hframe, hfields⟩ := reads_written written rfl
      refine @soundRecord_of_waiting ledger host _ _ frame ?_ rfl rfl ?_ ?_
      · simp only [hkey]
      · simp only [hkey]
        exact hframe
      · simp only [hkey]
        exact hfields ▸ hposted _ (if_pos haccepted)
    · intro effect heffect
      rw [List.mem_singleton.1 heffect]
      apply soundEffect_sent
      intro haccepted
      exact soundDatagram_written written (hposted _ (if_pos haccepted))

lemma timeoutSweep_sound (hw : WellFiled engine.store)
    (hrecords : AllRecords (SoundRecord ledger host) engine.store.connections) :
    WellFiled (engine.timeoutSweep occasion).1.store ∧
      SoundOutcome ledger host (engine.timeoutSweep occasion).1
        (engine.timeoutSweep occasion).2 := by
  obtain ⟨⟨hwell, hafter⟩, heffects⟩ := @timeoutSweep_induction engine occasion
    (fun engine => AllRecords (SoundRecord ledger host) engine.store.connections)
    (SoundEffect ledger host) (by
      intro engine after effects hinv hmove _
      have hsound := hmove.sound occasion hinv
      exact ⟨hsound.records, hsound.effects⟩) hw hrecords
  exact ⟨hwell, hafter, heffects⟩

/-- What an engine does of its own is sound, given that what it receives is. -/
lemma run_sound (hw : WellFiled engine.store)
    (hrecords : AllRecords (SoundRecord ledger host) engine.store.connections) (task : EngineTask)
    (htask : ∀ source bytes, task = .receive source bytes →
      SoundDatagram ledger { source, target := host, bytes }) :
    WellFiled (engine.run occasion task).1.store ∧
      SoundOutcome (ledger.hear host (engine.run occasion task).2) host
        (engine.run occasion task).1 (engine.run occasion task).2 := by
  cases task with
  | receive source bytes =>
    exact ⟨hw.receive occasion source bytes, (receive_move occasion hw source bytes).sound occasion
      hw.connection hrecords (htask source bytes rfl)⟩
  | timeoutSweep =>
    obtain ⟨hwell, hsound⟩ := timeoutSweep_sound occasion hw hrecords
    exact ⟨hwell, hsound.mono (extends_hear _ _ _)⟩
  | deleteSweep =>
    have hsound : SoundOutcome ledger host (engine.deleteSweep occasion.now) [] :=
      ⟨hrecords, by simp⟩
    exact ⟨⟨hw.peer, hw.connection⟩, hsound.mono (extends_hear _ _ _)⟩

end Soundness

end ReliableDatagrams.Proofs
