import ReliableDatagrams.Proofs.Redelivery
import ReliableDatagrams.Proofs.TimestampMoves

/-!
# One message at its two ends

What the moves of an engine do about one message that goes by a handshake, at its sender and at its
receiver. The sender's record waits until the receiver answers, or until a timeout; first frames go out
only while it waits, and the success is answered once it does so no longer. The receiver holds its
record of a message that it has accepted until it is told that its success was seen, or until a timeout.
-/

namespace ReliableDatagrams.Proofs

/-- What engines put on the wire. -/
inductive IsFrame : Bytes → Prop where
  | data {fields : List FieldValues} {options : FrameOptions} {bytes : Bytes}
      (written : encode fields options = .ok bytes) : IsFrame bytes
  | control {kind : FrameKind} (isControl : kind.isControl = true) (id : UInt32) :
      IsFrame (encodeControl kind id)

/-- All frames among the effects carry a message. -/
def OnlyData (effects : List Effect) : Prop :=
  ∀ target bytes accepted, Effect.sent target bytes accepted ∈ effects →
    ∃ fields options, encode fields options = .ok bytes

section Frames

variable {bytes : Bytes} {kind : FrameKind} {id : UInt32} {frame : Frame}

lemma IsFrame.undamaged (h : IsFrame bytes) (header : FrameHeader) (expected actual : UInt32) :
    Frame.decode bytes ≠ .error (.checksumMismatch header expected actual) := by
  intro hdamaged
  cases h with
  | data written =>
    rw [decode_of_encode written] at hdamaged
    cases hdamaged
  | control isControl id =>
    by_cases hid : id = 0
    · rw [hid, decode_encodeControl_zero isControl] at hdamaged
      cases hdamaged
    · rw [decode_encodeControl isControl hid] at hdamaged
      cases hdamaged

lemma reads_of_data {fields : List FieldValues} {options : FrameOptions}
    (written : encode fields options = .ok bytes) (h : Reads bytes kind id frame) :
    kind = .syn ∧ options.messageId = some id := by
  have hframe := h.decoded
  rw [decode_of_encode written] at hframe
  have hid := h.id
  have hkind := h.kind
  rw [← Except.ok.inj hframe] at hid hkind
  have hmessage : options.messageId = some id := hid
  refine ⟨?_, hmessage⟩
  rw [← hkind, writtenFrame, hmessage]
  rfl

lemma reads_of_control {seen : UInt32} {other : FrameKind} (isControl : kind.isControl = true)
    (h : Reads (encodeControl kind seen) other id frame) : other = kind ∧ seen = id := by
  obtain ⟨hkind, hid⟩ := decode_encodeControl_eq_ok isControl h.decoded
  exact ⟨h.kind.symm.trans hkind, Option.some.inj (hid.symm.trans h.id)⟩

end Frames

section Moves

variable {engine after : Engine} {occasion : Occasion} {effects : List Effect}
variable {source peer : Address} {datagram bytes : Bytes} {id : UInt32} {frame : Frame}

lemma onlyData_nil : OnlyData [] :=
  fun _ _ _ hmem => absurd hmem List.not_mem_nil

lemma onlyData_singleton {fields : List FieldValues} {options : FrameOptions} {target : Address}
    {accepted : Bool} (written : encode fields options = .ok bytes) :
    OnlyData [.sent target bytes accepted] := by
  intro other found taken hmem
  cases List.mem_singleton.1 hmem
  exact ⟨_, _, written⟩

lemma RetryMove.onlyData {connection : ConnectionRecord}
    (h : RetryMove engine occasion connection after effects) : OnlyData effects := by
  cases h with
  | repeated role status buffered written bound filed =>
    obtain ⟨decoded, -, hwritten⟩ := written
    exact onlyData_singleton hwritten
  | givenUp filed => exact onlyData_nil

lemma SweepMove.onlyData (h : SweepMove engine occasion after effects) : OnlyData effects := by
  cases h with
  | kept same => exact onlyData_nil
  | retried record retry => exact retry.onlyData
  | expired filed => exact onlyData_nil

lemma SendMove.onlyData {target : Address} {fields : FieldMap}
    {result : Except SendError (Option UInt32)}
    (h : SendMove engine occasion target fields after effects result) : OnlyData effects := by
  cases h with
  | failed ids same => exact onlyData_nil
  | plain drawn unforced written ids same => exact onlyData_singleton written
  | first drawn written record ids filed => exact onlyData_singleton written

lemma timeoutSweep_onlyData (hw : WellFiled engine.store) :
    OnlyData (engine.timeoutSweep occasion).2 := by
  have hall := @timeoutSweep_induction engine occasion (fun _ => True)
    (fun effect => OnlyData [effect]) (fun _ hmove _ => ⟨trivial, fun effect hmem => by
      intro target bytes accepted hsent
      rw [List.mem_singleton] at hsent
      exact hmove.onlyData target bytes accepted (hsent ▸ hmem)⟩) hw trivial
  intro target bytes accepted hmem
  exact hall.2 _ hmem target bytes accepted (List.mem_singleton_self _)

lemma ReceiveMove.frames (h : ReceiveMove engine occasion source datagram after effects)
    {target : Address} {accepted : Bool} (hmem : Effect.sent target bytes accepted ∈ effects) :
    IsFrame bytes := by
  cases h with
  | ignored same => simp at hmem
  | plain decoded kind fresh same => simp at hmem
  | rejected invalid record waiting filed =>
    cases List.mem_singleton.1 hmem
    exact .control rfl _
  | confirmed reads record opened filed =>
    cases List.mem_singleton.1 hmem
    exact .control rfl _
  | accepted reads record waiting fresh filed =>
    simp only [List.mem_cons, reduceCtorEq, List.not_mem_nil, or_false, Effect.sent.injEq] at hmem
    rw [hmem.2.1]
    exact .control rfl _
  | acknowledged reads record status filed =>
    cases List.mem_singleton.1 hmem
    exact .control rfl _
  | retried reads record retry =>
    obtain ⟨fields, options, written⟩ := retry.onlyData _ _ _ hmem
    exact .data written
  | closed reads filed =>
    cases List.mem_singleton.1 hmem
    exact .control rfl _
  | finished reads record status filed => simp at hmem

/-- Whoever answers a success holds a record of the message, and waits no longer. -/
lemma ReceiveMove.closes (hf : ConnectionsFiled engine.store.connections)
    (h : ReceiveMove engine occasion source datagram after effects) {accepted : Bool}
    (hmem : Effect.sent peer bytes accepted ∈ effects) (hr : Reads bytes .synAckSuccess id frame) :
    (∃ record, engine.store.connections[(⟨peer, id, .sender⟩ : ConnectionKey)]? = some record ∧
        (record.status = .synSent ∨ record.status = .ackSent)) ∧
      Settled after.store.connections[(⟨peer, id, .sender⟩ : ConnectionKey)]? ∧
      effects.countP (isSynFor peer id) = 0 := by
  cases h with
  | ignored same => simp at hmem
  | plain decoded kind fresh same => simp at hmem
  | rejected invalid record waiting filed =>
    cases List.mem_singleton.1 hmem
    cases (reads_of_control rfl hr).1
  | confirmed reads record opened filed =>
    cases List.mem_singleton.1 hmem
    cases (reads_of_control rfl hr).1
  | accepted reads record waiting fresh filed =>
    simp only [List.mem_cons, reduceCtorEq, List.not_mem_nil, or_false, Effect.sent.injEq] at hmem
    rw [hmem.2.1] at hr
    cases (reads_of_control rfl hr).1
  | @acknowledged seen _ connection reads record status filed =>
    cases List.mem_singleton.1 hmem
    obtain ⟨-, rfl⟩ := reads_of_control rfl hr
    have hkey := (hf _ _ record).1
    refine ⟨⟨connection, record, status⟩, ?_, countP_isSynFor_control source seen rfl _ _ _⟩
    rw [filed, getElem?_afterTransmit, if_pos hkey]
    intro later hlater
    split at hlater
    · cases hlater
      simp
    · cases hlater
  | retried reads record retry =>
    obtain ⟨fields, options, written⟩ := retry.onlyData _ _ _ hmem
    cases (reads_of_data written hr).1
  | closed reads filed =>
    cases List.mem_singleton.1 hmem
    cases (reads_of_control rfl hr).1
  | finished reads record status filed => simp at hmem

/-- A sender that waits goes on waiting until the receiver answers. -/
lemma ReceiveMove.keepsWaiting (hf : ConnectionsFiled engine.store.connections)
    (h : ReceiveMove engine occasion source datagram after effects) {record : ConnectionRecord}
    (hrecord : engine.store.connections[(⟨peer, id, .sender⟩ : ConnectionKey)]? = some record)
    (hwaiting : record.status = .synSent)
    (hsuccess : source = peer → ∀ frame, ¬ Reads datagram .synSuccess id frame)
    (hfailure : source = peer → ∀ frame, ¬ Reads datagram .synFailure id frame) :
    after.store.connections[(⟨peer, id, .sender⟩ : ConnectionKey)]? = some record := by
  cases h with
  | ignored same => rw [same, hrecord]
  | plain decoded kind fresh same => rw [same, hrecord]
  | rejected invalid found waiting filed =>
    have hkey := (found.key hf).1
    rw [filed]
    split
    · rw [getElem?_afterTransmit, if_neg (by simp [hkey]), hrecord]
    · rw [getElem?_erase_eq, if_neg (by simp), hrecord]
  | confirmed reads found opened filed =>
    rw [filed, getElem?_afterTransmit, if_neg (by simp [(hf _ _ found).1]), hrecord]
  | accepted reads found waiting fresh filed =>
    rw [filed, getElem?_afterTransmit, if_neg (by simp [(found.key hf).1]), hrecord]
  | acknowledged reads found status filed =>
    rw [filed, getElem?_afterTransmit, if_neg, hrecord]
    intro hkey
    cases (hf _ _ found).1.symm.trans hkey
    exact hsuccess rfl _ reads
  | retried reads found retry =>
    have hkey := (hf _ _ found).1
    cases retry with
    | repeated role status buffered written bound filed =>
      rw [filed, getElem?_afterTransmit, if_neg, hrecord]
      intro hsame
      cases hkey.symm.trans hsame
      exact hfailure rfl _ reads
    | givenUp filed =>
      rw [filed, getElem?_erase_eq, if_neg, hrecord]
      intro hsame
      cases hkey.symm.trans hsame
      exact hfailure rfl _ reads
  | closed reads filed => rw [filed, getElem?_erase_eq, if_neg (by simp), hrecord]
  | finished reads found status filed =>
    rw [filed, getElem?_erase_eq, if_neg, hrecord]
    intro hkey
    cases hkey
    rw [hrecord] at found
    cases found
    rw [hwaiting] at status
    exact absurd status (by decide)

lemma SendMove.opens (hf : ConnectionsFiled engine.store.connections) {target : Address}
    {fields : FieldMap} {result : Except SendError (Option UInt32)}
    (h : SendMove engine occasion target fields after effects result)
    (haccepts : ∀ target bytes, occasion.accepts target bytes = true)
    (hresult : result = .ok (some id)) :
    ∃ frame connection, effects = [.sent target frame true] ∧ synId? frame = some id ∧
      IsFiledOrNew engine.store ⟨target, id, .sender⟩ connection ∧
      after.store.connections[(⟨target, id, .sender⟩ : ConnectionKey)]? = some { connection with
        status := .synSent, lastInteraction := occasion.now, lastSent := some frame } := by
  cases h with
  | failed ids same => cases hresult
  | plain drawn unforced written ids same =>
    rw [if_pos (haccepts _ _)] at hresult
    cases hresult
  | @first timestamp frame connection drawn written record ids filed =>
    rw [if_pos (haccepts _ _)] at hresult
    cases hresult
    refine ⟨frame, connection, by rw [haccepts], synId?_of_encode written, record, ?_⟩
    rw [filed, getElem?_afterTransmit, if_pos (record.key hf).1, haccepts, if_pos rfl]

lemma SendMove.aside (hf : ConnectionsFiled engine.store.connections) {target : Address}
    {fields : FieldMap} {result : Except SendError (Option UInt32)}
    (h : SendMove engine occasion target fields after effects result)
    (haccepts : ∀ target bytes, occasion.accepts target bytes = true)
    (hother : target = peer → result ≠ .ok (some id)) :
    after.store.connections[(⟨peer, id, .sender⟩ : ConnectionKey)]? =
        engine.store.connections[(⟨peer, id, .sender⟩ : ConnectionKey)]? ∧
      effects.countP (isSynFor peer id) = 0 := by
  cases h with
  | failed ids same => exact ⟨by rw [same], rfl⟩
  | plain drawn unforced written ids same =>
    refine ⟨by rw [same], ?_⟩
    simp [isSynFor, synId?_of_encode written]
  | first drawn written record ids filed =>
    have hkey := (record.key hf).1
    rw [if_pos (haccepts _ _)] at hother
    have hne : ¬ (target = peer ∧ engine.messageIds.draw.1 = id) := by
      rintro ⟨htarget, hid⟩
      exact hother htarget (by rw [hid])
    rw [countP_isSynFor_syn peer id (synId?_of_encode written), if_neg hne, filed,
      getElem?_afterTransmit, if_neg]
    · exact ⟨rfl, rfl⟩
    · rw [hkey]
      intro hsame
      cases hsame
      exact hne ⟨rfl, rfl⟩

/-- A failure is sent only to where a rejected first frame comes from. -/
lemma ReceiveMove.rejects (h : ReceiveMove engine occasion source datagram after effects)
    {accepted : Bool} (hmem : Effect.sent peer bytes accepted ∈ effects)
    (hr : Reads bytes .synFailure id frame) :
    source = peer ∧ IsRejectedSyn engine source datagram id := by
  cases h with
  | ignored same => simp at hmem
  | plain decoded kind fresh same => simp at hmem
  | rejected invalid record waiting filed =>
    cases List.mem_singleton.1 hmem
    obtain ⟨-, rfl⟩ := reads_of_control rfl hr
    exact ⟨rfl, invalid⟩
  | confirmed reads record opened filed =>
    cases List.mem_singleton.1 hmem
    cases (reads_of_control rfl hr).1
  | accepted reads record waiting fresh filed =>
    simp only [List.mem_cons, reduceCtorEq, List.not_mem_nil, or_false, Effect.sent.injEq] at hmem
    rw [hmem.2.1] at hr
    cases (reads_of_control rfl hr).1
  | acknowledged reads record status filed =>
    cases List.mem_singleton.1 hmem
    cases (reads_of_control rfl hr).1
  | retried reads record retry =>
    obtain ⟨fields, options, written⟩ := retry.onlyData _ _ _ hmem
    cases (reads_of_data written hr).1
  | closed reads filed =>
    cases List.mem_singleton.1 hmem
    cases (reads_of_control rfl hr).1
  | finished reads record status filed => simp at hmem

/-- A record that has accepted its message is filed. -/
def AcceptedIn (connections : Std.ExtTreeMap ConnectionKey ConnectionRecord) (source : Address)
    (id : UInt32) : Prop :=
  ∃ record, connections[(⟨source, id, .receiver⟩ : ConnectionKey)]? = some record ∧
    .synAckSent ≤ record.status

lemma holdsAccepted_iff (hw : WellFiled engine.store) (source : Address) (id : UInt32) :
    HoldsAccepted engine source id ↔ AcceptedIn engine.store.connections source id := by
  unfold HoldsAccepted AcceptedIn
  rw [connection?_eq hw]

lemma AcceptedIn.afterTransmit {connections : Std.ExtTreeMap ConnectionKey ConnectionRecord}
    {connection : ConnectionRecord} {accepted : Bool} (h : AcceptedIn connections peer id)
    (hown : connection.key = ⟨peer, id, .receiver⟩ →
      accepted = true ∧ .synAckSent ≤ connection.status) (bytes : Bytes) :
    AcceptedIn (afterTransmit connections connection bytes accepted) peer id := by
  obtain ⟨record, hrecord, hopen⟩ := h
  unfold AcceptedIn
  rw [getElem?_afterTransmit]
  by_cases hkey : connection.key = ⟨peer, id, .receiver⟩
  · obtain ⟨haccepted, hstatus⟩ := hown hkey
    rw [if_pos hkey, if_pos haccepted]
    exact ⟨_, rfl, hstatus⟩
  · rw [if_neg hkey]
    exact ⟨record, hrecord, hopen⟩

lemma AcceptedIn.erase {connections : Std.ExtTreeMap ConnectionKey ConnectionRecord}
    {key : ConnectionKey} (h : AcceptedIn connections peer id)
    (hother : key ≠ ⟨peer, id, .receiver⟩) : AcceptedIn (connections.erase key) peer id := by
  obtain ⟨record, hrecord, hopen⟩ := h
  refine ⟨record, ?_, hopen⟩
  rw [getElem?_erase_eq, if_neg hother, hrecord]

/-- A receiver holds on to what it has accepted until it is told that its success was seen. -/
lemma ReceiveMove.acceptedIn (hf : ConnectionsFiled engine.store.connections)
    (h : ReceiveMove engine occasion source datagram after effects)
    (haccepts : ∀ target bytes, occasion.accepts target bytes = true)
    (hclosing : source = peer → ∀ frame, ¬ Reads datagram .synAckSuccess id frame)
    (hheld : AcceptedIn engine.store.connections peer id) :
    AcceptedIn after.store.connections peer id := by
  cases h with
  | ignored same => rwa [same]
  | plain decoded kind fresh same => rwa [same]
  | @rejected seen connection invalid record waiting filed =>
    have hkey := (record.key hf).1
    have hother : (⟨source, seen, .receiver⟩ : ConnectionKey) ≠ ⟨peer, id, .receiver⟩ := by
      rintro hsame
      obtain ⟨held, hfiled, hopen⟩ := hheld
      rw [← hsame] at hfiled
      rcases record with hrecord | ⟨hnone, -⟩
      · rw [hrecord] at hfiled
        cases hfiled
        exact waiting hopen
      · rw [hnone] at hfiled
        cases hfiled
    rw [filed]
    split
    · apply hheld.afterTransmit
      exact fun hsame => absurd (hkey.symm.trans hsame) hother
    · exact hheld.erase hother
  | confirmed reads record opened filed =>
    rw [filed]
    apply hheld.afterTransmit
    exact fun _ => ⟨haccepts _ _, opened⟩
  | accepted reads record waiting fresh filed =>
    rw [filed]
    apply hheld.afterTransmit
    exact fun _ => ⟨haccepts _ _, Nat.le_refl _⟩
  | acknowledged reads record status filed =>
    rw [filed]
    refine hheld.afterTransmit (fun hsame => ?_) _
    cases (hf _ _ record).1.symm.trans hsame
  | retried reads record retry =>
    have hkey := (hf _ _ record).1
    cases retry with
    | repeated role status buffered written bound filed =>
      rw [filed]
      refine hheld.afterTransmit (fun hsame => ?_) _
      cases hkey.symm.trans hsame
    | givenUp filed =>
      rw [filed]
      refine hheld.erase ?_
      rw [hkey]
      exact nofun
  | closed reads filed =>
    rw [filed]
    refine hheld.erase ?_
    intro hsame
    cases hsame
    exact hclosing rfl _ reads
  | finished reads record status filed =>
    rw [filed]
    exact hheld.erase nofun

lemma SendMove.acceptedIn (hf : ConnectionsFiled engine.store.connections) {target : Address}
    {fields : FieldMap} {result : Except SendError (Option UInt32)}
    (h : SendMove engine occasion target fields after effects result)
    (hheld : AcceptedIn engine.store.connections peer id) :
    AcceptedIn after.store.connections peer id := by
  cases h with
  | failed ids same => rwa [same]
  | plain drawn unforced written ids same => rwa [same]
  | first drawn written record ids filed =>
    rw [filed]
    refine hheld.afterTransmit (fun hsame => ?_) _
    cases (record.key hf).1.symm.trans hsame

end Moves

end ReliableDatagrams.Proofs
