import ReliableDatagrams.Proofs.FrameGrammar
import ReliableDatagrams.Proofs.OneDelivery
import ReliableDatagrams.Proofs.PeerEviction
import ReliableDatagrams.Proofs.Quiescence
import ReliableDatagrams.Proofs.Restarts

/-!
# Numbers of outgoing frames

Every frame to a peer that is no acknowledgement carries a number from the counter in the record of
the peer: messages when they are sent, and first frames each time they are repeated. A number may be
drawn and spent in vain, but none is written twice, and none is written after a later one
(`AreNumbered`). On the wire the numbers are taken modulo 65536, and the last one of each cycle is left
out, which only the first frame of a handshake may do.

A sweep may evict a peer and repeat frames to it afterwards. It comes to all peers first, so that the
numbers which a step draws are always those of the record that is there after it (`lifetime`).
-/

namespace ReliableDatagrams.Proofs

/-- A frame that is no acknowledgement, going by its first byte. -/
def isData (bytes : Bytes) : Bool :=
  !(announcedKind? bytes).any FrameKind.isControl

/-- The frames other than acknowledgements that are handed to the socket for a peer, be they accepted
or not. -/
def dataFor (peer : Address) (effects : List Effect) : List Bytes :=
  (handedTo peer effects).filter isData

/-- A frame can be read, and its timestamp is a number modulo 65536. It has none if that would be 65535,
and is the first frame of a handshake then. -/
def Carries (number : Nat) (bytes : Bytes) : Prop :=
  ∃ frame, Frame.decode bytes = .ok frame ∧ frame.kind.isControl = false ∧
    if number % 65536 = 65535 then frame.kind = .syn ∧ frame.timestamp = none
    else frame.timestamp = some (.ofNat (number % 65536))

/-- Some frames carry greater and greater numbers, out of so many from the first one on. -/
def AreNumbered (first count : Nat) (frames : List Bytes) : Prop :=
  ∃ numbers : List Nat, numbers.Pairwise (· < ·) ∧
    (∀ number ∈ numbers, first ≤ number ∧ number < first + count) ∧
    List.Forall₂ Carries numbers frames

section Numbers

variable {first count more : Nat} {bytes : Bytes} {frames later : List Bytes}

lemma carries_of_stamp? (h : stamp? bytes = some (stampOf (.ofNat first))) :
    Carries first bytes := by
  obtain ⟨frame, hdecoded, hstamp, hkind⟩ := frame_of_stamp? h
  have hdata : frame.kind.isControl = false := by
    rcases hkind with ⟨hplain, -⟩ | ⟨id, hreads⟩
    · rw [hplain]
      rfl
    · rw [hreads.kind]
      rfl
  have hlast : UInt16.ofNat first = wraparoundTimestamp ↔ first % 65536 = 65535 := by
    rw [← UInt16.toNat_inj, UInt16.toNat_ofNat']
    rfl
  refine ⟨frame, hdecoded, hdata, ?_⟩
  unfold stampOf at hstamp hkind
  by_cases hwrap : first % 65536 = 65535
  · rw [if_pos (hlast.2 hwrap)] at hstamp hkind
    rw [if_pos hwrap]
    rcases hkind with ⟨-, timestamp, hsome⟩ | ⟨id, hreads⟩
    · cases hsome
    · exact ⟨hreads.kind, hstamp⟩
  · rw [if_neg fun h65535 => hwrap (hlast.1 h65535)] at hstamp
    rw [if_neg hwrap, hstamp]
    exact congrArg some (UInt16.ofNat_mod_size.symm)

lemma areNumbered_nil (first count : Nat) : AreNumbered first count [] :=
  ⟨[], .nil, by simp, .nil⟩

lemma areNumbered_single (h : Carries first bytes) : AreNumbered first 1 [bytes] :=
  ⟨[first], List.pairwise_singleton _ _, by simp, .cons h .nil⟩

lemma AreNumbered.append (h : AreNumbered first count frames)
    (hlater : AreNumbered (first + count) more later) :
    AreNumbered first (count + more) (frames ++ later) := by
  obtain ⟨numbers, hrise, hbounds, hcarry⟩ := h
  obtain ⟨others, hrise', hbounds', hcarry'⟩ := hlater
  refine ⟨numbers ++ others, ?_, ?_, List.rel_append hcarry hcarry'⟩
  · refine List.pairwise_append.2 ⟨hrise, hrise', fun number hnumber other hother => ?_⟩
    exact Nat.lt_of_lt_of_le (hbounds number hnumber).2 (hbounds' other hother).1
  · intro number hnumber
    rcases List.mem_append.1 hnumber with hmem | hmem
    · have hbetween := hbounds number hmem
      omega
    · have hbetween := hbounds' number hmem
      omega

lemma AreNumbered.eq_nil (h : AreNumbered first 0 frames) : frames = [] := by
  obtain ⟨numbers, -, hbounds, hcarry⟩ := h
  cases hcarry with
  | nil => rfl
  | cons hfirst hrest =>
    have hbetween := hbounds _ List.mem_cons_self
    omega

lemma AreNumbered.carries (h : AreNumbered first count frames) (hmem : bytes ∈ frames) :
    ∃ number, Carries number bytes := by
  obtain ⟨numbers, -, -, hcarry⟩ := h
  obtain ⟨index, hindex, rfl⟩ := List.getElem_of_mem hmem
  exact ⟨_, hcarry.get (hcarry.length_eq ▸ hindex) hindex⟩

end Numbers

/-- Nothing is handed to the socket, or one frame with the next number for its target. -/
def HandsNext (engine : Engine) (target : Address) (effects : List Effect) : Prop :=
  effects = [] ∨ ∃ frame accepted, effects = [.sent target frame accepted] ∧
    stamp? frame = some (stampOf (outgoingTimestamp engine target))

section Handlers

variable {Sent : Address → UInt32 → FieldMap → Prop} {engine : Engine} {effects : List Effect}
variable {peer target : Address}

lemma dataFor_append (peer : Address) (effects more : List Effect) :
    dataFor peer (effects ++ more) = dataFor peer effects ++ dataFor peer more := by
  rw [dataFor, handedTo_append, List.filter_append, dataFor, dataFor]

lemma dataFor_delivered (peer : Address) (message : Message) :
    dataFor peer [.delivered message] = [] := rfl

lemma dataFor_of_ne (h : target ≠ peer) (bytes : Bytes) (accepted : Bool) :
    dataFor peer [.sent target bytes accepted] = [] := by
  simp [dataFor, handedTo, h]

lemma dataFor_control {kind : FrameKind} (hkind : kind.isControl = true) (peer target : Address)
    (id : UInt32) (accepted : Bool) :
    dataFor peer [.sent target (encodeControl kind id) accepted] = [] := by
  have hcontrol : isData (encodeControl kind id) = false := by
    rw [isData, announcedKind?_encodeControl, Option.any_some, hkind]
    rfl
  by_cases hpeer : target = peer
  · simp [dataFor, handedTo, hpeer, hcontrol]
  · exact dataFor_of_ne hpeer _ _

lemma HandsNext.others (h : HandsNext engine target effects) (hother : target ≠ peer) :
    dataFor peer effects = [] := by
  rcases h with rfl | ⟨frame, accepted, rfl, -⟩
  · rfl
  · exact dataFor_of_ne hother _ _

lemma HandsNext.numbered (h : HandsNext engine peer effects) {first : Nat}
    (hfirst : outgoingTimestamp engine peer = .ofNat first) :
    AreNumbered first 1 (dataFor peer effects) := by
  rcases h with rfl | ⟨frame, accepted, rfl, hstamp⟩
  · exact areNumbered_nil _ _
  · rw [hfirst] at hstamp
    obtain ⟨read, hdecoded, hdata, -⟩ := carries_of_stamp? hstamp
    have hkept : isData frame = true := by
      rw [isData, announcedKind?_of_decode hdecoded, Option.any_some, hdata]
      rfl
    have hframes : dataFor peer [.sent peer frame accepted] = [frame] := by
      simp [dataFor, handedTo, hkept]
    rw [hframes]
    exact areNumbered_single (carries_of_stamp? hstamp)

lemma handsNext_send (hw : WellFiled engine.store) (occasion : Occasion) (target : Address)
    (fields : FieldMap) (delivery : Delivery) :
    HandsNext engine target (engine.send occasion target fields delivery).2.1 := by
  have hmove := send_move occasion hw target fields delivery
  have hnumber := (drawTimestamp_eq hw occasion.now target).2
  generalize (engine.send occasion target fields delivery).1 = after at hmove
  generalize (engine.send occasion target fields delivery).2.1 = effects at hmove ⊢
  generalize (engine.send occasion target fields delivery).2.2 = result at hmove
  cases hmove with
  | failed ids same => exact Or.inl rfl
  | plain drawn unforced written ids same =>
    refine Or.inr ⟨_, _, rfl, ?_⟩
    rw [stamp?_of_encode written, ← drawn, hnumber]
  | first drawn written record ids filed =>
    refine Or.inr ⟨_, _, rfl, ?_⟩
    rw [stamp?_of_encode written, ← drawn, hnumber]

lemma handsNext_resendSyn (hw : WellFiled engine.store) (occasion : Occasion)
    (connection : ConnectionRecord) {id : UInt32} {fields : FieldMap} {syn : Bytes}
    (hfirst : IsFirstFrame id fields syn) :
    HandsNext engine connection.key.peer (engine.resendSyn occasion connection syn).2 := by
  obtain ⟨frame, -, hstamp, hrestamp⟩ :=
    restamp_of_isFirstFrame hw hfirst occasion.now connection.key.peer
  unfold Engine.resendSyn
  rw [hrestamp]
  split
  · exact Or.inl rfl
  · rename_i stamped again hr
    have hagain : some frame = some again := by
      have hwritten := (Prod.mk.inj hr).2
      split at hwritten
      · exact hwritten
      · cases hwritten
    cases hagain
    split
    · exact Or.inr ⟨frame, _, rfl, hstamp⟩
    · exact Or.inl rfl

/-- A frame that is repeated for a handshake carries the next number, which is the same before its
record is filed again. -/
lemma handsNext_retried (hw : WellFiled engine.store)
    (hs : SendersKeep Sent engine.store.connections) (occasion : Occasion) {key : ConnectionKey}
    {connection : ConnectionRecord} {syn : Bytes} (hdue : IsDue engine key connection syn) :
    HandsNext engine key.peer
      ((engine.putConnection (retried connection occasion.now)).resendSyn occasion
        (retried connection occasion.now) syn).2 := by
  obtain ⟨hkey, hkept⟩ := hw.connection _ _ hdue.filed
  obtain ⟨fields, -, hkeeps⟩ := hs _ _ hdue.filed hdue.role
  obtain ⟨buffered, hbuffered, hfirst⟩ := hkeeps.waiting hdue.status
  cases hdue.buffered.symm.trans hbuffered
  have hput := @wellFiled_putConnection engine hw (retried connection occasion.now) hkept
  have hnext := handsNext_resendSyn hput occasion (retried connection occasion.now) hfirst
  have hpeer : (retried connection occasion.now).key.peer = key.peer := congrArg _ hkey
  rw [hpeer] at hnext
  exact hnext

variable (hw : WellFiled engine.store) (hs : SendersKeep Sent engine.store.connections)
variable (occasion : Occasion)

include hw hs

lemma handsNext_sweepConnection (key : ConnectionKey) :
    HandsNext engine key.peer (engine.sweepConnection occasion key).2 ∧
      (isOverdueAt engine occasion.now key = false →
        (engine.sweepConnection occasion key).2 = []) := by
  cases hfiled : engine.store.connections[key]? with
  | none =>
    rw [sweepConnection_of_absent occasion hw hfiled]
    exact ⟨Or.inl rfl, fun _ => rfl⟩
  | some record =>
    rw [isOverdueAt_of_filed hfiled]
    by_cases hoverdue : IsOverdue occasion.now record
    · obtain ⟨fields, syn, hsyn, -⟩ := hoverdue.buffered hs hfiled
      rw [sweepConnection_of_overdue occasion hw hfiled hoverdue hsyn]
      refine ⟨handsNext_retried hw hs occasion ⟨hfiled, hoverdue.role, hoverdue.status, hsyn,
        hoverdue.bound⟩, fun hnever => ?_⟩
      exact absurd hoverdue (of_decide_eq_false hnever)
    · by_cases hidle : record.timeout ≤ record.idleTime occasion.now
      · rw [sweepConnection_of_expired occasion hw hfiled hoverdue hidle]
        exact ⟨Or.inl rfl, fun _ => rfl⟩
      · rw [sweepConnection_of_awake occasion hw hfiled (Nat.lt_of_not_le hidle)]
        exact ⟨Or.inl rfl, fun _ => rfl⟩

/-- A datagram makes an engine hand over a numbered frame only if it repeats a first frame upon a
failure. -/
lemma handsNext_receive (source : Address) (datagram : Bytes) (peer : Address) :
    dataFor peer (engine.receive occasion source datagram).2 = [] ∨
      source = peer ∧ repeatsUpon engine source datagram = true ∧
        HandsNext engine source (engine.receive occasion source datagram).2 := by
  by_cases hfailure : ∃ id frame, Reads datagram .synFailure id frame
  · obtain ⟨id, frame, hreads⟩ := hfailure
    have htouched := wellFiled_touchPeer hw occasion.now source
    have hsame := @connections_touchPeer engine occasion.now source
    have hnumber := (retracks_touchPeer hw occasion.now source).outgoing source
    have hretries := receiveSynFailure_retries occasion htouched source id
    rw [receive_of_synFailure occasion hreads]
    generalize ((engine.touchPeer occasion.now source).receiveSynFailure occasion source id).1 =
      after at hretries
    generalize ((engine.touchPeer occasion.now source).receiveSynFailure occasion source id).2 =
      effects at hretries ⊢
    cases hretries with
    | passed peers filed => exact Or.inl rfl
    | resent due =>
      have hnext := handsNext_retried htouched (hsame ▸ hs) occasion due
      unfold HandsNext at hnext
      rw [hnumber] at hnext
      by_cases hpeer : source = peer
      · refine Or.inr ⟨hpeer, ?_, hnext⟩
        have hfiled := due.filed
        rw [hsame] at hfiled
        have hsome : _ = true := (Option.isSome_iff_exists.2 ⟨_, due.buffered⟩ :)
        rw [repeatsUpon_of_reads hreads, hfiled, Option.any_some]
        exact decide_eq_true ⟨due.status, hsome, due.bound⟩
      · exact Or.inl (HandsNext.others hnext hpeer)
  · left
    have hmove := receive_move occasion hw source datagram
    generalize (engine.receive occasion source datagram).1 = after at hmove
    generalize (engine.receive occasion source datagram).2 = effects at hmove ⊢
    cases hmove with
    | ignored same => rfl
    | plain decoded kind fresh same => rfl
    | rejected invalid record waiting filed => exact dataFor_control rfl _ _ _ _
    | confirmed reads record opened filed => exact dataFor_control rfl _ _ _ _
    | accepted reads record waiting fresh filed =>
      rw [← List.singleton_append, dataFor_append, dataFor_control rfl, dataFor_delivered]
      rfl
    | acknowledged reads record status filed => exact dataFor_control rfl _ _ _ _
    | retried reads record retry => exact absurd ⟨_, _, reads⟩ hfailure
    | closed reads filed => exact dataFor_control rfl _ _ _ _
    | finished reads record status filed => rfl

end Handlers

/-- The number that a step draws first for a peer, if it draws any. -/
def nextNumber (engine : Engine) (peer : Address) (step : EngineStep) : UInt16 :=
  ((knownBy engine peer step).map PeerRecord.nextTimestamp).getD 0

section Steps

variable {Sent : Address → UInt32 → FieldMap → Prop} {engine : Engine} {peer : Address}
variable {first : Nat}

lemma numbered_visits (hw : WellFiled engine.store)
    (hs : SendersKeep Sent engine.store.connections) (occasion : Occasion)
    {keys : List ConnectionKey} (hnodup : keys.Nodup)
    (hfirst : outgoingTimestamp engine peer = .ofNat first) :
    AreNumbered first (repeatsTo engine occasion.now peer keys)
      (dataFor peer (engine.visitAll (Engine.sweepConnection occasion) keys).2) := by
  induction keys using List.reverseRecOn with
  | nil => exact areNumbered_nil _ _
  | append_singleton keys key ih =>
    rw [← List.concat_eq_append, List.nodup_concat] at hnodup
    have hbetween := visitHandshakes occasion hw hs hnodup.2
    have hcounter := (hbetween.peers peer).outgoingTimestamp
    rw [hfirst, ← UInt16.ofNat_add] at hcounter
    rw [visitAll_concat, repeatsTo_concat, dataFor_append]
    obtain ⟨hnext, hsilent⟩ :=
      handsNext_sweepConnection hbetween.filed hbetween.senders occasion key
    rw [isOverdueAt_congr (hbetween.others key hnodup.1)] at hsilent
    refine (ih hnodup.2).append ?_
    by_cases hrepeats : key.peer = peer ∧ isOverdueAt engine occasion.now key = true
    · rw [if_pos hrepeats]
      rw [hrepeats.1] at hnext
      exact hnext.numbered hcounter
    · rw [if_neg hrepeats]
      by_cases hpeer : key.peer = peer
      · have hnever := Bool.eq_false_iff.2 fun hoverdue => hrepeats ⟨hpeer, hoverdue⟩
        rw [hsilent hnever]
        exact areNumbered_nil _ _
      · rw [hnext.others hpeer]
        exact areNumbered_nil _ _

/-- The frames of a step carry some of the numbers that it draws, in their order. -/
theorem numbered_step (hp : IsProper engine.store)
    (hs : SendersKeep Sent engine.store.connections) (step : EngineStep) (peer : Address)
    (hfirst : nextNumber engine peer step = .ofNat first) :
    AreNumbered first (drawsBy engine peer step) (dataFor peer (step.effects engine)) := by
  cases step with
  | send occasion target fields delivery =>
    have hnext := handsNext_send hp.filed occasion target fields delivery
    rw [drawsBy]
    by_cases hpeer : target = peer
    · subst hpeer
      rw [if_pos rfl]
      exact hnext.numbered hfirst
    · rw [if_neg hpeer, EngineStep.effects, hnext.others hpeer]
      exact areNumbered_nil _ _
  | work occasion task =>
    cases task with
    | deleteSweep => exact areNumbered_nil _ _
    | receive source datagram =>
      rcases handsNext_receive hp.filed hs occasion source datagram peer with
        hnone | ⟨rfl, hrepeats, hnext⟩
      · rw [EngineStep.effects, Engine.run, hnone]
        exact areNumbered_nil _ _
      · rw [drawsBy, if_pos ⟨rfl, hrepeats⟩]
        exact hnext.numbered hfirst
    | timeoutSweep =>
      have hpeersOnce := @Std.ExtTreeMap.nodup_keys _ _ _ engine.store.peers _
      obtain ⟨hwell, -, hconnections, -, hsilent⟩ :=
        visitPeers_swept occasion hp.filed hpeersOnce
      have hswept := visitPeers_all occasion hp.filed peer
      rw [EngineStep.effects, Engine.run, timeoutSweep_eq occasion hp.filed]
      unfold visited
      rw [drawsBy]
      dsimp only
      rw [hsilent, List.nil_append, ← repeatsTo_congr hconnections]
      refine numbered_visits hwell (hconnections ▸ hs) occasion Std.ExtTreeMap.nodup_keys ?_
      rw [outgoingTimestamp, hswept]
      exact hfirst

/-- A record that is there after a step has gone on from what was known by the numbers that were drawn,
or has started from 0. -/
lemma PeerStep.counted {step : EngineStep} {after : Engine} {record : PeerRecord}
    (h : PeerStep engine peer step after) (hrecord : after.store.peers[peer]? = some record) :
    record.nextTimestamp = nextNumber engine peer step + .ofNat (drawsBy engine peer step) ∧
      ((∃ old, engine.store.peers[peer]? = some old ∧ old.serial = record.serial ∧
          old.nextTimestamp = nextNumber engine peer step) ∨
        engine.store.nextSerial ≤ record.serial ∧ nextNumber engine peer step = 0) := by
  unfold nextNumber
  by_cases hheard : Interacts engine peer step
  · obtain ⟨serial, hserial, found, hfound, htouched⟩ := h.heard hheard
    cases hrecord.symm.trans hfound
    have hnumber := congrArg PeerRecord.nextTimestamp htouched
    have hsame := congrArg PeerRecord.serial htouched
    cases hknown : knownBy engine peer step with
    | none =>
      rw [hknown] at hnumber hsame
      exact ⟨hnumber, Or.inr ⟨le_of_le_of_eq hserial hsame.symm, rfl⟩⟩
    | some kept =>
      rw [hknown] at hnumber hsame
      obtain ⟨old, hold, hkept, hnext⟩ := kept_of_knownBy hknown
      exact ⟨hnumber, Or.inl ⟨old, hold, (hsame.trans hkept).symm, hnext.symm⟩⟩
  · have hknown := (h.silent hheard).symm.trans hrecord
    obtain ⟨old, hold, hkept, hnext⟩ := kept_of_knownBy hknown
    rw [hknown, drawsBy_of_not_interacts hheard]
    exact ⟨(UInt16.add_zero _).symm, Or.inl ⟨old, hold, hkept.symm, hnext.symm⟩⟩

/-- A peer to which a frame is handed has a record after the step. -/
lemma exists_record_of_dataFor (hp : IsProper engine.store)
    (hs : SendersKeep Sent engine.store.connections) {step : EngineStep} {after : Engine}
    (h : PeerStep engine peer step after) (hsome : dataFor peer (step.effects engine) ≠ []) :
    ∃ record, after.store.peers[peer]? = some record := by
  have hnumbered := @numbered_step Sent engine _ hp hs step peer UInt16.ofNat_toNat.symm
  by_cases hheard : Interacts engine peer step
  · obtain ⟨-, -, record, hrecord, -⟩ := h.heard hheard
    exact ⟨record, hrecord⟩
  · rw [drawsBy_of_not_interacts hheard] at hnumbered
    exact absurd hnumbered.eq_nil hsome

end Steps

/-- The steps of a run after which the record of a peer is the one with this serial number, each with
the engine that takes it. -/
def lifetime (peer : Address) (serial : Nat) : History → List EngineStep →
    List (Engine × EngineStep)
  | _, [] => []
  | history, step :: rest =>
    (if ((history.step step).engine.store.peers[peer]?).map PeerRecord.serial = some serial then
      [(history.engine, step)] else []) ++ lifetime peer serial (history.step step) rest

def numbersDrawn (peer : Address) (turns : List (Engine × EngineStep)) : Nat :=
  (turns.map fun turn => drawsBy turn.1 peer turn.2).sum

/-- The data frames that some steps hand to the socket for a peer, in their order. -/
def framesHanded (peer : Address) (turns : List (Engine × EngineStep)) : List Bytes :=
  turns.flatMap fun turn => dataFor peer (turn.2.effects turn.1)

section Lifetimes

variable {peer : Address} {serial : Nat} {history : History} {steps : List EngineStep}

lemma lifetime_concat (peer : Address) (serial : Nat) (history : History)
    (steps : List EngineStep) (step : EngineStep) :
    lifetime peer serial history (steps ++ [step]) = lifetime peer serial history steps ++
      if (((history.run steps).step step).engine.store.peers[peer]?).map PeerRecord.serial =
          some serial then [((history.run steps).engine, step)] else [] := by
  induction steps generalizing history with
  | nil => simp [lifetime, History.run]
  | cons first rest ih => simp [lifetime, ih, History.run]

lemma numbersDrawn_append (turns more : List (Engine × EngineStep)) :
    numbersDrawn peer (turns ++ more) = numbersDrawn peer turns + numbersDrawn peer more := by
  rw [numbersDrawn, List.map_append, List.sum_append, numbersDrawn, numbersDrawn]

lemma framesHanded_append (turns more : List (Engine × EngineStep)) :
    framesHanded peer (turns ++ more) = framesHanded peer turns ++ framesHanded peer more :=
  List.flatMap_append

lemma effects_step (history : History) (step : EngineStep) :
    (history.step step).effects = history.effects ++ step.effects history.engine := by
  cases step <;> rfl

/-- The record of a peer has numbered its frames. Nothing was drawn from a record that is not there
yet. -/
structure HasNumbered (peer : Address) (serial : Nat) (turns : List (Engine × EngineStep))
    (store : Store) : Prop where
  numbered : AreNumbered 0 (numbersDrawn peer turns) (framesHanded peer turns)
  unused : store.nextSerial ≤ serial → turns = []
  counter : ∀ record, store.peers[peer]? = some record → record.serial = serial →
    record.nextTimestamp = .ofNat (numbersDrawn peer turns)

section Counting

variable {Sent : Address → UInt32 → FieldMap → Prop} {turns : List (Engine × EngineStep)}
variable {record : PeerRecord} (h : HasNumbered peer serial turns history.engine.store)
variable (hp : IsProper history.engine.store)
variable (hs : SendersKeep Sent history.engine.store.connections) (step : EngineStep)

include h hp hs

/-- A step goes on with the next number of the record that is there after it. -/
lemma HasNumbered.nextNumber_eq
    (hrecord : (history.step step).engine.store.peers[peer]? = some record)
    (hserial : record.serial = serial) :
    nextNumber history.engine peer step = .ofNat (numbersDrawn peer turns) := by
  rcases ((peerStep hp hs step peer).counted hrecord).2 with
    ⟨old, hold, hsame, hnumber⟩ | ⟨hnew, hzero⟩
  · rw [← hnumber, h.counter old hold (hsame.trans hserial)]
  · rw [hzero, h.unused (hserial ▸ hnew)]
    rfl

lemma HasNumbered.numbered_next
    (hrecord : (history.step step).engine.store.peers[peer]? = some record)
    (hserial : record.serial = serial) :
    AreNumbered (numbersDrawn peer turns) (drawsBy history.engine peer step)
      (dataFor peer (step.effects history.engine)) :=
  numbered_step hp hs step peer (h.nextNumber_eq hp hs step hrecord hserial)

lemma HasNumbered.go_on :
    HasNumbered peer serial (turns ++
      if ((history.step step).engine.store.peers[peer]?).map PeerRecord.serial = some serial then
        [(history.engine, step)] else []) (history.step step).engine.store := by
  have hnext := (edits_step hp step).nextSerial_le
  split
  · rename_i hown
    obtain ⟨record, hrecord, hserial⟩ := Option.map_eq_some_iff.1 hown
    have hstep := h.numbered_next hp hs step hrecord hserial
    rw [← Nat.zero_add (numbersDrawn peer turns)] at hstep
    refine ⟨?_, fun hunused => ?_, fun found hfound _ => ?_⟩
    · rw [numbersDrawn_append, framesHanded_append]
      simpa [numbersDrawn, framesHanded] using h.numbered.append hstep
    · have hused := ((edits_step hp step).isProper hp).serials.used (.peer peer) record.serial
        (by rw [filedSerial?, hrecord]; rfl)
      omega
    · cases hrecord.symm.trans hfound
      rw [((peerStep hp hs step peer).counted hrecord).1,
        h.nextNumber_eq hp hs step hrecord hserial, ← UInt16.ofNat_add, numbersDrawn_append]
      simp [numbersDrawn]
  · rename_i hother
    rw [List.append_nil]
    refine ⟨h.numbered, fun hunused => h.unused (Nat.le_trans hnext hunused), ?_⟩
    intro record hrecord hserial
    rw [hrecord, Option.map_some, hserial] at hother
    exact absurd rfl hother

end Counting

lemma hasNumbered_run (config : Config) (firstId : UInt32) (steps : List EngineStep)
    (peer : Address) (serial : Nat) :
    HasNumbered peer serial (lifetime peer serial (.starting config firstId) steps)
      ((History.starting config firstId).run steps).engine.store := by
  induction steps using List.reverseRecOn with
  | nil =>
    refine ⟨areNumbered_nil _ _, fun _ => rfl, fun record hrecord => ?_⟩
    simp [History.run, History.starting, Engine.starting] at hrecord
  | append_singleton steps step ih =>
    rw [lifetime_concat, History.run_concat]
    exact ih.go_on (isProper_run config firstId steps)
      (History.keepsFaith_run config firstId steps).senders step

/-- Every data frame was handed over in the lifetime of some record. -/
lemma exists_lifetime (config : Config) (firstId : UInt32) (steps : List EngineStep)
    {bytes : Bytes}
    (hmem : bytes ∈ dataFor peer ((History.starting config firstId).run steps).effects) :
    ∃ serial, bytes ∈ framesHanded peer (lifetime peer serial (.starting config firstId) steps) := by
  induction steps using List.reverseRecOn with
  | nil => cases hmem
  | append_singleton steps step ih =>
    rw [History.run_concat, effects_step, dataFor_append, List.mem_append] at hmem
    rcases hmem with hearlier | hnow
    · obtain ⟨serial, hframe⟩ := ih hearlier
      refine ⟨serial, ?_⟩
      rw [lifetime_concat, framesHanded_append]
      exact List.mem_append_left _ hframe
    · have hfaith := History.keepsFaith_run config firstId steps
      obtain ⟨record, hrecord⟩ := exists_record_of_dataFor (isProper_run config firstId steps)
        hfaith.senders (peerStep_run config firstId steps step peer) (List.ne_nil_of_mem hnow)
      refine ⟨record.serial, ?_⟩
      rw [lifetime_concat, framesHanded_append, hrecord, Option.map_some, if_pos rfl]
      refine List.mem_append_right _ ?_
      simpa [framesHanded] using hnow

end Lifetimes

/-- An acknowledgement has no timestamp. -/
lemma timestamp_of_control {bytes : Bytes} {frame : Frame} (h : Frame.decode bytes = .ok frame)
    (hkind : frame.kind.isControl = true) : frame.timestamp = none := by
  rw [decode_eq_iff] at h
  unfold IsReadAs at h
  dsimp only at h
  split_ifs at h with hshort hzero hconflict hcontrol hcut hsum htimeless
  · obtain ⟨_, _, hok⟩ := h
    cases hok
    rfl
  · obtain ⟨_, _, _, hhandshake, _, hok⟩ := h
    cases hok
    rw [isControl_of_handshake hhandshake] at hkind
    exact absurd hkind hcontrol

/-- No number is written twice, and the numbers that are written rise. After any run, for each record
that a peer has had: the data frames that were handed to the socket for the peer in the lifetime of the
record carry greater and greater numbers, in the order in which they were handed over, out of those that
were drawn from its counter, which has started at 0; and the frames of one step more carry numbers that
are drawn in this step. The timestamps are these numbers modulo 65536, and the only frames without one
are first frames of handshakes with the last number of a cycle. Every data frame for the peer is among
them, and no frame at all carries the timestamp 65535. -/
theorem outgoing_numbers_rise (config : Config) (firstId : UInt32) (steps : List EngineStep)
    (peer : Address) :
    let start := History.starting config firstId
    let history := start.run steps
    (∀ serial,
      let turns := lifetime peer serial start steps
      AreNumbered 0 (numbersDrawn peer turns) (framesHanded peer turns) ∧
        (∀ record, history.engine.store.peers[peer]? = some record → record.serial = serial →
          record.nextTimestamp = .ofNat (numbersDrawn peer turns)) ∧
        ∀ step record, (history.step step).engine.store.peers[peer]? = some record →
          record.serial = serial →
            AreNumbered (numbersDrawn peer turns) (drawsBy history.engine peer step)
              (dataFor peer (step.effects history.engine))) ∧
    (∀ bytes ∈ dataFor peer history.effects,
      ∃ serial, bytes ∈ framesHanded peer (lifetime peer serial start steps)) ∧
    ∀ bytes ∈ handedTo peer history.effects, ∀ frame, Frame.decode bytes = .ok frame →
      frame.timestamp ≠ some 65535 := by
  intro start history
  have hnumbered := hasNumbered_run config firstId steps peer
  have hproper := isProper_run config firstId steps
  have hfaith := History.keepsFaith_run config firstId steps
  refine ⟨fun serial => ⟨(hnumbered serial).numbered, (hnumbered serial).counter,
    fun step record => (hnumbered serial).numbered_next hproper hfaith.senders step⟩,
    fun bytes hmem => exists_lifetime config firstId steps hmem, ?_⟩
  intro bytes hmem frame hdecoded
  cases hdata : isData bytes with
  | true =>
    obtain ⟨serial, hframe⟩ :=
      exists_lifetime config firstId steps (List.mem_filter.2 ⟨hmem, hdata⟩)
    obtain ⟨number, read, hread, -, hstamp⟩ := (hnumbered serial).numbered.carries hframe
    cases hdecoded.symm.trans hread
    split at hstamp
    · rw [hstamp.2]
      exact (Option.some_ne_none _).symm
    · rename_i hearly
      rw [hstamp]
      intro hlast
      have hsame := congrArg UInt16.toNat (Option.some.inj hlast)
      rw [UInt16.toNat_ofNat', Nat.mod_mod] at hsame
      exact hearly hsame
  | false =>
    rw [isData, announcedKind?_of_decode hdecoded, Option.any_some] at hdata
    rw [timestamp_of_control hdecoded (by simpa using hdata)]
    exact (Option.some_ne_none _).symm

/-- A plain message and one by a handshake, whose first frame the socket refuses to repeat in a sweep:
the record of the handshake is gone, but the number was written. A message after that gets the next
one. -/
theorem outgoing_numbers_rise_refused :
    let far : Address := .loopback 9002
    let config : Config := { selfAddress := .loopback 9001 }
    let accepting (now : Nat) : Occasion := ⟨now, fun _ _ => true⟩
    let steps : List EngineStep :=
      [.send (accepting 0) far {} .unreliable, .send (accepting 0) far {} .reliable,
        .work ⟨1000, fun _ _ => false⟩ .timeoutSweep, .send (accepting 1000) far {} .unreliable]
    let turns := lifetime far 0 (.starting config 1) steps
    framesHanded far turns =
        [[0, 0, 0, 0, 0, 0, 0], [1, 1, 0, 0, 0, 1, 0, 0, 0, 1, 0],
          [1, 1, 0, 0, 0, 2, 0, 0, 0, 2, 0], [0, 3, 0, 0, 0, 3, 0]] ∧
      AreNumbered 0 4 (framesHanded far turns) := by
  intro far config accepting steps turns
  have hdrawn : numbersDrawn far turns = 4 := by decide +kernel
  have hrise := ((outgoing_numbers_rise config 1 steps far).1 0).1
  refine ⟨by decide +kernel, ?_⟩
  rw [← hdrawn]
  exact hrise

end ReliableDatagrams.Proofs
