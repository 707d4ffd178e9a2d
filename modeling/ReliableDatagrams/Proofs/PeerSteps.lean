import ReliableDatagrams.Proofs.RecordAges
import ReliableDatagrams.Proofs.SweepOutcomes

/-!
# What a step does to a peer

There are three ways to interact with a peer: a frame comes from it, a message is sent to it, or
first frames are repeated to it. Each of them touches the record of the peer, and opens one if there
is none. A step that is no interaction leaves a peer as it is, but for a sweep, which may find it
idle. `PeerStep` says what a step makes of a record, but for what is tracked of the peer's
timestamps, and `peerStep` that every step does so.
-/

namespace ReliableDatagrams.Proofs

/-- A datagram tells that the first frame of a message was not accepted, and its sender
repeats it. -/
def repeatsUpon (engine : Engine) (source : Address) (datagram : Bytes) : Bool :=
  match Frame.decode datagram with
  | .ok frame =>
    match frame.kind, frame.header.messageId with
    | .synFailure, some id =>
      (engine.store.connections[(⟨source, id, .sender⟩ : ConnectionKey)]?).any fun record =>
        decide (record.status = .synSent ∧ record.lastSent.isSome = true ∧
          record.failures + 1 ≤ record.failureBound)
    | _, _ => false
  | .error _ => false

/-- How many numbers a step takes from the counter of a peer. -/
def drawsBy (engine : Engine) (peer : Address) : EngineStep → Nat
  | .send _ target _ _ => if target = peer then 1 else 0
  | .work _ (.receive source datagram) =>
    if source = peer ∧ repeatsUpon engine source datagram = true then 1 else 0
  | .work occasion .timeoutSweep =>
    repeatsTo engine occasion.now peer engine.store.connections.keys
  | .work _ .deleteSweep => 0

/-- A step is an interaction with a peer: a message is sent to it, a frame from it can be read, or
the first frame of a message to it is repeated by a sweep. -/
def Interacts (engine : Engine) (peer : Address) : EngineStep → Prop
  | .send _ target _ _ => target = peer
  | .work _ (.receive source datagram) => source = peer ∧ ∃ frame, Frame.decode datagram = .ok frame
  | .work occasion .timeoutSweep =>
    0 < repeatsTo engine occasion.now peer engine.store.connections.keys
  | .work _ .deleteSweep => False

lemma drawsBy_of_not_interacts {engine : Engine} {peer : Address} {step : EngineStep}
    (h : ¬ Interacts engine peer step) : drawsBy engine peer step = 0 := by
  cases step with
  | send occasion target fields delivery => exact if_neg h
  | work occasion task =>
    cases task with
    | deleteSweep => rfl
    | timeoutSweep => exact Nat.eq_zero_of_not_pos h
    | receive source datagram =>
      refine if_neg ?_
      rintro ⟨hsource, hrepeats⟩
      unfold repeatsUpon at hrepeats
      split at hrepeats
      · rename_i frame hd
        exact h ⟨hsource, frame, hd⟩
      · cases hrepeats

/-- The record of a peer, but for what is tracked of its timestamps. -/
def untracked (record : PeerRecord) : PeerRecord :=
  { record with lastTimestamp := none }

/-- A peer was touched, and so many numbers were taken from its counter. No other peer has
changed. -/
def Touches (engine : Engine) (now : Nat) (peer : Address) (count : Nat) (after : Engine) : Prop :=
  ∃ record, after.store.peers = engine.store.peers.insert peer record ∧
    untracked record = untracked (writtenTo now count (peerOrNew engine.store now peer))

section Touching

lemma writtenTo_zero (now : Nat) (record : PeerRecord) :
    writtenTo now 0 record = record.touch now := by
  have hnext : record.nextTimestamp + .ofNat 0 = record.nextTimestamp := UInt16.add_zero _
  rw [writtenTo, hnext]
  rfl

variable {engine between after : Engine} {now : Nat} {peer : Address} {count : Nat}

lemma Touches.of_peers (h : Touches engine now peer count between)
    (hsame : after.store.peers = between.store.peers) : Touches engine now peer count after := by
  obtain ⟨record, hpeers, hrecord⟩ := h
  exact ⟨record, hsame.trans hpeers, hrecord⟩

variable (hw : WellFiled engine.store)

include hw

lemma touches_touchPeer (now : Nat) (peer : Address) :
    Touches engine now peer 0 (engine.touchPeer now peer) := by
  refine ⟨_, peers_touchPeer hw now peer, ?_⟩
  rw [writtenTo_zero]

lemma address_of_touched {record : PeerRecord}
    (h : untracked record = untracked (writtenTo now count (peerOrNew engine.store now peer))) :
    record.address = peer := by
  have haddress : (untracked record).address =
      (untracked (writtenTo now count (peerOrNew engine.store now peer))).address := by rw [h]
  exact haddress.trans (peerOrNew_filed hw.peer now peer).1

lemma Touches.withPeer (h : Touches engine now peer count between) {α : Type}
    {change : PeerRecord → PeerRecord × α}
    (hchange : ∀ record, untracked (change record).1 = untracked record) :
    Touches engine now peer count (between.withPeer now peer change).1 := by
  obtain ⟨record, hpeers, hrecord⟩ := h
  have hchanged := (hchange record).trans hrecord
  exact ⟨_, peers_withPeer_insert hpeers now change (address_of_touched hw hchanged), hchanged⟩

lemma Touches.drawTimestamp (h : Touches engine now peer count between) :
    Touches engine now peer (count + 1) (between.drawTimestamp now peer).1 := by
  obtain ⟨record, hpeers, hrecord⟩ := h
  have hdrawn : untracked (((record.touch now).drawTimestamp).1) =
      untracked (writtenTo now (count + 1) (peerOrNew engine.store now peer)) := by
    have hcommutes : ∀ record : PeerRecord, untracked (((record.touch now).drawTimestamp).1) =
        (((untracked record).touch now).drawTimestamp).1 := fun _ => rfl
    rw [hcommutes, hrecord, ← hcommutes, touch_writtenTo]
  exact ⟨_, peers_withPeer_insert hpeers now _ (address_of_touched hw hdrawn), hdrawn⟩

lemma Touches.acceptTimestamp (h : Touches engine now peer count between)
    (timestamp : Option UInt16) :
    Touches engine now peer count (between.acceptTimestamp now peer timestamp).1 := by
  cases timestamp with
  | none => exact h
  | some timestamp =>
    refine h.withPeer hw fun record => ?_
    unfold PeerRecord.accept
    split <;> rfl

end Touching

section Receiving

variable {Sent : Address → UInt32 → FieldMap → Prop} {engine touched : Engine}
variable (occasion : Occasion) {source : Address} {datagram : Bytes}

lemma Touches.receiveSyn (hw : WellFiled engine.store)
    (h : Touches engine occasion.now source 0 touched) (id : UInt32) (timestamp : Option UInt16)
    (fields : FieldMap) : Touches engine occasion.now source 0
      (touched.receiveSyn occasion source id timestamp fields).1 := by
  have hopened : Touches engine occasion.now source 0 { touched with store :=
      (touched.store.connectionOrInsert occasion.now ⟨source, id, .receiver⟩).1 } :=
    h.of_peers (peers_connectionOrInsert _ _ _)
  have haccepted := hopened.acceptTimestamp hw timestamp
  unfold Engine.receiveSyn
  dsimp only
  split
  · exact hopened.of_peers (peers_transmit _ _ _ _)
  · split
    · rename_i tracked hr
      rw [hr] at haccepted
      exact haccepted.of_peers (peers_rejectSyn occasion _ _)
    · rename_i tracked hr
      rw [hr] at haccepted
      have hreset : Touches engine occasion.now source 0
          (tracked.resetTimestamps occasion.now source timestamp) :=
        haccepted.withPeer hw fun _ => rfl
      exact hreset.of_peers (peers_transmit _ _ _ _)

lemma repeatsUpon_of_reads {id : UInt32} {frame : Frame}
    (hr : Reads datagram .synFailure id frame) :
    repeatsUpon engine source datagram =
      (engine.store.connections[(⟨source, id, .sender⟩ : ConnectionKey)]?).any fun record =>
        decide (record.status = .synSent ∧ record.lastSent.isSome = true ∧
          record.failures + 1 ≤ record.failureBound) := by
  simp only [repeatsUpon, hr.decoded, hr.kind, hr.id]

/-- A first frame that was not accepted is repeated if its sender still waits and has
failures left. -/
lemma peers_receiveSynFailure (hw : WellFiled engine.store)
    (hs : SendersKeep Sent engine.store.connections) {id : UInt32} {frame : Frame}
    (hr : Reads datagram .synFailure id frame) :
    (engine.receiveSynFailure occasion source id).1.store.peers =
      (if repeatsUpon engine source datagram then (engine.drawTimestamp occasion.now source).1
        else engine).store.peers := by
  unfold Engine.receiveSynFailure
  rw [repeatsUpon_of_reads hr, connection?_eq hw]
  cases hfiled : engine.store.connections[(⟨source, id, .sender⟩ : ConnectionKey)]? with
  | none => rfl
  | some record =>
    obtain ⟨hkey, hkept⟩ := hw.connection _ _ hfiled
    have hpeer : record.key.peer = source := by rw [hkey]
    dsimp only
    split
    · rename_i syn hstatus hsyn
      by_cases hbound : record.failures + 1 ≤ record.failureBound
      · have hput := @wellFiled_putConnection engine hw (retried record occasion.now) hkept
        obtain ⟨fields, -, hkeeps⟩ := hs _ record hfiled (by rw [hkey])
        obtain ⟨buffered, hbuffered, hfirst⟩ := hkeeps.waiting hstatus
        cases hsyn.symm.trans hbuffered
        have hresent := @samePeers_resendSyn _ occasion hput (retried record occasion.now) _ _ _
          hfirst
        have hretried : (retried record occasion.now).key.peer = source := hpeer
        rw [hretried, drawTimestamp_putConnection] at hresent
        have hwithin : record.registerFailure.2 = true := decide_eq_true hbound
        have hsome : record.lastSent.isSome = true := by
          rw [hsyn]
          rfl
        rw [if_pos hwithin, Option.any_some, if_pos (decide_eq_true ⟨hstatus, hsome, hbound⟩)]
        exact hresent.peers
      · have hover : record.registerFailure.2 ≠ true := fun hwithin =>
          hbound (of_decide_eq_true hwithin)
        rw [if_neg hover, Option.any_some, if_neg fun hrepeats =>
          hbound (of_decide_eq_true hrepeats).2.2]
        exact (peers_retire _ _ _).trans (peers_putConnection _ _)
    · rename_i hother
      rw [if_neg]
      intro hrepeats
      obtain ⟨hstatus, hsome, -⟩ := of_decide_eq_true hrepeats
      obtain ⟨syn, hsyn⟩ := Option.isSome_iff_exists.1 hsome
      exact hother syn hstatus hsyn

lemma touches_receive (hw : WellFiled engine.store)
    (hs : SendersKeep Sent engine.store.connections) {frame : Frame}
    (hd : Frame.decode datagram = .ok frame) :
    Touches engine occasion.now source (if repeatsUpon engine source datagram then 1 else 0)
      (engine.receive occasion source datagram).1 := by
  have htouched := touches_touchPeer hw occasion.now source
  have hrepeats : ∀ {touched : Engine}, touched.store.connections = engine.store.connections →
      repeatsUpon touched source datagram = repeatsUpon engine source datagram := by
    intro touched hsame
    simp only [repeatsUpon, hsame]
  by_cases hfailure : ∃ id, Reads datagram .synFailure id frame
  · obtain ⟨id, hr⟩ := hfailure
    have hwell := wellFiled_touchPeer hw occasion.now source
    have hsame := @connections_touchPeer engine occasion.now source
    rw [receive_of_synFailure occasion hr]
    have hpeers := @peers_receiveSynFailure Sent _ occasion source datagram hwell (hsame ▸ hs) _ _
      hr
    rw [hrepeats hsame] at hpeers
    by_cases hagain : repeatsUpon engine source datagram = true
    · rw [if_pos hagain] at hpeers ⊢
      exact (htouched.drawTimestamp hw).of_peers hpeers
    · rw [if_neg hagain] at hpeers ⊢
      exact htouched.of_peers hpeers
  · have hnever : repeatsUpon engine source datagram = false := by
      unfold repeatsUpon
      rw [hd]
      dsimp only
      split
      · rename_i id hkind hid
        exact absurd ⟨id, hd, hkind, hid⟩ hfailure
      · rfl
    rw [hnever, if_neg Bool.false_ne_true, receive_of_decode occasion hd]
    by_cases hkind : frame.kind.isControl = true ∧ frame.kind ≠ .synFailure
    · exact htouched.of_peers (peers_receiveControl occasion hkind.1 hkind.2)
    · unfold Engine.receiveFrame
      split
      · exact htouched.acceptTimestamp hw _
      · exact htouched.receiveSyn occasion hw _ _ _
      · rename_i hsuccess _
        exact absurd ⟨by rw [hsuccess]; rfl, by rw [hsuccess]; decide⟩ hkind
      · rename_i id hlost hid
        exact absurd ⟨id, hd, hlost, hid⟩ hfailure
      · rename_i hseen _
        exact absurd ⟨by rw [hseen]; rfl, by rw [hseen]; decide⟩ hkind
      · rename_i hack _
        exact absurd ⟨by rw [hack]; rfl, by rw [hack]; decide⟩ hkind
      · exact htouched

end Receiving

/-- What is known of a peer when the interactions of a step begin: a sweep comes to all peers
first. -/
def knownBy (engine : Engine) (peer : Address) : EngineStep → Option PeerRecord
  | .work occasion .timeoutSweep => sweptOf engine occasion.now peer
  | _ => engine.store.peers[peer]?

/-- What a step makes of the record of a peer. A record that is opened has a new serial number. -/
structure PeerStep (engine : Engine) (peer : Address) (step : EngineStep) (after : Engine) :
    Prop where
  silent : ¬ Interacts engine peer step → after.store.peers[peer]? = knownBy engine peer step
  heard : Interacts engine peer step → ∃ serial, engine.store.nextSerial ≤ serial ∧
    ∃ record, after.store.peers[peer]? = some record ∧
      untracked record = untracked (writtenTo step.time (drawsBy engine peer step)
        ((knownBy engine peer step).getD
          ({ engine.store with nextSerial := serial }.newPeer step.time peer)))

section Steps

variable {Sent : Address → UInt32 → FieldMap → Prop} {engine after : Engine} {peer : Address}

lemma Touches.found {now count : Nat} (h : Touches engine now peer count after) :
    ∃ record, after.store.peers[peer]? = some record ∧
      untracked record = untracked (writtenTo now count (peerOrNew engine.store now peer)) := by
  obtain ⟨record, hpeers, hrecord⟩ := h
  exact ⟨record, by rw [hpeers, getElem?_insert_eq, if_pos rfl], hrecord⟩

lemma Touches.others {now count : Nat} {other : Address} (h : Touches engine now peer count after)
    (hother : peer ≠ other) : after.store.peers[other]? = engine.store.peers[other]? := by
  obtain ⟨record, hpeers, -⟩ := h
  rw [hpeers, getElem?_insert_eq, if_neg hother]

variable (hp : IsProper engine.store) (hs : SendersKeep Sent engine.store.connections)

include hp

lemma peerStep_send (occasion : Occasion) (target : Address) (fields : FieldMap)
    (delivery : Delivery) (peer : Address) :
    PeerStep engine peer (.send occasion target fields delivery)
      (engine.send occasion target fields delivery).1 := by
  have htouches : Touches engine occasion.now target 1
      (engine.send occasion target fields delivery).1 := by
    refine ⟨_, (peers_send occasion target fields delivery).trans
      (drawTimestamp_eq hp.filed occasion.now target).1, ?_⟩
    rw [← touch_writtenTo, writtenTo_zero]
    rfl
  constructor
  · exact fun hother => htouches.others hother
  · rintro rfl
    obtain ⟨record, hfound, hrecord⟩ := htouches.found
    refine ⟨_, Nat.le_refl _, record, hfound, ?_⟩
    rw [drawsBy, if_pos rfl]
    exact hrecord

include hs

lemma peerStep_receive (occasion : Occasion) (source : Address) (datagram : Bytes)
    (peer : Address) :
    PeerStep engine peer (.work occasion (.receive source datagram))
      (engine.receive occasion source datagram).1 := by
  by_cases hd : ∃ frame, Frame.decode datagram = .ok frame
  · obtain ⟨frame, hframe⟩ := hd
    have htouches := @touches_receive Sent _ occasion source datagram hp.filed hs _ hframe
    constructor
    · exact fun hother => htouches.others fun hsource => hother ⟨hsource, frame, hframe⟩
    · rintro ⟨rfl, -⟩
      obtain ⟨record, hfound, hrecord⟩ := htouches.found
      refine ⟨_, Nat.le_refl _, record, hfound, ?_⟩
      have hdraws : drawsBy engine source (.work occasion (.receive source datagram)) =
          if repeatsUpon engine source datagram then 1 else 0 := by
        simp only [drawsBy, true_and]
      rw [hdraws]
      exact hrecord
  · refine ⟨fun _ => ?_, fun hheard => absurd hheard.2 hd⟩
    exact congrArg (·[peer]?) (peers_receive_of_error occasion fun frame hframe =>
      hd ⟨frame, hframe⟩)

lemma peerStep_timeoutSweep (occasion : Occasion) (peer : Address) :
    PeerStep engine peer (.work occasion .timeoutSweep) (engine.timeoutSweep occasion).1 := by
  have hwrites := writesTo_visited occasion hp hs (.refl _) (.refl _) peer
  rw [← timeoutSweep_eq occasion hp.filed] at hwrites
  constructor
  · exact fun hnone => hwrites.unwritten (Nat.eq_zero_of_not_pos hnone)
  · intro hsome
    obtain ⟨serial, hserial, hpeer⟩ := hwrites.written hsome
    exact ⟨serial, hserial, _, hpeer, rfl⟩

end Steps

/-- Every step of an engine does to the record of a peer what it is said to do. -/
theorem peerStep {Sent : Address → UInt32 → FieldMap → Prop} {history : History}
    (hp : IsProper history.engine.store) (hs : SendersKeep Sent history.engine.store.connections)
    (step : EngineStep) (peer : Address) :
    PeerStep history.engine peer step (history.step step).engine := by
  cases step with
  | send occasion target fields delivery => exact peerStep_send hp occasion _ _ _ peer
  | work occasion task =>
    cases task with
    | receive source datagram => exact peerStep_receive hp hs occasion _ _ peer
    | timeoutSweep => exact peerStep_timeoutSweep hp hs occasion peer
    | deleteSweep => exact ⟨fun _ => rfl, fun hheard => hheard.elim⟩

end ReliableDatagrams.Proofs
