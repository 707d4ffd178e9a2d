import ReliableDatagrams.Proofs.Restamping

/-!
# What moves do to timestamps

Of the timestamps that an engine keeps, a datagram only changes what is tracked for the peer it comes
from, and only if it is a frame that has a part in the tracking. Numbers of the counter are drawn by
calls of `send` and where first frames are repeated. Sweeps change nothing for a peer that is not idle.
-/

namespace ReliableDatagrams.Proofs

/-- Of all timestamps, only what is tracked for one peer may have changed. -/
structure OnlyTracks (engine after : Engine) (peer : Address) : Prop where
  outgoing : ∀ other, outgoingTimestamp after other = outgoingTimestamp engine other
  tracked : ∀ other, peer ≠ other → trackedTimestamp after other = trackedTimestamp engine other

section Receiving

variable {engine after : Engine} (occasion : Occasion) {source peer : Address} {datagram : Bytes}

lemma onlyTracks_of_peers (h : after.store.peers = engine.store.peers) (peer : Address) :
    OnlyTracks engine after peer :=
  ⟨fun other => (timestamps_of_peers h other).2, fun other _ => (timestamps_of_peers h other).1⟩

lemma OnlyTracks.trans {between : Engine} (h : OnlyTracks engine between peer)
    (h' : OnlyTracks between after peer) : OnlyTracks engine after peer :=
  ⟨fun other => (h'.outgoing other).trans (h.outgoing other),
    fun other hother => (h'.tracked other hother).trans (h.tracked other hother)⟩

lemma onlyTracks_withPeer (hw : PeersFiled engine.store.peers) (now : Nat) {α : Type}
    {change : PeerRecord → PeerRecord × α}
    (haddress : ∀ record, (change record).1.address = record.address)
    (hnext : ∀ record, (change record).1.nextTimestamp = record.nextTimestamp) :
    OnlyTracks engine (engine.withPeer now peer change).1 peer := by
  have hpeers := peers_withPeer engine now peer change
    ((haddress _).trans (peerOrNew_filed hw now peer).1)
  constructor
  · intro other
    rw [outgoingTimestamp_insert hpeers, hnext]
    split
    · rename_i hother
      rw [← hother, nextTimestamp_peerOrNew]
    · rfl
  · intro other hother
    rw [trackedTimestamp_insert hpeers, if_neg hother]

lemma onlyTracks_acceptTimestamp (hw : PeersFiled engine.store.peers) (now : Nat)
    (timestamp : Option UInt16) :
    OnlyTracks engine (engine.acceptTimestamp now peer timestamp).1 peer := by
  cases timestamp with
  | none => exact ⟨fun _ => rfl, fun _ _ => rfl⟩
  | some timestamp =>
    apply onlyTracks_withPeer hw now
    · intro record
      unfold PeerRecord.accept
      split <;> rfl
    · intro record
      unfold PeerRecord.accept
      split <;> rfl

lemma onlyTracks_receiveSyn (hw : PeersFiled engine.store.peers) (id : UInt32)
    (timestamp : Option UInt16) (fields : FieldMap) :
    OnlyTracks engine (engine.receiveSyn occasion peer id timestamp fields).1 peer := by
  have hopened := @onlyTracks_of_peers engine { engine with store :=
    (engine.store.connectionOrInsert occasion.now ⟨peer, id, .receiver⟩).1 }
    (peers_connectionOrInsert _ _ _) peer
  have hfiled : PeersFiled (Engine.store { engine with store :=
      (engine.store.connectionOrInsert occasion.now ⟨peer, id, .receiver⟩).1 }).peers := by
    rwa [peers_connectionOrInsert]
  have haccepted := hopened.trans (onlyTracks_acceptTimestamp hfiled occasion.now timestamp)
  have htracked := hfiled.acceptTimestamp occasion.now peer timestamp
  unfold Engine.receiveSyn
  dsimp only
  split
  · exact hopened.trans (onlyTracks_of_peers (peers_transmit _ _ _ _) peer)
  · split
    · rename_i tracked hr
      rw [hr] at haccepted
      exact haccepted.trans (onlyTracks_of_peers (peers_rejectSyn occasion _ _) peer)
    · rename_i tracked hr
      rw [hr] at haccepted htracked
      have hreset := @onlyTracks_withPeer _ peer htracked occasion.now _
        (fun peer => (peer.resetTimestamps timestamp, ())) (fun _ => rfl) fun _ => rfl
      exact (haccepted.trans hreset).trans (onlyTracks_of_peers (peers_transmit _ _ _ _) peer)

lemma peers_receiveControl {frame : Frame} (hkind : frame.kind.isControl = true)
    (hother : frame.kind ≠ .synFailure) :
    (engine.receiveFrame occasion source frame).1.store.peers = engine.store.peers := by
  unfold Engine.receiveFrame
  split
  · rename_i hplain
    rw [hplain] at hkind
    cases hkind
  · rename_i hsyn hid
    rw [hsyn] at hkind
    cases hkind
  · unfold Engine.receiveSynSuccess
    split
    · rfl
    · split
      · exact peers_transmit _ _ _ _
      · rfl
  · rename_i hfailure hid
    exact absurd hfailure hother
  · unfold Engine.receiveSynAckSuccess
    split
    · rfl
    · split
      · exact peers_retire _ _ _
      · rfl
  · unfold Engine.receiveAck
    split
    · rfl
    · split
      · exact peers_retire _ _ _
      · rfl
  · rfl

lemma receive_of_synFailure {id : UInt32} {frame : Frame}
    (hr : Reads datagram .synFailure id frame) :
    engine.receive occasion source datagram =
      (engine.touchPeer occasion.now source).receiveSynFailure occasion source id := by
  rw [receive_of_decode occasion hr.decoded, receiveFrame_of_reads occasion hr]

lemma peers_receive_of_error (h : ∀ frame, Frame.decode datagram ≠ .ok frame) :
    (engine.receive occasion source datagram).1.store.peers = engine.store.peers := by
  unfold Engine.receive
  split
  · rename_i frame hd
    exact absurd hd (h frame)
  · split
    · exact peers_rejectSyn occasion _ _
    · rfl
  · rfl

/-- A datagram that is no failure draws no timestamp, and only concerns the peer it comes from. -/
lemma onlyTracks_receive (hw : WellFiled engine.store)
    (h : ∀ id frame, ¬ Reads datagram .synFailure id frame) :
    OnlyTracks engine (engine.receive occasion source datagram).1 source := by
  cases hd : Frame.decode datagram with
  | error error =>
    exact onlyTracks_of_peers
      (peers_receive_of_error occasion fun frame hframe => by rw [hd] at hframe; cases hframe) _
  | ok frame =>
    have htouched := wellFiled_touchPeer hw occasion.now source
    have hretracks := retracks_touchPeer hw occasion.now source
    rw [receive_of_decode occasion hd]
    refine OnlyTracks.trans ⟨hretracks.outgoing, fun other hother =>
      (hretracks.tracked other).trans (if_neg hother)⟩ ?_
    by_cases hkind : frame.kind.isControl = true ∧ frame.kind ≠ .synFailure
    · exact onlyTracks_of_peers (peers_receiveControl occasion hkind.1 hkind.2) _
    · unfold Engine.receiveFrame
      split
      · exact onlyTracks_acceptTimestamp htouched.peer _ _
      · exact onlyTracks_receiveSyn occasion htouched.peer _ _ _
      · rename_i hsuccess _
        exact absurd ⟨by rw [hsuccess]; rfl, by rw [hsuccess]; decide⟩ hkind
      · rename_i id hfailure hid
        exact absurd ⟨hd, hfailure, hid⟩ (h id frame)
      · rename_i hseen _
        exact absurd ⟨by rw [hseen]; rfl, by rw [hseen]; decide⟩ hkind
      · rename_i hack _
        exact absurd ⟨by rw [hack]; rfl, by rw [hack]; decide⟩ hkind
      · exact onlyTracks_of_peers rfl _

variable (hw : WellFiled engine.store)
variable (hown : OwnBuffers engine.config.maxDatagramSize engine.store.connections)

include hw hown

lemma retries_of_synFailure {id : UInt32} {frame : Frame}
    (hr : Reads datagram .synFailure id frame) :
    WellFiled (engine.touchPeer occasion.now source).store ∧
      OwnBuffers (engine.touchPeer occasion.now source).config.maxDatagramSize
        (engine.touchPeer occasion.now source).store.connections ∧
      Retries (engine.touchPeer occasion.now source) occasion ⟨source, id, .sender⟩
        (engine.receive occasion source datagram).1
        (engine.receive occasion source datagram).2 := by
  have htouched := wellFiled_touchPeer hw occasion.now source
  refine ⟨htouched, ?_, ?_⟩
  · rwa [connections_touchPeer, Engine.config, Engine.touchPeer, config_withPeer]
  · rw [receive_of_synFailure occasion hr]
    exact receiveSynFailure_retries occasion htouched source id

lemma draws_receive (peer : Address) :
    Draws engine peer (engine.receive occasion source datagram).1
      (engine.receive occasion source datagram).2 := by
  by_cases hfailure : ∃ id frame, Reads datagram .synFailure id frame
  · obtain ⟨id, frame, hr⟩ := hfailure
    obtain ⟨htouched, hbuffers, hretries⟩ := retries_of_synFailure occasion hw hown hr
    exact (hretries.draws occasion htouched hbuffers peer).congr
      ((retracks_touchPeer hw occasion.now source).outgoing peer)
  · have hnone : ∀ id frame, ¬ Reads datagram .synFailure id frame :=
      fun id frame hr => hfailure ⟨id, frame, hr⟩
    refine .kept ((onlyTracks_receive occasion hw hnone).outgoing peer) ?_
    have hmove := receive_move occasion hw source datagram
    generalize (engine.receive occasion source datagram).1 = after at hmove
    generalize (engine.receive occasion source datagram).2 = effects at hmove ⊢
    cases hmove with
    | retried reads record retry => exact absurd reads (hnone _ _)
    | ignored same => rfl
    | plain decoded kind fresh same => rfl
    | finished reads record status filed => rfl
    | rejected invalid record waiting filed => exact stampsTo_control rfl _ _ _ _
    | confirmed reads record opened filed => exact stampsTo_control rfl _ _ _ _
    | acknowledged reads record status filed => exact stampsTo_control rfl _ _ _ _
    | closed reads filed => exact stampsTo_control rfl _ _ _ _
    | accepted reads record waiting fresh filed =>
      exact (stampsTo_append peer [_] [_]).trans
        (congrArg (· ++ []) (stampsTo_control rfl _ _ _ _))

/-- What is tracked for a peer only changes with a frame from there that has a part in it. -/
lemma tracked_receive (h : source = peer → stamp? datagram = none) :
    trackedTimestamp (engine.receive occasion source datagram).1 peer =
      trackedTimestamp engine peer := by
  have hretracks := retracks_touchPeer hw occasion.now source
  have htouched : trackedTimestamp (engine.touchPeer occasion.now source) peer =
      trackedTimestamp engine peer := by
    rw [hretracks.tracked peer]
    split
    · rename_i hsource
      rw [hsource]
    · rfl
  by_cases hfailure : ∃ id frame, Reads datagram .synFailure id frame
  · obtain ⟨id, frame, hr⟩ := hfailure
    obtain ⟨hwell, hbuffers, hretries⟩ := retries_of_synFailure occasion hw hown hr
    rw [hretries.tracked occasion hwell hbuffers peer, htouched]
  · have hnone : ∀ id frame, ¬ Reads datagram .synFailure id frame :=
      fun id frame hr => hfailure ⟨id, frame, hr⟩
    by_cases hsource : source = peer
    · have hstamp := h hsource
      cases hd : Frame.decode datagram with
      | error error =>
        refine (timestamps_of_peers (peers_receive_of_error occasion ?_) peer).1
        intro frame hframe
        rw [hd] at hframe
        cases hframe
      | ok frame =>
        rw [stamp?, hd] at hstamp
        rw [receive_of_decode occasion hd]
        refine Eq.trans ?_ htouched
        have hcontrol : frame.kind.isControl = true → frame.kind ≠ .synFailure →
            trackedTimestamp ((engine.touchPeer occasion.now source).receiveFrame occasion source
              frame).1 peer = trackedTimestamp (engine.touchPeer occasion.now source) peer :=
          fun hkind hother =>
            (timestamps_of_peers (peers_receiveControl occasion hkind hother) peer).1
        cases hkind : frame.kind with
        | plain =>
          -- without a timestamp a plain frame changes nothing
          have hunstamped : frame.timestamp = none := by simpa [hkind] using hstamp
          rw [Engine.receiveFrame, hkind, hunstamped]
          rfl
        | syn =>
          cases hid : frame.header.messageId with
          | some id => simp [hkind, hid] at hstamp
          | none => rw [Engine.receiveFrame, hkind, hid]
        | synFailure =>
          cases hid : frame.header.messageId with
          | some id => exact absurd ⟨hd, hkind, hid⟩ (hnone id frame)
          | none => rw [Engine.receiveFrame, hkind, hid]
        | _ => exact hcontrol (by rw [hkind]; rfl) (by rw [hkind]; decide)
    · exact (onlyTracks_receive occasion hw hnone).tracked peer hsource

lemma ownBuffers_receive :
    OwnBuffers engine.config.maxDatagramSize
      (engine.receive occasion source datagram).1.store.connections := by
  by_cases hfailure : ∃ id frame, Reads datagram .synFailure id frame
  · obtain ⟨id, frame, hr⟩ := hfailure
    obtain ⟨hwell, hbuffers, hretries⟩ := retries_of_synFailure occasion hw hown hr
    have hafter := hretries.ownBuffers occasion hwell hbuffers
    rwa [Engine.config, Engine.touchPeer, config_withPeer] at hafter
  · have hmove := receive_move occasion hw source datagram
    generalize (engine.receive occasion source datagram).1 = after at hmove ⊢
    generalize (engine.receive occasion source datagram).2 = effects at hmove
    have hreceiver : ∀ {record : ConnectionRecord}, record.key.role = .receiver →
        record.key.role = .sender → record.status = .synSent → ∀ syn, record.lastSent = some syn →
          IsOwnSyn engine.config.maxDatagramSize record.key.messageId syn := by
      intro record hrole hsender
      rw [hrole] at hsender
      cases hsender
    cases hmove with
    | ignored same => rwa [same]
    | plain decoded kind fresh same => rwa [same]
    | rejected invalid record waiting filed =>
      have hkey := (record.key hw.connection).1
      rw [filed]
      split
      · exact hown.afterTransmit fun _ => hreceiver (by rw [hkey])
      · exact hown.erase _
    | confirmed reads record opened filed =>
      have hkey := (hw.connection _ _ record).1
      rw [filed]
      exact hown.afterTransmit fun _ => hreceiver (by rw [hkey])
    | accepted reads record waiting fresh filed =>
      have hkey := (record.key hw.connection).1
      rw [filed]
      exact hown.afterTransmit fun _ => hreceiver (by rw [hkey])
    | acknowledged reads record status filed =>
      rw [filed]
      apply hown.afterTransmit
      intro _ _ hwaiting
      cases hwaiting
    | retried reads record retry => exact absurd ⟨_, _, reads⟩ hfailure
    | closed reads filed =>
      rw [filed]
      exact hown.erase _
    | finished reads record status filed =>
      rw [filed]
      exact hown.erase _

end Receiving

section Sending

variable {engine : Engine} (occasion : Occasion) (target : Address) (fields : FieldMap)
variable (delivery : Delivery)

lemma length_le_of_send {other : Address} {bytes : Bytes} {accepted : Bool}
    (h : Effect.sent other bytes accepted ∈
      (engine.send occasion target fields delivery).2.1) :
    bytes.length ≤ engine.config.maxDatagramSize := by
  have hconfig : ((engine.drawTimestamp occasion.now target).1.drawMessageId
      (delivery = .reliable ∨ (engine.drawTimestamp occasion.now target).2 =
        wraparoundTimestamp)).1.config = engine.config := by
    rw [Engine.config, store_drawMessageId]
    exact config_withPeer _ _ _ _
  unfold Engine.send at h
  dsimp only at h
  split at h
  · cases h
  · rename_i frame hframe
    have hlength := (writeFrame_eq_ok hframe).2
    rw [hconfig] at hlength
    unfold Engine.sendFrame at h
    split at h
    · cases List.mem_singleton.1 h
      exact hlength
    · dsimp only at h
      rw [effects_transmit] at h
      cases List.mem_singleton.1 h
      exact hlength

variable (hw : WellFiled engine.store)

include hw

/-- A call for a peer spends a number in vain only if it fails before its frame is written. -/
lemma draws_send {peer : Address}
    (h : target = peer → (engine.send occasion target fields delivery).2.1 = [] →
      outgoingTimestamp engine peer ≠ wraparoundTimestamp) :
    Draws engine peer (engine.send occasion target fields delivery).1
      (engine.send occasion target fields delivery).2.1 := by
  have hcounter := (timestamps_send hw occasion target fields delivery peer).2
  have hmove := send_move occasion hw target fields delivery
  have hnumber := (drawTimestamp_eq hw occasion.now target).2
  generalize (engine.send occasion target fields delivery).1 = after at hcounter hmove ⊢
  generalize (engine.send occasion target fields delivery).2.1 = effects at h hmove ⊢
  generalize (engine.send occasion target fields delivery).2.2 = result at hmove
  by_cases htarget : target = peer
  · subst htarget
    rw [if_pos rfl] at hcounter
    cases hmove with
    | failed ids same => exact .spent hcounter (h rfl rfl) rfl
    | plain drawn unforced written ids same =>
      rw [← drawn, hnumber] at written
      exact draws_of_frame hcounter (stamp?_of_encode written)
    | first drawn written record ids filed =>
      rw [← drawn, hnumber] at written
      exact draws_of_frame hcounter (stamp?_of_encode written)
  · rw [if_neg htarget] at hcounter
    refine .kept hcounter ?_
    cases hmove with
    | failed ids same => rfl
    | plain drawn unforced written ids same => exact stampsTo_sent_of_ne htarget _ _
    | first drawn written record ids filed => exact stampsTo_sent_of_ne htarget _ _

lemma ownBuffers_send
    (hown : OwnBuffers engine.config.maxDatagramSize engine.store.connections) :
    OwnBuffers engine.config.maxDatagramSize
      (engine.send occasion target fields delivery).1.store.connections := by
  have hmove := send_move occasion hw target fields delivery
  have hlength := @length_le_of_send engine occasion target fields delivery
  generalize (engine.send occasion target fields delivery).1 = after at hmove ⊢
  generalize (engine.send occasion target fields delivery).2.1 = effects at hmove hlength
  generalize (engine.send occasion target fields delivery).2.2 = result at hmove
  cases hmove with
  | failed ids same => rwa [same]
  | plain drawn unforced written ids same => rwa [same]
  | first drawn written record ids filed =>
    have hkey := (record.key hw.connection).1
    rw [filed]
    apply hown.afterTransmit
    intro _ _ _ syn hsyn
    cases hsyn
    simp only [hkey]
    exact ⟨fields, _, _, written, hlength (List.mem_singleton_self _)⟩

end Sending

/-- A peer is not idle for its timeout. -/
def IsAwake (engine : Engine) (peer : Address) (now : Nat) : Prop :=
  ∀ record : PeerRecord, engine.store.peers[peer]? = some record →
    record.idleTime now < record.timeout

lemma isAwake_of_all {engine : Engine} {now : Nat}
    (h : (engine.store.peers.toList.all fun filed =>
      decide (filed.2.idleTime now < filed.2.timeout)) = true) (peer : Address) :
    IsAwake engine peer now := by
  intro record hrecord
  rw [List.all_eq_true] at h
  exact of_decide_eq_true
    (h (peer, record) (Std.ExtTreeMap.mem_toList_iff_getElem?_eq_some.2 hrecord))

section Sweeping

variable {engine : Engine} (occasion : Occasion) {peer : Address}

def sweptPeer? (now : Nat) (record : PeerRecord) : Option PeerRecord :=
  if record.idleTime now < record.timeout then some record
  else if record.maxTimeouts ≤ record.timeouts + 1 then none
  else some (record.resetOrExpire now).1

lemma sweptPeer?_of_awake {now : Nat} {record : PeerRecord}
    (h : record.idleTime now < record.timeout) : sweptPeer? now record = some record :=
  if_pos h

lemma getElem?_sweepPeer (hw : WellFiled engine.store) (address other : Address) :
    (engine.sweepPeer occasion address).1.store.peers[other]? =
      if address = other then (engine.store.peers[address]?).bind (sweptPeer? occasion.now)
      else engine.store.peers[other]? := by
  have hpeer : engine.store.peer? address = engine.store.peers[address]? := by
    unfold Store.peer?
    cases hfiled : engine.store.peers[address]? with
    | none => rfl
    | some record => simp [Option.filter, (hw.peer address record hfiled).2]
  unfold Engine.sweepPeer
  rw [hpeer]
  cases hfiled : engine.store.peers[address]? with
  | none =>
    dsimp only
    split
    · rename_i hother
      rw [← hother]
      exact hfiled
    · rfl
  | some record =>
    have hnamed : (record.resetOrExpire occasion.now).1.address = address :=
      (hw.peer address record hfiled).1
    simp only [Option.bind_some, sweptPeer?]
    by_cases hearly : record.idleTime occasion.now < record.timeout
    · rw [if_pos hearly, if_pos hearly]
      split
      · rename_i hother
        rw [← hother]
        exact hfiled
      · rfl
    · rw [if_neg hearly, if_neg hearly]
      by_cases hmost : record.maxTimeouts ≤ record.timeouts + 1
      · have hexpire : (record.resetOrExpire occasion.now).2 = .expire := if_pos hmost
        simp only [hexpire, if_true, hmost]
        rw [peers_retire_putPeer, hnamed, getElem?_erase_eq]
      · have hkept : (record.resetOrExpire occasion.now).2 ≠ .expire := by
          simp [PeerRecord.resetOrExpire, hmost]
        simp only [hkept, if_false, hmost, Store.putPeer, hnamed, getElem?_insert_eq]

lemma sweepPeer_silent (address : Address) : (engine.sweepPeer occasion address).2 = [] ∧
    (engine.sweepPeer occasion address).1.store.connections = engine.store.connections := by
  unfold Engine.sweepPeer
  split
  · exact ⟨rfl, rfl⟩
  · split
    · exact ⟨rfl, rfl⟩
    · refine ⟨rfl, ?_⟩
      dsimp only
      split
      · exact connections_retirePeer _ _ _
      · rfl

/-- The visits to peers that come before those to handshakes: they send nothing, leave the handshakes
alone, and sweep each peer once. -/
lemma visitPeers_swept (hw : WellFiled engine.store) {addresses : List Address}
    (hnodup : addresses.Nodup) :
    WellFiled (engine.visitAll (Engine.sweepPeer occasion) addresses).1.store ∧
      (∀ peer, (engine.visitAll (Engine.sweepPeer occasion) addresses).1.store.peers[peer]? =
        if peer ∈ addresses then (engine.store.peers[peer]?).bind (sweptPeer? occasion.now)
        else engine.store.peers[peer]?) ∧
      (engine.visitAll (Engine.sweepPeer occasion) addresses).1.store.connections =
        engine.store.connections ∧
      (engine.visitAll (Engine.sweepPeer occasion) addresses).1.config = engine.config ∧
      (engine.visitAll (Engine.sweepPeer occasion) addresses).2 = [] := by
  induction addresses generalizing engine with
  | nil => exact ⟨hw, fun _ => (if_neg List.not_mem_nil).symm, rfl, rfl, rfl⟩
  | cons address rest ih =>
    have hpeers := getElem?_sweepPeer occasion hw address
    have hconfig := config_reworks (@reworks_sweepPeer engine occasion address)
    obtain ⟨hnone, hsame⟩ := @sweepPeer_silent engine occasion address
    obtain ⟨hout, hrest⟩ := List.nodup_cons.1 hnodup
    obtain ⟨hwell, hlater, hconnections, hkept, hsilent⟩ :=
      ih (hw.sweepPeer occasion address) hrest
    refine ⟨hwell, fun peer => ?_, hconnections.trans hsame, hkept.trans hconfig, ?_⟩
    · refine (hlater peer).trans ?_
      rw [hpeers]
      by_cases hpeer : address = peer
      · subst hpeer
        simp [hout]
      · simp [hpeer, Ne.symm hpeer]
    · unfold Engine.visitAll
      dsimp only
      rw [hnone, hsilent]
      rfl

lemma visitPeers_all (hw : WellFiled engine.store) (peer : Address) :
    (engine.visitAll (Engine.sweepPeer occasion) engine.store.peers.keys).1.store.peers[peer]? =
      (engine.store.peers[peer]?).bind (sweptPeer? occasion.now) := by
  obtain ⟨-, hpeers, -⟩ := visitPeers_swept occasion hw (@Std.ExtTreeMap.nodup_keys _ _ _
    engine.store.peers _)
  rw [hpeers]
  split
  · rfl
  · rename_i hmem
    rw [Std.ExtTreeMap.mem_keys] at hmem
    rw [Std.ExtTreeMap.getElem?_eq_none hmem]
    rfl

/-- What every visit preserves, along with the effects so far, holds after all of them. -/
lemma visitAll_accumulates {κ : Type} {visit : Engine → κ → Engine × List Effect}
    {Inv : Engine → List Effect → Prop}
    (hvisit : ∀ engine effects key, Inv engine effects →
      Inv (visit engine key).1 (effects ++ (visit engine key).2))
    (keys : List κ) (engine : Engine) (effects : List Effect) (h : Inv engine effects) :
    Inv (engine.visitAll visit keys).1 (effects ++ (engine.visitAll visit keys).2) := by
  induction keys generalizing engine effects with
  | nil =>
    unfold Engine.visitAll
    rwa [List.append_nil]
  | cons key rest ih =>
    have hrest := ih _ _ (hvisit engine effects key h)
    rwa [List.append_assoc] at hrest

/-- What becomes of one peer in a sweep: it is swept, and then the handshakes are visited. -/
lemma timeoutSweep_of_swept (hw : WellFiled engine.store) {Inv : Engine → List Effect → Prop}
    (hbegin : ∀ between : Engine, WellFiled between.store →
      between.store.peers[peer]? = (engine.store.peers[peer]?).bind (sweptPeer? occasion.now) →
        between.store.connections = engine.store.connections →
          between.config = engine.config → Inv between [])
    (hvisit : ∀ between effects key, WellFiled between.store → Inv between effects →
      Inv (between.sweepConnection occasion key).1
        (effects ++ (between.sweepConnection occasion key).2)) :
    Inv (engine.timeoutSweep occasion).1 (engine.timeoutSweep occasion).2 := by
  obtain ⟨hwell, -, hconnections, hconfig, hsilent⟩ :=
    visitPeers_swept occasion hw (@Std.ExtTreeMap.nodup_keys _ _ _ engine.store.peers _)
  have hvisited := @visitAll_accumulates _ (Engine.sweepConnection occasion)
    (fun between effects => WellFiled between.store ∧ Inv between effects)
    (fun between effects key h =>
      ⟨h.1.sweepConnection occasion key, hvisit between effects key h.1 h.2⟩)
    (engine.visitAll (Engine.sweepPeer occasion)
      engine.store.peers.keys).1.store.connections.keys _ []
    ⟨hwell, hbegin _ hwell (visitPeers_all occasion hw peer) hconnections hconfig⟩
  unfold Engine.timeoutSweep
  dsimp only
  rw [hsilent]
  exact hvisited.2

lemma bind_sweptPeer?_of_awake (hawake : IsAwake engine peer occasion.now) :
    (engine.store.peers[peer]?).bind (sweptPeer? occasion.now) = engine.store.peers[peer]? := by
  cases hpeer : engine.store.peers[peer]? with
  | none => rfl
  | some record => exact sweptPeer?_of_awake (hawake record hpeer)

/-- A sweep with one peer awake: the visits to the handshakes are all that counts. -/
lemma timeoutSweep_of_awake (hw : WellFiled engine.store)
    (hawake : IsAwake engine peer occasion.now) {Inv : Engine → List Effect → Prop}
    (hbegin : ∀ between : Engine, WellFiled between.store →
      between.store.peers[peer]? = engine.store.peers[peer]? →
        between.store.connections = engine.store.connections →
          between.config = engine.config → Inv between [])
    (hvisit : ∀ between effects key, WellFiled between.store → Inv between effects →
      Inv (between.sweepConnection occasion key).1
        (effects ++ (between.sweepConnection occasion key).2)) :
    Inv (engine.timeoutSweep occasion).1 (engine.timeoutSweep occasion).2 :=
  timeoutSweep_of_swept occasion hw (fun between hwell hpeer =>
    hbegin between hwell (hpeer.trans (bind_sweptPeer?_of_awake occasion hawake))) hvisit

end Sweeping

/-- An engine whose records are filed under their own keys, and whose buffered first frames are its
own. -/
structure KeepsOwn (engine : Engine) : Prop where
  filed : WellFiled engine.store
  buffers : OwnBuffers engine.config.maxDatagramSize engine.store.connections

section Moves

variable {engine after : Engine} {effects : List Effect} {peer : Address}

lemma keepsOwn_starting (config : Config) (firstId : UInt32) :
    KeepsOwn (Engine.starting config firstId) where
  filed := wellFiled_starting config firstId
  buffers key record hrecord := by simp [Engine.starting] at hrecord

lemma KeepsOwn.move (h : KeepsOwn engine) (hmove : EngineMove engine after effects) :
    KeepsOwn after := by
  refine ⟨hmove.wellFiled h.filed, ?_⟩
  rw [hmove.config h.filed]
  cases hmove with
  | sent occasion target fields delivery =>
    exact ownBuffers_send occasion target fields delivery h.filed h.buffers
  | received occasion source datagram => exact ownBuffers_receive occasion h.filed h.buffers
  | visitedConnection occasion key =>
    exact (sweepConnection_retries occasion h.filed key).ownBuffers occasion h.filed h.buffers
  | freed now => exact h.buffers
  | visitedPeer occasion address =>
    unfold Engine.sweepPeer
    split
    · exact h.buffers
    · split
      · exact h.buffers
      · dsimp only
        split
        · rw [connections_retirePeer]
          exact h.buffers
        · exact h.buffers

lemma KeepsOwn.step (h : KeepsOwn engine) (step : EngineStep) :
    KeepsOwn (({ engine } : History).step step).engine :=
  (@History.step_induction { engine } (fun history => KeepsOwn history.engine)
    (fun _ hkeeps hmove => hkeeps.move hmove) h.filed h step).2

end Moves

end ReliableDatagrams.Proofs
