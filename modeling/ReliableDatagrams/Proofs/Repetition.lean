import ReliableDatagrams.Proofs.OneMessage

/-!
# Sweeps that repeat a message

A sweep visits one record after the other. For one message that waits for an answer, only the visit to
its own record counts: if it has waited for its timeout, its first frame is sent again. The numbers go
on where they were, because a sweep does not forget a peer to which something was sent within the
timeout of peers.
-/

namespace ReliableDatagrams.Proofs

/-- All peers have the timeout that is configured, and one of them was heard from, or written to, at
some time or later. -/
def KnowsPeers (timeout : Nat) (peer : Address) (since : Nat)
    (peers : Std.ExtTreeMap Address PeerRecord) : Prop :=
  ∀ (address : Address) (record : PeerRecord), peers[address]? = some record →
    record.timeout = timeout ∧ (record.address = peer → since ≤ record.lastInteraction)

section Peers

variable {engine after : Engine} {timeout since now : Nat} {peer : Address}

lemma Reworks.knowsPeers {store later : Store} (h : Reworks now store later)
    (htimeout : store.config.peerTimeout = timeout) (hsince : since ≤ now)
    (hk : KnowsPeers timeout peer since store.peers) :
    KnowsPeers timeout peer since later.peers := by
  refine h.forall_peers (fun address serial => ⟨htimeout, fun _ => hsince⟩) ?_ hk
  intro old later hold hupdates
  refine ⟨hupdates.timeout.trans hold.1, fun haddress => ?_⟩
  rcases hupdates.lastInteraction with hsame | hnow
  · rw [hsame]
    exact hold.2 (hupdates.address.symm.trans haddress)
  · rwa [hnow]

lemma knowsPeers_of_draw (hw : WellFiled engine.store)
    (htimeout : engine.config.peerTimeout = timeout)
    (hk : KnowsPeers timeout peer since engine.store.peers)
    (hpeers : after.store.peers = (engine.drawTimestamp now peer).1.store.peers) :
    KnowsPeers timeout peer now after.store.peers := by
  have hnew : (peerOrNew engine.store now peer).timeout = timeout := by
    unfold peerOrNew
    cases hrecord : engine.store.peers[peer]? with
    | none => exact htimeout
    | some record => exact (hk peer record hrecord).1
  intro address record hrecord
  rw [hpeers, (drawTimestamp_eq hw now peer).1, getElem?_insert_eq] at hrecord
  split at hrecord
  · cases hrecord
    exact ⟨hnew, fun _ => Nat.le_refl _⟩
  · rename_i hother
    refine ⟨(hk address record hrecord).1, fun haddress => ?_⟩
    exact absurd ((hw.peer address record hrecord).1.symm.trans haddress).symm hother

lemma isAwake_of_knowsPeers (hw : WellFiled engine.store)
    (hk : KnowsPeers timeout peer since engine.store.peers) (hsince : since ≤ now)
    (hshort : now < since + timeout) : IsAwake engine peer now := by
  intro record hrecord
  obtain ⟨htimeout, htouched⟩ := hk peer record hrecord
  have hlast := htouched (hw.peer peer record hrecord).1
  unfold PeerRecord.idleTime
  omega

end Peers

/-- An engine with a configuration, whose peer was written to at some time or later. -/
structure SenderEngine (config : Config) (peer : Address) (since : Nat) (engine : Engine) : Prop where
  own : KeepsOwn engine
  configured : engine.config = config
  senders : SendersWithin config.senderFailureBound engine.store.connections
  peers : KnowsPeers config.peerTimeout peer since engine.store.peers

section Senders

variable {engine after : Engine} {effects : List Effect} {config : Config} {peer : Address}
variable {since : Nat}

lemma senderEngine_starting (config : Config) (firstId : UInt32) (peer : Address) (since : Nat) :
    SenderEngine config peer since (Engine.starting config firstId) where
  own := keepsOwn_starting config firstId
  configured := rfl
  senders key record hrecord := by simp [Engine.starting] at hrecord
  peers address record hrecord := by simp [Engine.starting] at hrecord

lemma SenderEngine.move (h : SenderEngine config peer since engine)
    (hmove : EngineMove engine after effects) {later : Nat}
    (hpeers : KnowsPeers config.peerTimeout peer later after.store.peers) :
    SenderEngine config peer later after where
  own := h.own.move hmove
  configured := (hmove.config h.own.filed).trans h.configured
  senders := hmove.sendersWithin h.own.filed h.senders (by rw [h.configured])
  peers := hpeers

lemma SenderEngine.reworked (h : SenderEngine config peer since engine)
    (hmove : EngineMove engine after effects) {now : Nat}
    (hreworks : Reworks now engine.store after.store) (hsince : since ≤ now) :
    SenderEngine config peer since after :=
  h.move hmove (hreworks.knowsPeers (congrArg Config.peerTimeout h.configured) hsince h.peers)

lemma SenderEngine.earlier (h : SenderEngine config peer since engine) {before : Nat}
    (hbefore : before ≤ since) : SenderEngine config peer before engine where
  own := h.own
  configured := h.configured
  senders := h.senders
  peers address record hrecord :=
    ⟨(h.peers address record hrecord).1, fun haddress =>
      Nat.le_trans hbefore ((h.peers address record hrecord).2 haddress)⟩

variable (occasion : Occasion) (hsince : since ≤ occasion.now)

include hsince

lemma SenderEngine.receive (h : SenderEngine config peer since engine) (source : Address)
    (datagram : Bytes) :
    SenderEngine config peer since (engine.receive occasion source datagram).1 :=
  h.reworked (.received occasion source datagram)
    (reworks_receive occasion h.own.filed source datagram) hsince

lemma SenderEngine.send (h : SenderEngine config peer since engine) (target : Address)
    (fields : FieldMap) (delivery : Delivery) :
    SenderEngine config peer since (engine.send occasion target fields delivery).1 :=
  h.reworked (.sent occasion target fields delivery)
    (reworks_send occasion h.own.filed target fields delivery) hsince

lemma SenderEngine.sweepPeer (h : SenderEngine config peer since engine) (address : Address) :
    SenderEngine config peer since (engine.sweepPeer occasion address).1 :=
  h.reworked (.visitedPeer occasion address) (reworks_sweepPeer occasion address) hsince

lemma SenderEngine.sweepConnection (h : SenderEngine config peer since engine)
    (key : ConnectionKey) :
    SenderEngine config peer since (engine.sweepConnection occasion key).1 :=
  h.reworked (.visitedConnection occasion key)
    (reworks_sweepConnection occasion h.own.filed key) hsince

lemma SenderEngine.visitPeers (h : SenderEngine config peer since engine)
    (addresses : List Address) :
    SenderEngine config peer since (engine.visitAll (Engine.sweepPeer occasion) addresses).1 :=
  (@Proofs.visitAll_induction _ (Engine.sweepPeer occasion)
    (SenderEngine config peer since) (fun _ => True)
    (fun _ address hengine => ⟨hengine.sweepPeer occasion hsince address, fun _ _ => trivial⟩)
    addresses engine h).1

lemma SenderEngine.timeoutSweep (h : SenderEngine config peer since engine) :
    SenderEngine config peer since (engine.timeoutSweep occasion).1 :=
  (@Proofs.visitAll_induction _ (Engine.sweepConnection occasion)
    (SenderEngine config peer since) (fun _ => True)
    (fun _ key hengine => ⟨hengine.sweepConnection occasion hsince key, fun _ _ => trivial⟩)
    _ _ (h.visitPeers occasion hsince engine.store.peers.keys)).1

omit hsince in
lemma SenderEngine.deleteSweep (h : SenderEngine config peer since engine) (now : Nat) :
    SenderEngine config peer since (engine.deleteSweep now) :=
  h.move (.freed now) h.peers

end Senders

section Visits

variable {engine : Engine} {config : Config} {peer : Address} {since : Nat} {id : UInt32}
variable {record : ConnectionRecord} (occasion : Occasion)

lemma sweepConnection_other (h : SenderEngine config peer since engine) {key : ConnectionKey}
    (hother : key ≠ ⟨peer, id, .sender⟩) :
    (engine.sweepConnection occasion key).1.store.connections[
        (⟨peer, id, .sender⟩ : ConnectionKey)]? =
      engine.store.connections[(⟨peer, id, .sender⟩ : ConnectionKey)]? := by
  have hretries := sweepConnection_retries occasion h.own.filed key
  generalize (engine.sweepConnection occasion key).1 = after at hretries ⊢
  generalize (engine.sweepConnection occasion key).2 = effects at hretries
  cases hretries with
  | passed peers filed =>
    rcases filed with hsame | herased
    · rw [hsame]
    · rw [herased, getElem?_erase_eq, if_neg hother]
  | @resent connection syn due =>
    have hkey := (h.own.filed.connection _ _ due.filed).1
    have hresends := due.resends occasion h.own.filed h.own.buffers
    generalize ((engine.putConnection (retried connection occasion.now)).resendSyn occasion
      (retried connection occasion.now) syn).1 = after at hresends ⊢
    generalize ((engine.putConnection (retried connection occasion.now)).resendSyn occasion
      (retried connection occasion.now) syn).2 = effects at hresends
    have hput : (engine.putConnection (retried connection occasion.now)).store.connections[
        (⟨peer, id, .sender⟩ : ConnectionKey)]? =
          engine.store.connections[(⟨peer, id, .sender⟩ : ConnectionKey)]? := by
      rw [connections_putConnection, getElem?_insert_eq, if_neg]
      rw [← hkey] at hother
      exact hother
    have hretried : (retried connection occasion.now).key ≠ ⟨peer, id, .sender⟩ := by
      rw [← hkey] at hother
      exact hother
    cases hresends with
    | sent own stamp peers filed =>
      rw [filed, getElem?_afterTransmit, if_neg hretried, hput]
    | unsent early unstamped peers filed =>
      rcases filed with hsame | herased
      · rw [hsame, hput]
      · rw [herased, getElem?_erase_eq, if_neg hretried, hput]

def repeated (record : ConnectionRecord) (now : Nat) (frame : Bytes) : ConnectionRecord :=
  { retried record now with lastSent := some frame }

lemma sweepConnection_due (h : SenderEngine config peer since engine) {syn : Bytes}
    (hdue : IsDue engine ⟨peer, id, .sender⟩ record syn)
    (hidle : record.timeout ≤ record.idleTime occasion.now)
    (haccepts : ∀ target bytes, occasion.accepts target bytes = true)
    (hstamped : stamp? syn ≠ some none) :
    ∃ frame, (engine.sweepConnection occasion ⟨peer, id, .sender⟩).2 = [.sent peer frame true] ∧
      synId? frame = some id ∧
      SenderEngine config peer occasion.now
        (engine.sweepConnection occasion ⟨peer, id, .sender⟩).1 ∧
      (engine.sweepConnection occasion ⟨peer, id, .sender⟩).1.store.connections[
          (⟨peer, id, .sender⟩ : ConnectionKey)]? =
        some (repeated record occasion.now frame) := by
  have hkey := (h.own.filed.connection _ _ hdue.filed).1
  have hput := @wellFiled_putConnection engine h.own.filed (retried record occasion.now)
    (h.own.filed.connection _ _ hdue.filed).2
  have hexpiry : record.resetOrExpire occasion.now = (retried record occasion.now, .resend syn) := by
    unfold ConnectionRecord.resetOrExpire
    rw [hdue.role, hdue.status, hdue.buffered]
    simp only [ConnectionRecord.registerFailure, hdue.bound, decide_true, if_true]
    rfl
  have hvisit : engine.sweepConnection occasion ⟨peer, id, .sender⟩ =
      (engine.putConnection (retried record occasion.now)).resendSyn occasion
        (retried record occasion.now) syn := by
    unfold Engine.sweepConnection
    rw [connection?_eq h.own.filed, hdue.filed]
    dsimp only
    rw [if_neg (Nat.not_lt.2 hidle), hexpiry]
  have hmove := @EngineMove.visitedConnection engine occasion ⟨peer, id, .sender⟩
  have hresends := hdue.resends occasion h.own.filed h.own.buffers
  rw [← hvisit] at hresends
  generalize (engine.sweepConnection occasion ⟨peer, id, .sender⟩).1 = after at hmove hresends ⊢
  generalize (engine.sweepConnection occasion ⟨peer, id, .sender⟩).2 = effects at hmove hresends ⊢
  have hpeer : (retried record occasion.now).key = ⟨peer, id, .sender⟩ := hkey
  cases hresends with
  | @sent frame own stamp peers filed =>
    rw [hpeer] at own peers filed hmove ⊢
    rw [haccepts] at filed hmove ⊢
    obtain ⟨fields, timestamp, doubleCount, hwritten, -⟩ := own
    refine ⟨frame, rfl, synId?_of_encode hwritten, h.move hmove ?_, ?_⟩
    · exact knowsPeers_of_draw hput (congrArg Config.peerTimeout h.configured) h.peers peers
    · rw [filed, getElem?_afterTransmit, if_pos hpeer, if_pos rfl]
      rfl
  | unsent early unstamped peers filed => exact absurd unstamped hstamped

lemma visitAll_others {keys : List ConnectionKey} (hother : ⟨peer, id, .sender⟩ ∉ keys)
    (hsince : since ≤ occasion.now) (h : SenderEngine config peer since engine) :
    SenderEngine config peer since
        (engine.visitAll (Engine.sweepConnection occasion) keys).1 ∧
      (engine.visitAll (Engine.sweepConnection occasion) keys).1.store.connections[
          (⟨peer, id, .sender⟩ : ConnectionKey)]? =
        engine.store.connections[(⟨peer, id, .sender⟩ : ConnectionKey)]? := by
  induction keys generalizing engine with
  | nil => exact ⟨h, rfl⟩
  | cons key rest ih =>
    rw [List.mem_cons, not_or] at hother
    obtain ⟨hrest, hsame⟩ := ih hother.2 (h.sweepConnection occasion hsince key)
    exact ⟨hrest, hsame.trans (sweepConnection_other occasion h (Ne.symm hother.1))⟩

lemma visitAll_append {κ : Type} (visit : Engine → κ → Engine × List Effect) (engine : Engine)
    (keys more : List κ) : engine.visitAll visit (keys ++ more) =
      (((engine.visitAll visit keys).1.visitAll visit more).1,
        (engine.visitAll visit keys).2 ++ ((engine.visitAll visit keys).1.visitAll visit more).2) := by
  induction keys generalizing engine with
  | nil => rfl
  | cons key rest ih =>
    simp only [List.cons_append, Engine.visitAll, ih, List.append_assoc]

/-- A sweep repeats the first frame of a message that has waited for its timeout. -/
theorem timeoutSweep_repeats (h : SenderEngine config peer since engine) {syn : Bytes}
    (hsince : since ≤ occasion.now) (hdue : IsDue engine ⟨peer, id, .sender⟩ record syn)
    (hidle : record.timeout ≤ record.idleTime occasion.now)
    (haccepts : ∀ target bytes, occasion.accepts target bytes = true)
    (hstamped : stamp? syn ≠ some none) :
    ∃ frame, .sent peer frame true ∈ (engine.timeoutSweep occasion).2 ∧ synId? frame = some id ∧
      SenderEngine config peer occasion.now (engine.timeoutSweep occasion).1 ∧
      (engine.timeoutSweep occasion).1.store.connections[
          (⟨peer, id, .sender⟩ : ConnectionKey)]? =
        some (repeated record occasion.now frame) := by
  obtain ⟨-, -, hconnections, -, hsilent⟩ := visitPeers_swept occasion h.own.filed
    (@Std.ExtTreeMap.nodup_keys _ _ _ engine.store.peers _)
  have hvisited := h.visitPeers occasion hsince engine.store.peers.keys
  unfold Engine.timeoutSweep
  dsimp only
  rw [hsilent, List.nil_append]
  generalize (engine.visitAll (Engine.sweepPeer occasion) engine.store.peers.keys).1 = between
    at hvisited hconnections ⊢
  -- the visits before and after the one that counts are to other records
  have hmem : (⟨peer, id, .sender⟩ : ConnectionKey) ∈ between.store.connections.keys := by
    rw [Std.ExtTreeMap.mem_keys, Std.ExtTreeMap.mem_iff_isSome_getElem?, hconnections, hdue.filed]
    rfl
  have hnodup : between.store.connections.keys.Nodup := Std.ExtTreeMap.nodup_keys
  obtain ⟨before, later, hkeys⟩ := List.append_of_mem hmem
  rw [hkeys, List.nodup_middle, List.nodup_cons, List.mem_append, not_or] at hnodup
  rw [hkeys, visitAll_append]
  obtain ⟨hengine, hsame⟩ := visitAll_others occasion hnodup.1.1 hsince hvisited
  rw [hconnections] at hsame
  generalize (between.visitAll (Engine.sweepConnection occasion) before).1 = middle
    at hengine hsame ⊢
  obtain ⟨frame, heffects, hsyn, hnow, hrepeated⟩ := sweepConnection_due occasion hengine
    ⟨hsame.trans hdue.filed, hdue.role, hdue.status, hdue.buffered, hdue.bound⟩ hidle haccepts
    hstamped
  obtain ⟨hlast, hkept⟩ := visitAll_others occasion hnodup.1.2 (Nat.le_refl _) hnow
  refine ⟨frame, ?_, hsyn, hlast, hkept.trans hrepeated⟩
  have hsent : Effect.sent peer frame true ∈
      (middle.sweepConnection occasion ⟨peer, id, .sender⟩).2 := by
    rw [heffects]
    exact List.mem_singleton_self _
  exact List.mem_append_right _ (List.mem_append_left _ hsent)

end Visits

section Settled

variable {engine : Engine} {config : Config} {peer : Address} {since : Nat} {id : UInt32}

/-- A sweep does not repeat the first frame of a message whose sender does not wait. -/
lemma timeoutSweep_settled (h : SenderEngine config peer since engine) (occasion : Occasion)
    (hsettled : Settled engine.store.connections[(⟨peer, id, .sender⟩ : ConnectionKey)]?) :
    Settled (engine.timeoutSweep occasion).1.store.connections[
        (⟨peer, id, .sender⟩ : ConnectionKey)]? ∧
      (engine.timeoutSweep occasion).2.countP (isSynFor peer id) = 0 := by
  have hall := @timeoutSweep_induction engine occasion
    (fun between => ConnectionsFiled between.store.connections ∧
      SendersWithin config.senderFailureBound between.store.connections ∧
        Settled between.store.connections[(⟨peer, id, .sender⟩ : ConnectionKey)]?)
    (fun effect => isSynFor peer id effect = false) (by
      rintro between after effects ⟨hfiled, hsenders, hbefore⟩ hmove -
      obtain ⟨hafter, hnone⟩ :=
        hbefore.change (@SweepMove.senderChange _ _ _ _ _ peer id hfiled hsenders hmove)
      rw [List.countP_eq_zero] at hnone
      exact ⟨⟨hmove.connectionsFiled occasion hfiled, hmove.sendersWithin hsenders, hafter⟩,
        fun effect hmem => Bool.not_eq_true _ ▸ hnone effect hmem⟩)
    h.own.filed ⟨h.own.filed.connection, h.senders, hsettled⟩
  refine ⟨hall.1.2.2.2, List.countP_eq_zero.2 fun effect hmem => ?_⟩
  rw [hall.2 effect hmem]
  exact Bool.false_ne_true

end Settled

end ReliableDatagrams.Proofs
