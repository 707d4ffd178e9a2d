import ReliableDatagrams.Proofs.Retransmission
import ReliableDatagrams.Proofs.Transit

/-!
# Writing first frames again

An engine draws the timestamps of its frames to a peer from a counter, and every number that it draws
is written, left out, or spent on a frame that is never sent. `Draws` says which of these a move does.
A first frame that is repeated is written again with the next number. Since the one that is kept was
written by the engine itself, this only fails where a timestamp has to go in that was not there before
and makes the frame too long; in particular the number that is left out is never spent in vain.
-/

namespace ReliableDatagrams.Proofs

/-- The timestamp that is written for a number of the counter. -/
def stampOf (number : UInt16) : Option UInt16 :=
  if number = wraparoundTimestamp then none else some number

/-- What is tracked for a sender once its frame was accepted. Acknowledgements, and plain frames
without timestamp, leave the tracking alone. -/
def stamp? (bytes : Bytes) : Option (Option UInt16) :=
  match Frame.decode bytes with
  | .ok frame =>
    match frame.kind, frame.header.messageId with
    | .syn, some _ => some frame.timestamp
    | .plain, _ => frame.timestamp.map some
    | _, _ => none
  | .error _ => none

/-- The timestamps of what a socket has accepted for a peer. -/
def stampsTo (peer : Address) (effects : List Effect) : List (Option UInt16) :=
  effects.filterMap fun effect => match effect with
    | .sent target bytes true => if target = peer then stamp? bytes else none
    | _ => none

def RefusesReset (peer : Address) (effects : List Effect) : Prop :=
  ∃ bytes, Effect.sent peer bytes false ∈ effects ∧ stamp? bytes = some none

section Stamps

variable {fields : List FieldValues} {messageId : Option UInt32} {timestamp : UInt16}
variable {doubleCount : Bool} {bytes : Bytes}

lemma stamp?_of_encode (h : encode fields { messageId, timestamp := some timestamp, doubleCount } =
    .ok bytes) : stamp? bytes = some (stampOf timestamp) := by
  have hwritten := @writtenTimestamp_of_some
    { messageId, timestamp := some timestamp, doubleCount } timestamp rfl
  cases messageId with
  | none =>
    have hearly : timestamp ≠ wraparoundTimestamp := by
      rintro rfl
      simp [encode] at h
    simp [stamp?, decode_of_encode h, writtenFrame, dataKind, hwritten, stampOf, hearly]
  | some id => simp [stamp?, decode_of_encode h, writtenFrame, dataKind, hwritten, stampOf]

lemma stamp?_encodeControl {kind : FrameKind} (hkind : kind.isControl = true) (id : UInt32) :
    stamp? (encodeControl kind id) = none := by
  unfold stamp?
  split
  · rename_i frame hframe
    rw [(decode_encodeControl_eq_ok hkind hframe).1]
    cases kind <;> first | rfl | exact absurd hkind (by decide)
  · rfl

lemma stampsTo_append (peer : Address) (effects more : List Effect) :
    stampsTo peer (effects ++ more) = stampsTo peer effects ++ stampsTo peer more :=
  List.filterMap_append

lemma stampsTo_sent_of_ne {peer target : Address} (h : target ≠ peer) (bytes : Bytes)
    (accepted : Bool) : stampsTo peer [.sent target bytes accepted] = [] := by
  cases accepted <;> simp [stampsTo, h]

lemma stampsTo_control {kind : FrameKind} (hkind : kind.isControl = true) (peer target : Address)
    (id : UInt32) (accepted : Bool) :
    stampsTo peer [.sent target (encodeControl kind id) accepted] = [] := by
  cases accepted <;> simp [stampsTo, stamp?_encodeControl hkind]

def stampLength (number : UInt16) : Nat :=
  if number = wraparoundTimestamp then 0 else 2

lemma length_writtenTimestamp {options : FrameOptions} {number : UInt16}
    (h : options.timestamp = some number) :
    (Bytes.ofOption 2 (options.writtenTimestamp.map UInt16.toNat)).length = stampLength number := by
  rw [@writtenTimestamp_of_some _ number h, stampLength]
  split
  · rfl
  · exact Bytes.length_ofNat _ _

/-- Another timestamp makes no difference to what can be written, but for its own length. -/
lemma encode_restamped {id : UInt32}
    (h : encode fields { messageId := some id, timestamp := some timestamp, doubleCount } =
      .ok bytes) (number : UInt16) :
    ∃ again, encode fields { messageId := some id, timestamp := some number, doubleCount } =
        .ok again ∧
      again.length + stampLength timestamp = bytes.length + stampLength number := by
  obtain ⟨hvalid, body, hbody, rfl⟩ := (encode_eq_ok_iff _ _).1 h
  have hagain : AreValid { messageId := some id, timestamp := some number, doubleCount } :=
    ⟨hvalid.messageId, fun _ => Option.some_ne_none id⟩
  refine ⟨_, (encode_eq_ok_iff _ _).2 ⟨hagain, body, hbody, rfl⟩, ?_⟩
  rw [length_frameAround, length_frameAround, @length_writtenTimestamp _ number rfl,
    @length_writtenTimestamp _ timestamp rfl]
  dsimp only
  omega

end Stamps

/-- What a move does with the counter for a peer. -/
inductive Draws (engine : Engine) (peer : Address) (after : Engine) (effects : List Effect) :
    Prop where
  | kept (counter : outgoingTimestamp after peer = outgoingTimestamp engine peer)
      (silent : stampsTo peer effects = [])
  | spent (counter : outgoingTimestamp after peer = outgoingTimestamp engine peer + 1)
      (early : outgoingTimestamp engine peer ≠ wraparoundTimestamp)
      (silent : stampsTo peer effects = [])
  | written (counter : outgoingTimestamp after peer = outgoingTimestamp engine peer + 1)
      (stamps : stampsTo peer effects = [stampOf (outgoingTimestamp engine peer)])
  | refused (reset : RefusesReset peer effects)

section Peers

variable {engine after : Engine}

/-- Drawing a timestamp advances the counter of the target by one, and nothing else. -/
lemma timestamps_of_draw (hw : WellFiled engine.store) {now : Nat} {target : Address}
    (hpeers : after.store.peers = (engine.drawTimestamp now target).1.store.peers)
    (other : Address) :
    trackedTimestamp after other = trackedTimestamp engine other ∧
      outgoingTimestamp after other =
        if target = other then outgoingTimestamp engine target + 1
        else outgoingTimestamp engine other := by
  rw [(drawTimestamp_eq hw now target).1] at hpeers
  rw [trackedTimestamp_insert hpeers, outgoingTimestamp_insert hpeers]
  constructor
  · split
    · rename_i hother
      rw [← hother]
      exact lastTimestamp_peerOrNew engine now target
    · rfl
  · split
    · rw [← nextTimestamp_peerOrNew engine now target]
      rfl
    · rfl

lemma timestamps_of_peers (h : after.store.peers = engine.store.peers) (peer : Address) :
    trackedTimestamp after peer = trackedTimestamp engine peer ∧
      outgoingTimestamp after peer = outgoingTimestamp engine peer := by
  unfold trackedTimestamp outgoingTimestamp
  rw [h]
  exact ⟨rfl, rfl⟩

lemma draws_of_frame {peer : Address} {bytes : Bytes} {accepted : Bool}
    (hcounter : outgoingTimestamp after peer = outgoingTimestamp engine peer + 1)
    (hstamp : stamp? bytes = some (stampOf (outgoingTimestamp engine peer))) :
    Draws engine peer after [.sent peer bytes accepted] := by
  cases accepted with
  | true =>
    refine .written hcounter ?_
    simp [stampsTo, hstamp]
  | false =>
    by_cases hwrap : outgoingTimestamp engine peer = wraparoundTimestamp
    · rw [stampOf, if_pos hwrap] at hstamp
      exact .refused ⟨bytes, List.mem_singleton_self _, hstamp⟩
    · exact .spent hcounter hwrap rfl

end Peers

def IsOwnSyn (max : Nat) (id : UInt32) (syn : Bytes) : Prop :=
  ∃ (fields : FieldMap) (timestamp : UInt16) (doubleCount : Bool),
    encode fields.toList { messageId := some id, timestamp := some timestamp, doubleCount } =
        .ok syn ∧
      syn.length ≤ max

/-- What comes of an attempt to repeat a first frame. -/
inductive Resends (engine : Engine) (occasion : Occasion) (connection : ConnectionRecord)
    (syn : Bytes) : Engine → List Effect → Prop where
  | sent {after : Engine} {frame : Bytes}
      (own : IsOwnSyn engine.config.maxDatagramSize connection.key.messageId frame)
      (stamp : stamp? frame = some (stampOf (outgoingTimestamp engine connection.key.peer)))
      (peers : after.store.peers =
        (engine.drawTimestamp occasion.now connection.key.peer).1.store.peers)
      (filed : after.store.connections = afterTransmit engine.store.connections connection frame
        (occasion.accepts connection.key.peer frame)) :
      Resends engine occasion connection syn after
        [.sent connection.key.peer frame (occasion.accepts connection.key.peer frame)]
  | unsent {after : Engine}
      (early : outgoingTimestamp engine connection.key.peer ≠ wraparoundTimestamp)
      (unstamped : stamp? syn = some none)
      (peers : after.store.peers =
        (engine.drawTimestamp occasion.now connection.key.peer).1.store.peers)
      (filed : after.store.connections = engine.store.connections ∨
        after.store.connections = engine.store.connections.erase connection.key) :
      Resends engine occasion connection syn after []

section Resending

variable {engine : Engine} (occasion : Occasion) {connection : ConnectionRecord} {syn : Bytes}

/-- A first frame of one's own can be written again, if only it has room for a timestamp. -/
lemma restamp_of_own (hw : WellFiled engine.store) {id : UInt32}
    (hown : IsOwnSyn engine.config.maxDatagramSize id syn) (now : Nat) (target : Address) :
    (engine.restamp now target syn).1 = (engine.drawTimestamp now target).1 ∧
      ((∃ frame, (engine.restamp now target syn).2 = some frame ∧
          IsOwnSyn engine.config.maxDatagramSize id frame ∧
          stamp? frame = some (stampOf (outgoingTimestamp engine target))) ∨
        (engine.restamp now target syn).2 = none ∧
          outgoingTimestamp engine target ≠ wraparoundTimestamp ∧ stamp? syn = some none) := by
  obtain ⟨fields, timestamp, doubleCount, hwritten, hlength⟩ := hown
  obtain ⟨again, hagain, hmore⟩ := encode_restamped hwritten (outgoingTimestamp engine target)
  have hfields : (writtenFrame fields.toList
      { messageId := some id, timestamp := some timestamp, doubleCount }).fields = fields :=
    ofList_toList fields
  have hconfig : (engine.drawTimestamp now target).1.config = engine.config :=
    config_withPeer _ _ _ _
  unfold Engine.restamp
  simp only [decode_of_encode hwritten, (drawTimestamp_eq hw now target).2, hfields, true_and]
  simp only [Engine.writeFrame, writtenFrame, FrameOptions.flags, hagain, hconfig]
  by_cases hlong : engine.config.maxDatagramSize < again.length
  · right
    rw [if_pos hlong]
    unfold stampLength at hmore
    have hearly : outgoingTimestamp engine target ≠ wraparoundTimestamp := by
      intro hwrap
      rw [if_pos hwrap] at hmore
      omega
    refine ⟨rfl, hearly, ?_⟩
    rw [stamp?_of_encode hwritten, stampOf, if_pos]
    by_contra hstamped
    rw [if_neg hearly, if_neg hstamped] at hmore
    omega
  · left
    rw [if_neg hlong]
    exact ⟨again, rfl, ⟨fields, _, doubleCount, hagain, by omega⟩, stamp?_of_encode hagain⟩

lemma resendSyn_resends (hw : WellFiled engine.store)
    (hown : IsOwnSyn engine.config.maxDatagramSize connection.key.messageId syn)
    (hstatus : connection.status = .synSent) :
    Resends engine occasion connection syn (engine.resendSyn occasion connection syn).1
      (engine.resendSyn occasion connection syn).2 := by
  obtain ⟨hdrawn, hagain⟩ := restamp_of_own hw hown occasion.now connection.key.peer
  have hsame := @connections_drawTimestamp engine occasion.now connection.key.peer
  unfold Engine.resendSyn
  cases hr : engine.restamp occasion.now connection.key.peer syn with
  | mk stamped written =>
    rw [hr] at hdrawn hagain
    dsimp only at hdrawn hagain
    subst hdrawn
    rcases hagain with ⟨frame, rfl, hframe, hstamp⟩ | ⟨rfl, hearly, hunstamped⟩
    · simp only [if_pos hstatus, effects_transmit]
      refine .sent hframe hstamp (peers_transmit _ _ _ _) ?_
      rw [connections_transmit, hsame]
    · refine .unsent hearly hunstamped (peers_retire _ _ _) ?_
      dsimp only
      rw [connections_retire, hsame]
      split
      · exact Or.inr rfl
      · exact Or.inl rfl

variable {after : Engine} {effects : List Effect}

lemma Resends.draws (hw : WellFiled engine.store)
    (h : Resends engine occasion connection syn after effects) (peer : Address) :
    Draws engine peer after effects := by
  cases h with
  | sent own stamp peers filed =>
    have hcounter := (timestamps_of_draw hw peers peer).2
    by_cases hpeer : connection.key.peer = peer
    · subst hpeer
      rw [if_pos rfl] at hcounter
      exact draws_of_frame hcounter stamp
    · rw [if_neg hpeer] at hcounter
      exact .kept hcounter (stampsTo_sent_of_ne hpeer _ _)
  | unsent early unstamped peers filed =>
    have hcounter := (timestamps_of_draw hw peers peer).2
    by_cases hpeer : connection.key.peer = peer
    · subst hpeer
      rw [if_pos rfl] at hcounter
      exact .spent hcounter early rfl
    · rw [if_neg hpeer] at hcounter
      exact .kept hcounter rfl

lemma Resends.tracked (hw : WellFiled engine.store)
    (h : Resends engine occasion connection syn after effects) (peer : Address) :
    trackedTimestamp after peer = trackedTimestamp engine peer := by
  cases h with
  | sent own stamp peers filed => exact (timestamps_of_draw hw peers peer).1
  | unsent early unstamped peers filed => exact (timestamps_of_draw hw peers peer).1

end Resending

def retried (connection : ConnectionRecord) (now : Nat) : ConnectionRecord :=
  { connection with failures := connection.failures + 1, lastInteraction := now }

/-- A sender's record waits for an answer, and its first frame may be repeated. -/
structure IsDue (engine : Engine) (key : ConnectionKey) (connection : ConnectionRecord)
    (syn : Bytes) : Prop where
  filed : engine.store.connections[key]? = some connection
  role : connection.key.role = .sender
  status : connection.status = .synSent
  buffered : connection.lastSent = some syn
  bound : connection.failures + 1 ≤ connection.failureBound

/-- What a timeout, or a failure from the receiver, does at the record of a handshake. -/
inductive Retries (engine : Engine) (occasion : Occasion) (key : ConnectionKey) :
    Engine → List Effect → Prop where
  | passed {after : Engine} (peers : after.store.peers = engine.store.peers)
      (filed : after.store.connections = engine.store.connections ∨
        after.store.connections = engine.store.connections.erase key) :
      Retries engine occasion key after []
  | resent {connection : ConnectionRecord} {syn : Bytes} (due : IsDue engine key connection syn) :
      Retries engine occasion key
        ((engine.putConnection (retried connection occasion.now)).resendSyn occasion
          (retried connection occasion.now) syn).1
        ((engine.putConnection (retried connection occasion.now)).resendSyn occasion
          (retried connection occasion.now) syn).2

/-- The first frames that an engine keeps are its own. -/
def OwnBuffers (max : Nat) : Std.ExtTreeMap ConnectionKey ConnectionRecord → Prop :=
  AllRecords fun record => record.key.role = .sender → record.status = .synSent →
    ∀ syn, record.lastSent = some syn → IsOwnSyn max record.key.messageId syn

section Retrying

variable {engine after : Engine} (occasion : Occasion) {effects : List Effect}
variable {key : ConnectionKey}

lemma sweepConnection_retries (hw : WellFiled engine.store) (key : ConnectionKey) :
    Retries engine occasion key (engine.sweepConnection occasion key).1
      (engine.sweepConnection occasion key).2 := by
  unfold Engine.sweepConnection
  rw [connection?_eq hw]
  cases hfiled : engine.store.connections[key]? with
  | none => exact .passed rfl (Or.inl rfl)
  | some connection =>
    have hkey := (hw.connection key connection hfiled).1
    dsimp only
    split
    · exact .passed rfl (Or.inl rfl)
    · rcases resetOrExpire_cases connection occasion.now with
        ⟨syn, hrole, hstatus, hsyn, hbound, hreset⟩ | ⟨given, hgiven, hreset⟩
      · rw [hreset]
        exact .resent ⟨hfiled, hrole, hstatus, hsyn, hbound⟩
      · rw [hreset]
        refine .passed ((peers_retire _ _ _).trans (peers_putConnection _ _)) (Or.inr ?_)
        rw [connections_retire_putConnection, hgiven, hkey]

lemma receiveSynFailure_retries (hw : WellFiled engine.store) (source : Address) (id : UInt32) :
    Retries engine occasion ⟨source, id, .sender⟩
      (engine.receiveSynFailure occasion source id).1
      (engine.receiveSynFailure occasion source id).2 := by
  unfold Engine.receiveSynFailure
  rw [connection?_eq hw]
  cases hfiled : engine.store.connections[(⟨source, id, .sender⟩ : ConnectionKey)]? with
  | none => exact .passed rfl (Or.inl rfl)
  | some connection =>
    have hkey := (hw.connection _ _ hfiled).1
    dsimp only
    split
    · rename_i syn hstatus hsyn
      simp only [ConnectionRecord.registerFailure, ConnectionRecord.touch, decide_eq_true_eq]
      by_cases hbound : connection.failures + 1 ≤ connection.failureBound
      · simp only [if_pos hbound]
        exact .resent ⟨hfiled, by rw [hkey], hstatus, hsyn, hbound⟩
      · simp only [if_neg hbound]
        refine .passed ((peers_retire _ _ _).trans (peers_putConnection _ _)) (Or.inr ?_)
        rw [connections_retire_putConnection, hkey]
    · exact .passed rfl (Or.inl rfl)

lemma wellFiled_putConnection (hw : WellFiled engine.store) {connection : ConnectionRecord}
    (hdeleted : connection.isBeingDeleted = false) :
    WellFiled (engine.putConnection connection).store :=
  ⟨hw.peer, hw.connection.insert hdeleted⟩

/-- A retry is an attempt to send the buffered first frame, whose record was filed just before. -/
lemma IsDue.resends (hw : WellFiled engine.store)
    (hown : OwnBuffers engine.config.maxDatagramSize engine.store.connections)
    {connection : ConnectionRecord} {syn : Bytes} (h : IsDue engine key connection syn) :
    Resends (engine.putConnection (retried connection occasion.now)) occasion
      (retried connection occasion.now) syn
      ((engine.putConnection (retried connection occasion.now)).resendSyn occasion
        (retried connection occasion.now) syn).1
      ((engine.putConnection (retried connection occasion.now)).resendSyn occasion
        (retried connection occasion.now) syn).2 := by
  have hput : WellFiled (engine.putConnection (retried connection occasion.now)).store :=
    wellFiled_putConnection hw (hw.connection _ _ h.filed).2
  exact resendSyn_resends occasion hput (hown _ _ h.filed h.role h.status syn h.buffered) h.status

lemma Draws.congr {other : Engine} {peer : Address}
    (hcounter : outgoingTimestamp engine peer = outgoingTimestamp other peer)
    (h : Draws engine peer after effects) : Draws other peer after effects := by
  cases h with
  | kept counter silent => exact .kept (hcounter ▸ counter) silent
  | spent counter early silent => exact .spent (hcounter ▸ counter) (hcounter ▸ early) silent
  | written counter stamps => exact .written (hcounter ▸ counter) (hcounter ▸ stamps)
  | refused reset => exact .refused reset

section Own

variable (hw : WellFiled engine.store)
variable (hown : OwnBuffers engine.config.maxDatagramSize engine.store.connections)

include hw hown

lemma Retries.draws (h : Retries engine occasion key after effects) (peer : Address) :
    Draws engine peer after effects := by
  cases h with
  | passed peers filed => exact .kept (timestamps_of_peers peers peer).2 rfl
  | resent due =>
    have hput := @wellFiled_putConnection engine hw (retried _ occasion.now)
      (hw.connection _ _ due.filed).2
    refine ((due.resends occasion hw hown).draws occasion hput peer).congr ?_
    exact (timestamps_of_peers (peers_putConnection _ _) peer).2

lemma Retries.tracked (h : Retries engine occasion key after effects) (peer : Address) :
    trackedTimestamp after peer = trackedTimestamp engine peer := by
  cases h with
  | passed peers filed => exact (timestamps_of_peers peers peer).1
  | resent due =>
    have hput := @wellFiled_putConnection engine hw (retried _ occasion.now)
      (hw.connection _ _ due.filed).2
    exact (due.resends occasion hw hown).tracked occasion hput peer

lemma Retries.ownBuffers (h : Retries engine occasion key after effects) :
    OwnBuffers engine.config.maxDatagramSize after.store.connections := by
  cases h with
  | passed peers filed =>
    rcases filed with hsame | herased
    · rwa [hsame]
    · rw [herased]
      exact hown.erase _
  | @resent connection syn due =>
    have hput : OwnBuffers engine.config.maxDatagramSize
        (engine.putConnection (retried connection occasion.now)).store.connections := by
      intro key record hrecord
      rw [connections_putConnection, getElem?_insert_eq] at hrecord
      split at hrecord
      · cases hrecord
        have hold := hown _ _ due.filed
        exact hold
      · exact hown key record hrecord
    have hresends := due.resends occasion hw hown
    generalize ((engine.putConnection (retried connection occasion.now)).resendSyn occasion
      (retried connection occasion.now) syn).1 = after at hresends ⊢
    generalize ((engine.putConnection (retried connection occasion.now)).resendSyn occasion
      (retried connection occasion.now) syn).2 = effects at hresends
    cases hresends with
    | sent own stamp peers filed =>
      rw [filed]
      apply hput.afterTransmit
      intro _ _ _ again hagain
      cases hagain
      exact own
    | unsent early unstamped peers filed =>
      rcases filed with hsame | herased
      · rwa [hsame]
      · rw [herased]
        exact hput.erase _

end Own

end Retrying

end ReliableDatagrams.Proofs
