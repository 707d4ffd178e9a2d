import Mathlib.Logic.Equiv.Defs
import ReliableDatagrams.Proofs.PeerSlices

/-!
# Isolation of peers

A datagram is dealt with by what belongs to the peer that it comes from, and by the occasion. Run on
two engines that have the same of that peer, every handler has the same effects, all on this peer,
and leaves twins behind. With both engines the same this says that other peers are not touched; with
one of them after a datagram from another peer it says that the order of the two does not matter.
-/

namespace ReliableDatagrams.Proofs

section Handlers

variable {peer : Address} {σ : Nat → Nat} {start start' engine engine' : Engine}
variable (h : Twins peer σ start start' engine engine') (occasion : Occasion)

include h

lemma Twins.receivePlain (timestamp : Option UInt16) (fields : FieldMap) :
    Alike peer σ start start' (engine.receivePlain occasion peer timestamp fields)
      (engine'.receivePlain occasion peer timestamp fields) := by
  obtain ⟨htracked, hfresh⟩ := h.acceptTimestamp occasion.now timestamp
  unfold Engine.receivePlain
  dsimp only
  rw [hfresh]
  refine ⟨htracked, rfl, ?_⟩
  dsimp only
  split <;> simp [effectPeer]

lemma Twins.rejectSyn (id : UInt32) :
    Alike peer σ start start' (engine.rejectSyn occasion peer id)
      (engine'.rejectSyn occasion peer id) := by
  have hopened := @Twins.connectionOrInsert _ _ _ _ _ _ h occasion.now ⟨peer, id, .receiver⟩ rfl
  have hkey := connectionOrNew_key h.proper.filed occasion.now ⟨peer, id, .receiver⟩
  have hrevision := @isRevision_connectionOrInsert .any engine
    ((connectionOrNew engine.store occasion.now
      ⟨peer, id, .receiver⟩).registerFailure.1.touch occasion.now)
    occasion.now ⟨peer, id, .receiver⟩ hkey rfl rfl (Or.inl rfl)
  have hpeer := congrArg ConnectionKey.peer hkey
  unfold Engine.rejectSyn
  dsimp only
  rw [snd_connectionOrInsert, snd_connectionOrInsert, h.connectionOrNew_eq occasion.now rfl]
  generalize connectionOrNew engine.store occasion.now ⟨peer, id, .receiver⟩ = connection at *
  have hanswered := hopened.transmit occasion (connection.registerFailure.1.touch occasion.now)
    hpeer hrevision (encodeControl .synFailure connection.key.messageId)
  have hstatus : (relabelConnection σ connection).status = connection.status := rfl
  have hbound : (relabelConnection σ connection).registerFailure.2 =
      connection.registerFailure.2 := rfl
  simp only [hstatus, hbound]
  split
  · exact hopened.silent
  · split
    · exact hanswered
    · exact ⟨hanswered.twins.retire (connection.registerFailure.1.touch occasion.now) hpeer
        occasion.now, hanswered.effects, hanswered.own⟩

lemma Twins.receiveSyn (id : UInt32) (timestamp : Option UInt16) (fields : FieldMap) :
    Alike peer σ start start' (engine.receiveSyn occasion peer id timestamp fields)
      (engine'.receiveSyn occasion peer id timestamp fields) := by
  have hopened := @Twins.connectionOrInsert _ _ _ _ _ _ h occasion.now ⟨peer, id, .receiver⟩ rfl
  have hkey := connectionOrNew_key h.proper.filed occasion.now ⟨peer, id, .receiver⟩
  have hrevision : ∀ status, IsRevision .any
      (engine.store.connectionOrInsert occasion.now ⟨peer, id, .receiver⟩).1
      ({ connectionOrNew engine.store occasion.now ⟨peer, id, .receiver⟩ with status }.touch
        occasion.now) :=
    fun status => isRevision_connectionOrInsert hkey rfl rfl (Or.inr trivial)
  have hpeer := congrArg ConnectionKey.peer hkey
  obtain ⟨htracked, hfresh⟩ := hopened.acceptTimestamp occasion.now timestamp
  obtain ⟨hsame, -⟩ := @acceptTimestamp_opened engine occasion peer id timestamp
  unfold Engine.receiveSyn
  dsimp only
  rw [snd_connectionOrInsert, snd_connectionOrInsert, h.connectionOrNew_eq occasion.now rfl]
  generalize connectionOrNew engine.store occasion.now ⟨peer, id, .receiver⟩ = connection at *
  have hstatus : (relabelConnection σ connection).status = connection.status := rfl
  simp only [hstatus]
  split
  · exact hopened.transmit occasion (connection.touch occasion.now) hpeer
      (hrevision connection.status) _
  · cases hr : Engine.acceptTimestamp { engine with store :=
        (engine.store.connectionOrInsert occasion.now ⟨peer, id, .receiver⟩).1 }
        occasion.now peer timestamp with
    | mk tracked fresh =>
      cases hr' : Engine.acceptTimestamp { engine' with store :=
          (engine'.store.connectionOrInsert occasion.now ⟨peer, id, .receiver⟩).1 }
          occasion.now peer timestamp with
      | mk tracked' fresh' =>
        rw [hr, hr'] at htracked hfresh
        rw [hr] at hsame
        dsimp only at htracked hfresh hsame
        rw [hfresh]
        cases fresh with
        | false => exact htracked.rejectSyn occasion id
        | true =>
          have hreset := htracked.resetTimestamps occasion.now timestamp
          have hkept : (tracked.resetTimestamps occasion.now peer timestamp).store.connections =
              (engine.store.connectionOrInsert occasion.now ⟨peer, id, .receiver⟩).1.connections :=
            (connections_withPeer _ _ _ _).trans hsame
          have hanswered := hreset.transmit occasion
            ({ connection with status := .synAckSent }.touch occasion.now) hpeer
            ((hrevision .synAckSent).congr hkept)
            (encodeControl .synSuccess connection.key.messageId)
          exact hanswered.deliver rfl

lemma Twins.receiveSynSuccess (id : UInt32) :
    Alike peer σ start start' (engine.receiveSynSuccess occasion peer id)
      (engine'.receiveSynSuccess occasion peer id) := by
  unfold Engine.receiveSynSuccess
  rw [h.connection?_eq rfl]
  cases hconnection : engine.store.connection? ⟨peer, id, .sender⟩ with
  | none => exact h.silent
  | some connection =>
    have hw := h.proper.filed
    have hown := connection?_key hw hconnection
    have hstatus : (relabelConnection σ connection).status = connection.status := rfl
    simp only [Option.map_some, hstatus]
    split
    · refine h.transmit occasion ({ connection with status := .ackSent }.touch occasion.now)
        (congrArg ConnectionKey.peer hown) ?_ _
      exact isRevision_of_connection? hw hconnection rfl rfl rfl (Or.inr trivial)
    · exact h.silent

lemma Twins.receiveSynFailure (id : UInt32) :
    Alike peer σ start start' (engine.receiveSynFailure occasion peer id)
      (engine'.receiveSynFailure occasion peer id) := by
  unfold Engine.receiveSynFailure
  rw [h.connection?_eq rfl]
  cases hconnection : engine.store.connection? ⟨peer, id, .sender⟩ with
  | none => exact h.silent
  | some connection =>
    have hw := h.proper.filed
    have hpeer := congrArg ConnectionKey.peer (connection?_key hw hconnection)
    have hstatus : (relabelConnection σ connection).status = connection.status := rfl
    have hlast : (relabelConnection σ connection).lastSent = connection.lastSent := rfl
    have hbound : (relabelConnection σ connection).registerFailure.2 =
        connection.registerFailure.2 := rfl
    have hfailed := h.putConnection connection.registerFailure.1 hpeer
      (isRevision_of_connection? hw hconnection rfl rfl rfl (Or.inl rfl))
    have htouched := h.putConnection (connection.registerFailure.1.touch occasion.now) hpeer
      (isRevision_of_connection? hw hconnection rfl rfl rfl (Or.inl rfl))
    simp only [Option.map_some, hstatus, hlast]
    split
    · simp only [hbound]
      split
      · exact htouched.resendSyn occasion (connection.registerFailure.1.touch occasion.now) hpeer
          (.again _) _
      · exact (hfailed.retire _ hpeer occasion.now).silent
    · exact h.silent

lemma Twins.receiveSynAckSuccess (id : UInt32) :
    Alike peer σ start start' (engine.receiveSynAckSuccess occasion peer id)
      (engine'.receiveSynAckSuccess occasion peer id) := by
  unfold Engine.receiveSynAckSuccess
  rw [h.connection?_eq rfl]
  cases hconnection : engine.store.connection? ⟨peer, id, .receiver⟩ with
  | none => exact .of_sent h
  | some connection =>
    have hw := h.proper.filed
    have hpeer := congrArg ConnectionKey.peer (connection?_key hw hconnection)
    have hstatus : (relabelConnection σ connection).status = connection.status := rfl
    have hclosed := h.putConnection
      { connection with status := .closed, lastSent := some (encodeControl .ack id) } hpeer
      (isRevision_of_connection? hw hconnection rfl rfl rfl (Or.inr trivial))
    simp only [Option.map_some, hstatus]
    split
    · exact .of_sent (hclosed.retire _ hpeer occasion.now)
    · exact h.silent

lemma Twins.receiveAck (id : UInt32) :
    Twins peer σ start start' (engine.receiveAck occasion peer id)
      (engine'.receiveAck occasion peer id) := by
  unfold Engine.receiveAck
  rw [h.connection?_eq rfl]
  cases hconnection : engine.store.connection? ⟨peer, id, .sender⟩ with
  | none => exact h
  | some connection =>
    have hw := h.proper.filed
    have hpeer := congrArg ConnectionKey.peer (connection?_key hw hconnection)
    have hstatus : (relabelConnection σ connection).status = connection.status := rfl
    have hclosed := h.putConnection { connection with status := .closed } hpeer
      (isRevision_of_connection? hw hconnection rfl rfl rfl (Or.inr trivial))
    simp only [Option.map_some, hstatus]
    split
    · exact hclosed.retire _ hpeer occasion.now
    · exact h

theorem Twins.receive (datagram : Bytes) :
    Alike peer σ start start' (engine.receive occasion peer datagram)
      (engine'.receive occasion peer datagram) := by
  have htouched := h.touchPeer occasion.now
  unfold Engine.receive
  split
  · rename_i frame hd
    unfold Engine.receiveFrame
    split
    · exact htouched.receivePlain occasion _ _
    · exact htouched.receiveSyn occasion _ _ _
    · exact htouched.receiveSynSuccess occasion _
    · exact htouched.receiveSynFailure occasion _
    · exact htouched.receiveSynAckSuccess occasion _
    · exact (htouched.receiveAck occasion _).silent
    · exact htouched.silent
  · split
    · exact h.rejectSyn occasion _
    · exact h.silent
  · exact h.silent

end Handlers

/-- Numbers from `start` on are moved up. -/
def shifted (start count serial : Nat) : Nat :=
  if serial < start then serial else serial + count

section Starting

variable {peer : Address} {engine engine' : Engine}

lemma shifted_injective (start count : Nat) : Function.Injective (shifted start count) := by
  intro a b h
  unfold shifted at h
  split_ifs at h <;> omega

lemma shifted_of_lt {start serial : Nat} (count : Nat) (h : serial < start) :
    shifted start count serial = serial :=
  if_pos h

lemma shifted_of_le {start serial : Nat} (count : Nat) (h : start ≤ serial) :
    shifted start count serial = serial + count :=
  if_neg (Nat.not_lt.2 h)

lemma serial_lt_of_filed {store : Store} (hp : IsProper store) {key : RecordKey} {record : Record}
    (h : filed? store key = some record) : record.serial < store.nextSerial :=
  hp.serials.used key record.serial (filedSerial?_eq_some h)

/-- Engines with the same of a peer, of which one has opened more records. -/
lemma twins_of_same (hp : IsProper engine.store) (hp' : IsProper engine'.store)
    (hgrown : engine.store.nextSerial ≤ engine'.store.nextSerial)
    (hconfig : engine'.store.config = engine.store.config)
    (hfiled : ∀ key : RecordKey, key.address = peer →
      filed? engine'.store key = filed? engine.store key)
    (hpending : ∀ (serial : Nat) (entry : PendingEntry), entry.record.key.address = peer →
      (engine'.store.pending.entries[serial]? = some entry ↔
        engine.store.pending.entries[serial]? = some entry)) :
    Twins peer (shifted engine.store.nextSerial
      (engine'.store.nextSerial - engine.store.nextSerial)) engine engine' engine engine' where
  injective := shifted_injective _ _
  proper := hp
  proper' := hp'
  others := .refl peer engine
  others' := .refl peer engine'
  config := hconfig
  nextSerial := by
    rw [shifted_of_le _ (Nat.le_refl _)]
    omega
  succ serial hserial := by
    rw [shifted_of_le _ hserial, shifted_of_le _ (by omega)]
    omega
  filed key hkey := by
    rw [hfiled key hkey]
    cases hrecord : filed? engine.store key with
    | none => rfl
    | some record =>
      rw [Option.map_some, relabel_eq_self]
      exact shifted_of_lt _ (serial_lt_of_filed hp hrecord)
  pending serial entry hentry := by
    -- nothing that is pending at the start gets another number
    have hkept : ∀ {old : Nat} {found : PendingEntry} (count : Nat),
        engine.store.pending.entries[old]? = some found →
        shifted engine.store.nextSerial count old = old ∧
          relabelEntry (shifted engine.store.nextSerial count) found = found := by
      intro old found count hfound
      obtain ⟨hused, hown⟩ := hp.serials.pooled old found hfound
      refine ⟨shifted_of_lt _ hused, relabelEntry_eq_self _ ?_⟩
      rw [hown]
      exact shifted_of_lt _ hused
    rw [hpending serial entry hentry]
    constructor
    · intro hthere
      exact ⟨serial, entry, (hkept _ hthere).1, (hkept _ hthere).2, hthere⟩
    · rintro ⟨old, found, rfl, rfl, hthere⟩
      rw [(hkept _ hthere).1, (hkept _ hthere).2]
      exact hthere

end Starting

/-- Deals with two datagrams, each with where it comes from, one after the other. -/
def receiveBoth (engine : Engine) (occasion : Occasion) (first second : Address × Bytes) :
    Engine × List Effect :=
  let (engine, effects) := engine.receive occasion first.1 first.2
  let (engine, more) := engine.receive occasion second.1 second.2
  (engine, effects ++ more)

/-- The second block of numbers from `start` on comes before the first. -/
def exchanged (start first second serial : Nat) : Nat :=
  if serial < start then serial
  else if serial < start + first then serial + second
  else if serial < start + first + second then serial - first
  else serial

section Numbers

variable {start serial : Nat} (first second : Nat)

lemma exchanged_exchanged (start serial : Nat) :
    exchanged start second first (exchanged start first second serial) = serial := by
  unfold exchanged
  split_ifs <;> omega

lemma exchanged_of_lt (h : serial < start) : exchanged start first second serial = serial :=
  if_pos h

lemma exchanged_of_first (h : serial < start + first) :
    exchanged start first second serial = shifted start second serial := by
  unfold exchanged shifted
  split_ifs <;> omega

lemma exchanged_of_second (h : serial < start + second) :
    exchanged start first second (shifted start first serial) = serial := by
  unfold exchanged shifted
  split_ifs <;> omega

/-- Two blocks of numbers change places. -/
def exchange (start first second : Nat) : Nat ≃ Nat where
  toFun := exchanged start first second
  invFun := exchanged start second first
  left_inv := exchanged_exchanged first second start
  right_inv := exchanged_exchanged second first start

end Numbers

/-- Two engines have the same, but for the serial numbers of their records. -/
structure SameUpTo (σ : Nat ≃ Nat) (engine other : Engine) : Prop where
  filed : ∀ key, filed? other.store key = (filed? engine.store key).map (relabel σ)
  pending : ∀ serial : Nat, other.store.pending.entries[σ serial]? =
    (engine.store.pending.entries[serial]?).map (relabelEntry σ)
  nextSerial : other.store.nextSerial = engine.store.nextSerial
  config : other.store.config = engine.store.config
  messageIds : other.messageIds = engine.messageIds

/-- One side of a diamond: a datagram from a peer leads to one engine, and to another one after a
datagram from somebody else. -/
structure Side (peer other : Address) (engine mine theirs both : Engine) : Prop where
  proper : IsProper engine.store
  left : LeavesOthers other engine theirs
  grown : engine.store.nextSerial ≤ theirs.store.nextSerial
  twins : Twins peer (shifted engine.store.nextSerial
    (theirs.store.nextSerial - engine.store.nextSerial)) engine theirs mine both

section Diamonds

variable {one two : Address} {engine first second last last' : Engine}

lemma alike_self (hp : IsProper engine.store) (occasion : Occasion) (peer : Address)
    (datagram : Bytes) : Alike peer (shifted engine.store.nextSerial 0) engine engine
      (engine.receive occasion peer datagram) (engine.receive occasion peer datagram) := by
  have hself := @twins_of_same peer engine engine hp hp (Nat.le_refl _) rfl (fun _ _ => rfl)
    fun _ _ _ => Iff.rfl
  rw [Nat.sub_self] at hself
  exact hself.receive occasion datagram

lemma alike_after (hp : IsProper engine.store) (hne : one ≠ two) (occasion : Occasion)
    (datagram reply : Bytes) :
    Alike one (shifted engine.store.nextSerial
        ((engine.receive occasion two reply).1.store.nextSerial - engine.store.nextSerial))
      engine (engine.receive occasion two reply).1 (engine.receive occasion one datagram)
      ((engine.receive occasion two reply).1.receive occasion one datagram) := by
  have hreply := (alike_self hp occasion two reply).twins
  have hother : ∀ {address : Address}, address = one → address ≠ two := fun h => h ▸ hne
  refine Twins.receive (twins_of_same hp hreply.proper ?_ hreply.others.config
    (fun key hkey => hreply.others.filed key (hother hkey))
    fun serial entry hentry => hreply.others.pending serial entry (hother hentry)) occasion datagram
  exact (edits_receive occasion hp two reply).nextSerial_le

/-- What is pending under a number after both datagrams is pending, under the number that belongs to
it, if they come the other way round. -/
lemma Side.pending (h : Side one two engine first second last')
    (h' : Side two one engine second first last) (hne : one ≠ two) {serial : Nat}
    {entry : PendingEntry} (hentry : last.store.pending.entries[serial]? = some entry) :
    last'.store.pending.entries[exchanged engine.store.nextSerial
        (first.store.nextSerial - engine.store.nextSerial)
        (second.store.nextSerial - engine.store.nextSerial) serial]? =
      some (relabelEntry (exchanged engine.store.nextSerial
        (first.store.nextSerial - engine.store.nextSerial)
        (second.store.nextSerial - engine.store.nextSerial)) entry) := by
  have hgrown := h.grown
  have hgrown' := h'.grown
  by_cases htwo : entry.record.key.address = two
  · obtain ⟨old, found, rfl, rfl, hfound⟩ := (h'.twins.pending serial entry htwo).1 hentry
    obtain ⟨hused, hown⟩ := h'.twins.proper.serials.pooled old found hfound
    have hback := @exchanged_of_second engine.store.nextSerial old
      (first.store.nextSerial - engine.store.nextSerial)
      (second.store.nextSerial - engine.store.nextSerial) (by omega)
    rw [hback, relabelEntry_relabelEntry, relabelEntry_eq_self]
    · rw [record_relabelEntry, key_relabel] at htwo
      exact (h.twins.others'.pending old found (htwo ▸ hne.symm)).2 hfound
    · rw [hown]
      exact hback
  · have hfirst := (h'.twins.others'.pending serial entry htwo).1 hentry
    by_cases hone : entry.record.key.address = one
    · obtain ⟨hused, hown⟩ := h.twins.proper.serials.pooled serial entry hfirst
      have hmoved := @exchanged_of_first engine.store.nextSerial serial
        (first.store.nextSerial - engine.store.nextSerial)
        (second.store.nextSerial - engine.store.nextSerial) (by omega)
      rw [hmoved, relabelEntry_congr]
      · refine (h.twins.pending _ _ ?_).2 ⟨serial, entry, rfl, rfl, hfirst⟩
        rw [record_relabelEntry, key_relabel, hone]
      · rw [hown]
        exact hmoved
    · have hearlier := (h.twins.others.pending serial entry hone).1 hfirst
      obtain ⟨hused, hown⟩ := h.proper.serials.pooled serial entry hearlier
      have hkept := @exchanged_of_lt engine.store.nextSerial serial
        (first.store.nextSerial - engine.store.nextSerial)
        (second.store.nextSerial - engine.store.nextSerial) hused
      rw [hkept, relabelEntry_eq_self]
      · exact (h.twins.others'.pending serial entry hone).2
          ((h.left.pending serial entry htwo).2 hearlier)
      · rw [hown]
        exact hkept

lemma Side.filed (h : Side one two engine first second last')
    (h' : Side two one engine second first last) (hne : one ≠ two) (key : RecordKey) :
    filed? last'.store key = (filed? last.store key).map
      (relabel (exchanged engine.store.nextSerial
        (first.store.nextSerial - engine.store.nextSerial)
        (second.store.nextSerial - engine.store.nextSerial))) := by
  have hgrown := h.grown
  have hgrown' := h'.grown
  by_cases htwo : key.address = two
  · rw [h'.twins.filed key htwo, h.twins.others'.filed key (htwo ▸ hne.symm)]
    cases hrecord : filed? second.store key with
    | none => rfl
    | some record =>
      have hused := serial_lt_of_filed h'.twins.proper hrecord
      rw [Option.map_some, Option.map_some, relabel_relabel, relabel_eq_self]
      exact exchanged_of_second _ _ (by omega)
  · rw [h'.twins.others'.filed key htwo]
    by_cases hone : key.address = one
    · rw [h.twins.filed key hone]
      cases hrecord : filed? first.store key with
      | none => rfl
      | some record =>
        have hused := serial_lt_of_filed h.twins.proper hrecord
        rw [Option.map_some, Option.map_some, relabel_congr]
        exact (exchanged_of_first _ _ (by omega)).symm
    · rw [h.twins.others'.filed key hone, h.left.filed key htwo, h.twins.others.filed key hone]
      cases hrecord : filed? engine.store key with
      | none => rfl
      | some record =>
        rw [Option.map_some, relabel_eq_self]
        exact exchanged_of_lt _ _ (serial_lt_of_filed h.proper hrecord)

lemma Side.sameUpTo (h : Side one two engine first second last')
    (h' : Side two one engine second first last) (hne : one ≠ two) :
    SameUpTo (exchange engine.store.nextSerial
      (first.store.nextSerial - engine.store.nextSerial)
      (second.store.nextSerial - engine.store.nextSerial)) last last' where
  filed := h.filed h' hne
  pending serial := by
    cases hentry : last.store.pending.entries[serial]? with
    | some entry => exact h.pending h' hne hentry
    | none =>
      -- what there is on the other side would come back
      cases hother : last'.store.pending.entries[exchange engine.store.nextSerial
          (first.store.nextSerial - engine.store.nextSerial)
          (second.store.nextSerial - engine.store.nextSerial) serial]? with
      | none => rfl
      | some entry =>
        have hback := h'.pending h hne.symm hother
        have hserial := exchanged_exchanged (first.store.nextSerial - engine.store.nextSerial)
          (second.store.nextSerial - engine.store.nextSerial) engine.store.nextSerial serial
        rw [exchange, Equiv.coe_fn_mk, hserial, hentry] at hback
        cases hback
  nextSerial := by
    have hgrown := h.grown
    have hgrown' := h'.grown
    rw [h.twins.nextSerial, h'.twins.nextSerial, shifted_of_le _ hgrown', shifted_of_le _ hgrown]
    omega
  config := by rw [h.twins.config, h'.twins.config, h.left.config, h'.left.config]
  messageIds := by
    rw [h.twins.others'.messageIds, h'.twins.others'.messageIds, h.left.messageIds,
      h'.left.messageIds]

lemma filter_effects_comm {effects more : List Effect}
    (hone : ∀ effect ∈ effects, effectPeer effect = one)
    (htwo : ∀ effect ∈ more, effectPeer effect = two) (hne : one ≠ two) (peer : Address) :
    (effects ++ more).filter (fun effect => effectPeer effect = peer) =
      (more ++ effects).filter fun effect => effectPeer effect = peer := by
  have hnone : ∀ {own : Address} {others : List Effect},
      (∀ effect ∈ others, effectPeer effect = own) → own ≠ peer →
      others.filter (fun effect => effectPeer effect = peer) = [] := by
    intro own others howned hother
    apply List.filter_eq_nil_iff.2
    intro effect heffect
    rw [howned effect heffect]
    simpa using hother
  rw [List.filter_append, List.filter_append]
  by_cases hpeer : one = peer
  · rw [hnone htwo (hpeer ▸ hne.symm), List.append_nil, List.nil_append]
  · rw [hnone hone hpeer, List.append_nil, List.nil_append]

end Diamonds

/-- An engine that has come about by calls, datagrams and sweeps. -/
def IsReached (engine : Engine) : Prop :=
  ∃ config firstId steps, engine = ((History.starting config firstId).run steps).engine

lemma isProper_of_isReached {engine : Engine} (h : IsReached engine) : IsProper engine.store := by
  obtain ⟨config, firstId, steps, rfl⟩ := h
  exact isProper_run config firstId steps

/-- Peers are isolated from each other. Whatever an engine was through: a datagram from one peer
only touches, and only has effects on, what belongs to this peer, and takes no message id. Two
datagrams from different peers that are dealt with at the same time may come in either order: but
for the serial numbers that tell records apart there is the same filed and pending in the end, and
every peer has been sent the same, and heard with the same, in the same order. -/
theorem peers_isolated {engine : Engine} (hreached : IsReached engine) (occasion : Occasion)
    {one two : Address} (hne : one ≠ two) (datagram reply : Bytes) :
    (LeavesOthers one engine (engine.receive occasion one datagram).1 ∧
        ∀ effect ∈ (engine.receive occasion one datagram).2, effectPeer effect = one) ∧
      ∃ σ : Nat ≃ Nat, (∀ serial < engine.store.nextSerial, σ serial = serial) ∧
        SameUpTo σ (receiveBoth engine occasion (one, datagram) (two, reply)).1
          (receiveBoth engine occasion (two, reply) (one, datagram)).1 ∧
        ∀ peer, (receiveBoth engine occasion (one, datagram) (two, reply)).2.filter
            (fun effect => effectPeer effect = peer) =
          (receiveBoth engine occasion (two, reply) (one, datagram)).2.filter
            fun effect => effectPeer effect = peer := by
  have hp := isProper_of_isReached hreached
  have hone := alike_self hp occasion one datagram
  have htwo := alike_self hp occasion two reply
  have hlater := alike_after hp hne occasion datagram reply
  have hlater' := alike_after hp hne.symm occasion reply datagram
  have hside : Side one two engine (engine.receive occasion one datagram).1
      (engine.receive occasion two reply).1
      (receiveBoth engine occasion (two, reply) (one, datagram)).1 :=
    ⟨hp, htwo.twins.others, (edits_receive occasion hp two reply).nextSerial_le, hlater.twins⟩
  have hside' : Side two one engine (engine.receive occasion two reply).1
      (engine.receive occasion one datagram).1
      (receiveBoth engine occasion (one, datagram) (two, reply)).1 :=
    ⟨hp, hone.twins.others, (edits_receive occasion hp one datagram).nextSerial_le, hlater'.twins⟩
  refine ⟨⟨hone.twins.others, hone.own⟩, _, ?_, hside.sameUpTo hside' hne, ?_⟩
  · exact fun serial hserial => exchanged_of_lt _ _ hserial
  · intro peer
    have hcomm := filter_effects_comm hone.own htwo.own hne peer
    unfold receiveBoth
    dsimp only
    rw [hlater.effects, hlater'.effects]
    exact hcomm

/-- Two first frames from peers that were unknown so far. Whichever comes second has its records
numbered after those of the other. -/
theorem peers_isolated_opening :
    let one : Address := .loopback 9002
    let two : Address := .loopback 9003
    let engine := Engine.starting { selfAddress := .loopback 9001 } 1
    let occasion : Occasion := ⟨0, fun _ _ => true⟩
    let syn : Bytes := [1, 1, 0, 0, 0, 0, 0, 0, 0, 0, 0]
    let serialOf (address : Address) (outcome : Engine × List Effect) : Option Nat :=
      (filed? outcome.1.store (.peer address)).map Record.serial
    IsReached engine ∧ one ≠ two ∧
      serialOf one (receiveBoth engine occasion (one, syn) (two, syn)) = some 0 ∧
      serialOf one (receiveBoth engine occasion (two, syn) (one, syn)) = some 2 ∧
      (receiveBoth engine occasion (one, syn) (two, syn)).2.length = 4 ∧
      LeavesOthers one engine (engine.receive occasion one syn).1 ∧
      ∃ σ : Nat ≃ Nat, SameUpTo σ (receiveBoth engine occasion (one, syn) (two, syn)).1
        (receiveBoth engine occasion (two, syn) (one, syn)).1 := by
  intro one two engine occasion syn serialOf
  have hreached : IsReached engine := ⟨_, _, [], rfl⟩
  have hne : one ≠ two := by decide
  obtain ⟨⟨hothers, -⟩, σ, -, hsame, -⟩ := peers_isolated hreached occasion hne syn syn
  exact ⟨hreached, hne, by decide +kernel, by decide +kernel, by decide +kernel, hothers, σ, hsame⟩

end ReliableDatagrams.Proofs
