import ReliableDatagrams.Proofs.HandlerEdits
import ReliableDatagrams.Proofs.SweepVisits

/-!
# What becomes of records in a sweep

A visit of a sweep only depends on the record that it comes to, but for the number that a frame to
its peer takes. It takes the record to the pool, repeats a first frame, or leaves everything as it
is. `VisitsPeers` and `VisitsAll` say what some visits come to together, if the socket accepts
everything and first frames can be written again.
-/

namespace ReliableDatagrams.Proofs

def SweepRemoves (now : Nat) : Record → Prop
  | .peer record => sweptPeer? now record = none
  | .connection record => record.timeout ≤ record.idleTime now ∧ ¬ IsOverdue now record

/-- Of the records that are filed under some keys, those that a sweep removes have gone to the pool,
each of them once. Nothing else has changed there. -/
structure Pools (store : Store) (now : Nat) (visited : RecordKey → Prop) (later : Store) :
    Prop where
  pooled : ∀ key, visited key → ∀ record, filed? store key = some record → SweepRemoves now record →
    later.pending.entries[record.serial]? =
      some ⟨(record.resetOrExpire now).1.markBeingDeleted, now, 1⟩
  others : ∀ serial : Nat, (∀ key, visited key → ∀ record, filed? store key = some record →
      SweepRemoves now record → record.serial ≠ serial) →
    later.pending.entries[serial]? = store.pending.entries[serial]?

section Pool

variable {store between later : Store} {now : Nat} {visited more : RecordKey → Prop}
variable {key : RecordKey} {record : Record}

lemma pools_of_none (hnone : ∀ key, visited key → ∀ record, filed? store key = some record →
    ¬ SweepRemoves now record) (hsame : later.pending = store.pending) :
    Pools store now visited later := by
  refine ⟨fun key hkey record hfiled hremoved => ?_, fun serial _ => by rw [hsame]⟩
  exact absurd hremoved (hnone key hkey record hfiled)

/-- The visits that come later do not see the records that are gone. -/
lemma Pools.trans (h : Pools store now visited between) (hs : OwnSerials between)
    (hmore : Pools between now more later)
    (hsame : ∀ key, more key → filed? between key = filed? store key) :
    Pools store now (fun key => visited key ∨ more key) later := by
  constructor
  · intro key hkey record hfiled hremoved
    by_cases hlate : more key
    · exact hmore.pooled key hlate record ((hsame key hlate).trans hfiled) hremoved
    · have hearlier := h.pooled key (hkey.resolve_right hlate) record hfiled hremoved
      rw [hmore.others, hearlier]
      rintro other - found hfound - hserial
      have hnone := hs.apart other _ (filedSerial?_eq_some hfound)
      rw [hserial, hearlier] at hnone
      cases hnone
  · intro serial hother
    rw [hmore.others, h.others]
    · exact fun key hkey => hother key (Or.inl hkey)
    · intro key hkey record hfiled
      exact hother key (Or.inr hkey) record ((hsame key hkey).symm.trans hfiled)

lemma Pools.congr (h : Pools store now visited later)
    (hkeys : ∀ key record, filed? store key = some record → (visited key ↔ more key)) :
    Pools store now more later where
  pooled key hkey record hfiled :=
    h.pooled key ((hkeys key record hfiled).2 hkey) record hfiled
  others serial hother := h.others serial fun key hkey record hfiled =>
    hother key ((hkeys key record hfiled).1 hkey) record hfiled

/-- A record that a sweep removes: it is changed in place, and deleted. -/
lemma pools_of_removed (hs : OwnSerials store) (hfiled : filed? store key = some record)
    (hremoved : SweepRemoves now record) (hput : Refiles store (record.resetOrExpire now).1 between)
    (hkey : (record.resetOrExpire now).1.key = key)
    (hserial : (record.resetOrExpire now).1.serial = record.serial) :
    Pools store now (fun other => other = key)
      (between.markForDeletion now (record.resetOrExpire now).1.handle) := by
  have hremoves := @removes_markForDeletion between (record.resetOrExpire now).1 now
    (by rw [hput.filed, if_pos rfl])
  have hentries : ∀ serial : Nat, (between.markForDeletion now
      (record.resetOrExpire now).1.handle).pending.entries[serial]? =
        if record.serial = serial then
          some ⟨(record.resetOrExpire now).1.markBeingDeleted, now, 1⟩
        else store.pending.entries[serial]? := by
    intro serial
    have hown : filedSerial? store key =
        some (record.resetOrExpire now).1.markBeingDeleted.serial := by
      rw [filedSerial?_eq_some hfiled, serial_markBeingDeleted, hserial]
    rw [hremoves.pending, hput.pending, entries_add (hs.apart _ _ hown), serial_markBeingDeleted,
      hserial]
  constructor
  · rintro other rfl found hfound -
    cases hfiled.symm.trans hfound
    rw [hentries, if_pos rfl]
  · intro serial hother
    rw [hentries, if_neg (hother key rfl record hfiled hremoved)]

end Pool

/-- Visits to some peers, as the pool and new records see them. -/
structure VisitsPeers (engine : Engine) (now : Nat) (addresses : List Address) (after : Engine) :
    Prop where
  proper : IsProper after.store
  nextSerial : after.store.nextSerial = engine.store.nextSerial
  messageIds : after.messageIds = engine.messageIds
  pool : Pools engine.store now (fun key => ∃ address ∈ addresses, key = .peer address) after.store

section Peers

variable {engine : Engine} (occasion : Occasion) {addresses : List Address}

lemma exists_peer_of_filed {store : Store} {address : Address} {record : Record}
    (h : filed? store (.peer address) = some record) :
    ∃ peer, store.peers[address]? = some peer ∧ record = .peer peer := by
  obtain ⟨peer, hpeer, heq⟩ := Option.map_eq_some_iff.1 h
  exact ⟨peer, hpeer, heq.symm⟩

lemma sweepPeer_of_removed (hw : WellFiled engine.store) {address : Address} {peer : PeerRecord}
    (hpeer : engine.store.peers[address]? = some peer)
    (hremoved : sweptPeer? occasion.now peer = none) :
    (engine.sweepPeer occasion address).1.store =
      (engine.store.putPeer (peer.resetOrExpire occasion.now).1).markForDeletion occasion.now
        (Record.peer (peer.resetOrExpire occasion.now).1).handle := by
  have hfound : engine.store.peer? address = some peer := by
    simp [Store.peer?, hpeer, Option.filter, (hw.peer address peer hpeer).2]
  unfold sweptPeer? at hremoved
  unfold Engine.sweepPeer
  rw [hfound]
  split at hremoved
  · cases hremoved
  · rename_i hidle
    split at hremoved
    · rename_i hmost
      have hexpire : (peer.resetOrExpire occasion.now).2 = .expire := if_pos hmost
      dsimp only
      rw [if_neg hidle, if_pos hexpire]
    · cases hremoved

lemma sweepPeer_of_kept (address : Address)
    (hkept : ∀ peer, engine.store.peers[address]? = some peer →
      sweptPeer? occasion.now peer ≠ none) :
    (engine.sweepPeer occasion address).1.store.pending = engine.store.pending ∧
      (engine.sweepPeer occasion address).1.store.nextSerial = engine.store.nextSerial := by
  unfold Engine.sweepPeer
  split
  · exact ⟨rfl, rfl⟩
  · rename_i peer hfound
    have hswept := hkept peer (Option.filter_eq_some_iff.1 hfound).1
    unfold sweptPeer? at hswept
    split
    · exact ⟨rfl, rfl⟩
    · rename_i hidle
      rw [if_neg hidle] at hswept
      have hreset : (peer.resetOrExpire occasion.now).2 ≠ .expire := by
        intro hexpire
        simp only [PeerRecord.resetOrExpire, ite_eq_left_iff, reduceCtorEq, imp_false,
          Classical.not_not] at hexpire
        exact hswept (if_pos hexpire)
      dsimp only
      rw [if_neg hreset]
      exact ⟨rfl, rfl⟩

lemma pools_sweepPeer (hp : IsProper engine.store) (address : Address) :
    Pools engine.store occasion.now (fun key => key = .peer address)
        (engine.sweepPeer occasion address).1.store ∧
      (engine.sweepPeer occasion address).1.store.nextSerial = engine.store.nextSerial := by
  by_cases hremoved : ∃ peer, engine.store.peers[address]? = some peer ∧
      sweptPeer? occasion.now peer = none
  · obtain ⟨peer, hpeer, hnone⟩ := hremoved
    have hown : (Record.peer (peer.resetOrExpire occasion.now).1).key = .peer address :=
      congrArg RecordKey.peer (hp.filed.peer address peer hpeer).1
    have hfiled : filed? engine.store (.peer address) = some (.peer peer) := by
      rw [filed?, hpeer, Option.map_some]
    have hput := refiles_putPeer engine.store (peer.resetOrExpire occasion.now).1
    rw [sweepPeer_of_removed occasion hp.filed hpeer hnone]
    constructor
    · exact pools_of_removed hp.serials hfiled hnone hput hown rfl
    · refine (removes_markForDeletion occasion.now ?_).nextSerial
      rw [hput.filed, if_pos rfl]
  · have hkept : ∀ peer, engine.store.peers[address]? = some peer →
        sweptPeer? occasion.now peer ≠ none := fun peer hpeer hnone => hremoved ⟨peer, hpeer, hnone⟩
    obtain ⟨hpending, hnext⟩ := sweepPeer_of_kept occasion address hkept
    refine ⟨pools_of_none ?_ hpending, hnext⟩
    rintro key rfl record hrecord
    obtain ⟨peer, hpeer, rfl⟩ := exists_peer_of_filed hrecord
    exact hkept peer hpeer

lemma visitsPeers (hp : IsProper engine.store) (hnodup : addresses.Nodup) :
    VisitsPeers engine occasion.now addresses
      (engine.visitAll (Engine.sweepPeer occasion) addresses).1 := by
  induction addresses using List.reverseRecOn with
  | nil =>
    refine ⟨hp, rfl, rfl, pools_of_none ?_ rfl⟩
    rintro key ⟨address, hmem, -⟩
    cases hmem
  | append_singleton addresses address ih =>
    rw [← List.concat_eq_append, List.nodup_concat] at hnodup
    obtain ⟨hout, hrest⟩ := hnodup
    obtain ⟨hproper, hnext, hids, hpool⟩ := ih hrest
    obtain ⟨-, hpeers, -⟩ := visitPeers_swept occasion hp.filed hrest
    rw [visitAll_concat]
    generalize (engine.visitAll (Engine.sweepPeer occasion) addresses).1 = between
      at hproper hnext hids hpool hpeers ⊢
    obtain ⟨hone, hsame⟩ := pools_sweepPeer occasion hproper address
    have hbegun : Edits .still between.store between.store := .refl
    refine ⟨(hbegun.sweepPeer occasion hproper address).isProper hproper, hsame.trans hnext,
      (messageIds_sweepPeer occasion address).trans hids, ?_⟩
    refine (hpool.trans hproper.serials hone ?_).congr fun key _ _ => ?_
    · rintro key rfl
      rw [filed?, hpeers, if_neg hout, filed?]
    · simp only [List.mem_append, List.mem_singleton, or_and_right, exists_or, exists_eq_left]

end Peers

/-- A frame can be written again with a number, and is not too large then. -/
def IsRestampable (max : Nat) (number : UInt16) (syn : Bytes) : Prop :=
  ∃ frame, Restamped number syn frame ∧ frame.length ≤ max

/-- What a visit makes of what is filed for a handshake, and the frame that is repeated if
one is. -/
inductive VisitedOnce (now : Nat) (frame : Bytes) :
    Option ConnectionRecord → Option ConnectionRecord → Prop where
  | absent : VisitedOnce now frame none none
  | awake {record : ConnectionRecord} (early : record.idleTime now < record.timeout) :
      VisitedOnce now frame (some record) (some record)
  | again {record : ConnectionRecord} {number : UInt16} {syn : Bytes}
      (overdue : IsOverdue now record) (buffered : record.lastSent = some syn)
      (written : Restamped number syn frame) :
      VisitedOnce now frame (some record) (some (repeated record now frame))
  | givenUp {record : ConnectionRecord} (idle : record.timeout ≤ record.idleTime now)
      (last : ¬ IsOverdue now record) : VisitedOnce now frame (some record) none

/-- The visit to a handshake. -/
structure Visits (engine : Engine) (now : Nat) (key : ConnectionKey) (frame : Bytes)
    (after : Engine) (effects : List Effect) : Prop where
  handshake : VisitedOnce now frame engine.store.connections[key]? after.store.connections[key]?
  handed : effects = if isOverdueAt engine now key then [.sent key.peer frame true] else []
  stamp : isOverdueAt engine now key = true →
    stamp? frame = some (stampOf (outgoingTimestamp engine key.peer))
  pool : Pools engine.store now (fun other => other = .connection key) after.store

section Handshakes

variable {Sent : Address → UInt32 → FieldMap → Prop} {engine : Engine} (occasion : Occasion)
variable {key : ConnectionKey} {record : ConnectionRecord} {syn frame : Bytes}

lemma stamp?_of_restamped {number : UInt16} (h : Restamped number syn frame) :
    stamp? frame = some (stampOf number) := by
  obtain ⟨decoded, -, hwritten⟩ := h
  exact stamp?_of_encode hwritten

lemma restamp_of_isRestampable (hw : WellFiled engine.store) (now : Nat) (target : Address)
    (h : IsRestampable engine.config.maxDatagramSize (outgoingTimestamp engine target) syn) :
    ∃ frame, Restamped (outgoingTimestamp engine target) syn frame ∧
      engine.restamp now target syn = ((engine.drawTimestamp now target).1, some frame) := by
  obtain ⟨frame, ⟨decoded, hdecoded, hwritten⟩, hsmall⟩ := h
  have hconfig : (engine.drawTimestamp now target).1.config = engine.config :=
    config_withPeer _ _ _ _
  refine ⟨frame, ⟨decoded, hdecoded, hwritten⟩, ?_⟩
  unfold Engine.restamp
  simp only [hdecoded, (drawTimestamp_eq hw now target).2, Engine.writeFrame, hwritten, hconfig,
    if_neg (Nat.not_lt.2 hsmall)]
  rfl

lemma putConnection_putConnection (record later : ConnectionRecord)
    (hkey : later.key = record.key) :
    (engine.putConnection record).putConnection later = engine.putConnection later := by
  simp only [Engine.putConnection, Store.putConnection, hkey, insert_insert_eq]

/-- The visit to a sender that is overdue, if the socket accepts what can be written. -/
lemma sweepConnection_repeats (hw : WellFiled engine.store)
    (haccepts : ∀ target bytes, occasion.accepts target bytes = true)
    (hfiled : engine.store.connections[key]? = some record) (h : IsOverdue occasion.now record)
    (hsyn : record.lastSent = some syn)
    (hroom : IsRestampable engine.config.maxDatagramSize (outgoingTimestamp engine key.peer) syn) :
    ∃ frame, Restamped (outgoingTimestamp engine key.peer) syn frame ∧
      engine.sweepConnection occasion key =
        ((engine.drawTimestamp occasion.now key.peer).1.putConnection
          (repeated record occasion.now frame), [.sent key.peer frame true]) := by
  obtain ⟨hkey, hkept⟩ := hw.connection _ _ hfiled
  have hput := @wellFiled_putConnection engine hw (retried record occasion.now) hkept
  have hpeer : (retried record occasion.now).key.peer = key.peer := congrArg _ hkey
  have hwaits : (retried record occasion.now).status = .synSent := h.status
  have hdrawn := @drawTimestamp_putConnection engine occasion.now key.peer
    (retried record occasion.now)
  obtain ⟨frame, hframe, hrestamp⟩ := restamp_of_isRestampable hput occasion.now key.peer hroom
  refine ⟨frame, hframe, ?_⟩
  rw [sweepConnection_of_overdue occasion hw hfiled h hsyn]
  unfold Engine.resendSyn
  rw [hpeer, hrestamp, hdrawn]
  dsimp only
  rw [if_pos hwaits]
  simp only [Engine.transmit, hpeer, haccepts, if_true]
  refine congrArg (fun after => (after, _)) ?_
  exact putConnection_putConnection _ (repeated record occasion.now frame) rfl

lemma filed?_connection {store : Store} (h : store.connections[key]? = some record) :
    filed? store (.connection key) = some (.connection record) := by
  rw [filed?, h, Option.map_some]

lemma pools_of_unremoved {later : Store} (hfiled : engine.store.connections[key]? = some record)
    {now : Nat} (hkept : ¬ SweepRemoves now (.connection record))
    (hsame : later.pending = engine.store.pending) :
    Pools engine.store now (fun other => other = .connection key) later := by
  refine pools_of_none ?_ hsame
  rintro other rfl found hfound
  cases (filed?_connection hfiled).symm.trans hfound
  exact hkept

lemma visits_of_silent {now : Nat} {after : Engine} (hnever : isOverdueAt engine now key = false)
    (hvisited : VisitedOnce now [] engine.store.connections[key]? after.store.connections[key]?)
    (hpool : Pools engine.store now (fun other => other = .connection key) after.store) :
    Visits engine now key [] after [] := by
  refine ⟨hvisited, ?_, fun hoverdue => ?_, hpool⟩
  · rw [hnever]
    rfl
  · rw [hnever] at hoverdue
    cases hoverdue

lemma visits_of_expired (hp : IsProper engine.store)
    (hfiled : engine.store.connections[key]? = some record)
    (hlast : ¬ IsOverdue occasion.now record)
    (hidle : record.timeout ≤ record.idleTime occasion.now) :
    Visits engine occasion.now key [] (engine.sweepConnection occasion key).1
      (engine.sweepConnection occasion key).2 := by
  have hkey := (hp.filed.connection _ _ hfiled).1
  obtain ⟨hown, hserial, -⟩ := resetOrExpire_identity record occasion.now
  rw [sweepConnection_of_expired occasion hp.filed hfiled hlast hidle]
  refine visits_of_silent ((isOverdueAt_of_filed hfiled).trans (decide_eq_false hlast)) ?_ ?_
  · dsimp only
    rw [connections_retire_putConnection, hown, hkey, getElem?_erase_eq, if_pos rfl, hfiled]
    exact .givenUp hidle hlast
  · have hput := refiles_putConnection engine.store (record.resetOrExpire occasion.now).1
    exact pools_of_removed hp.serials (filed?_connection hfiled) ⟨hidle, hlast⟩ hput
      (congrArg RecordKey.connection (hown.trans hkey)) hserial

/-- The visit to a handshake, if the socket accepts everything and a first frame that is overdue can
be written again. -/
lemma visits_sweepConnection (hp : IsProper engine.store)
    (hs : SendersKeep Sent engine.store.connections)
    (haccepts : ∀ target bytes, occasion.accepts target bytes = true) (key : ConnectionKey)
    (hroom : ∀ record syn, engine.store.connections[key]? = some record →
      IsOverdue occasion.now record → record.lastSent = some syn →
        IsRestampable engine.config.maxDatagramSize (outgoingTimestamp engine key.peer) syn) :
    ∃ frame, Visits engine occasion.now key frame (engine.sweepConnection occasion key).1
      (engine.sweepConnection occasion key).2 := by
  cases hfiled : engine.store.connections[key]? with
  | none =>
    have hnever : isOverdueAt engine occasion.now key = false := by
      rw [isOverdueAt, hfiled]
      rfl
    refine ⟨[], ?_⟩
    rw [sweepConnection_of_absent occasion hp.filed hfiled]
    refine visits_of_silent hnever ?_ (pools_of_none ?_ rfl)
    · rw [hfiled]
      exact .absent
    · rintro other rfl record hrecord
      rw [filed?, hfiled] at hrecord
      cases hrecord
  | some record =>
    by_cases hoverdue : IsOverdue occasion.now record
    · obtain ⟨fields, syn, hsyn, -⟩ := hoverdue.buffered hs hfiled
      have hkey := (hp.filed.connection _ _ hfiled).1
      obtain ⟨frame, hframe, hvisit⟩ := sweepConnection_repeats occasion hp.filed haccepts hfiled
        hoverdue hsyn (hroom record syn hfiled hoverdue hsyn)
      have hown : (repeated record occasion.now frame).key = key := hkey
      refine ⟨frame, ?_⟩
      rw [hvisit]
      refine ⟨?_, ?_, fun _ => stamp?_of_restamped hframe, pools_of_unremoved hfiled ?_ ?_⟩
      · dsimp only
        rw [connections_putConnection, getElem?_insert_eq, if_pos hown, hfiled]
        exact .again hoverdue hsyn hframe
      · rw [isOverdueAt_of_filed hfiled, if_pos (decide_eq_true hoverdue)]
      · exact fun hremoved => hremoved.2 hoverdue
      · have hdrawn : (engine.drawTimestamp occasion.now key.peer).1.store.pending =
            engine.store.pending := pending_withPeer _ _ _ _
        exact hdrawn
    · by_cases hidle : record.timeout ≤ record.idleTime occasion.now
      · exact ⟨[], visits_of_expired occasion hp hfiled hoverdue hidle⟩
      · refine ⟨[], ?_⟩
        rw [sweepConnection_of_awake occasion hp.filed hfiled (Nat.lt_of_not_le hidle)]
        refine visits_of_silent ((isOverdueAt_of_filed hfiled).trans (decide_eq_false hoverdue)) ?_
          (pools_of_unremoved hfiled (fun hremoved => hidle hremoved.1) rfl)
        rw [hfiled]
        exact .awake (Nat.lt_of_not_le hidle)

end Handshakes

/-- Visits to some handshakes, as their records, the socket and the pool see them. -/
structure VisitsAll (Sent : Address → UInt32 → FieldMap → Prop) (engine : Engine) (now : Nat)
    (keys : List ConnectionKey) (frames : ConnectionKey → Bytes) (after : Engine)
    (effects : List Effect) : Prop extends VisitsHandshakes Sent engine now keys after where
  proper : IsProper after.store
  messageIds : after.messageIds = engine.messageIds
  visited : ∀ key ∈ keys,
    VisitedOnce now (frames key) engine.store.connections[key]? after.store.connections[key]?
  handed : effects = (keys.filter (isOverdueAt engine now)).map fun key =>
    .sent key.peer (frames key) true
  stamps : ∀ peer, stampsTo peer effects = (List.range (repeatsTo engine now peer keys)).map
    fun i => stampOf (outgoingTimestamp engine peer + .ofNat i)
  pool : Pools engine.store now (fun key => ∃ handshake ∈ keys, key = .connection handshake)
    after.store

section AllHandshakes

variable {Sent : Address → UInt32 → FieldMap → Prop} {engine between : Engine}
variable (occasion : Occasion) {keys : List ConnectionKey} {frames : ConnectionKey → Bytes}
variable {effects : List Effect}

/-- The counter of a peer goes on by the frames that are written. -/
lemma WritesTo.outgoingTimestamp {after : Engine} {now count : Nat} {peer : Address}
    (h : WritesTo engine.store now peer count engine.store.peers[peer]? after.store.peers[peer]?) :
    Proofs.outgoingTimestamp after peer = Proofs.outgoingTimestamp engine peer + .ofNat count := by
  rcases Nat.eq_zero_or_pos count with rfl | hsome
  · rw [Proofs.outgoingTimestamp, h.unwritten rfl]
    exact (UInt16.add_zero _).symm
  · obtain ⟨serial, -, hpeer⟩ := h.written hsome
    rw [Proofs.outgoingTimestamp, hpeer, Proofs.outgoingTimestamp]
    cases engine.store.peers[peer]? <;> rfl

lemma stampsTo_sent {bytes : Bytes} {stamp : Option UInt16} (peer target : Address)
    (hstamp : stamp? bytes = some stamp) :
    stampsTo peer [.sent target bytes true] = if target = peer then [stamp] else [] := by
  split
  · rename_i hpeer
    simp [stampsTo, hpeer, hstamp]
  · rename_i hpeer
    exact stampsTo_sent_of_ne hpeer _ _

lemma VisitsAll.visit (h : VisitsAll Sent engine occasion.now keys frames between effects)
    (haccepts : ∀ target bytes, occasion.accepts target bytes = true) {key : ConnectionKey}
    (hkey : key ∉ keys)
    (hroom : ∀ record syn, engine.store.connections[key]? = some record →
      IsOverdue occasion.now record → record.lastSent = some syn →
        IsRestampable engine.config.maxDatagramSize (outgoingTimestamp engine key.peer +
          .ofNat (repeatsTo engine occasion.now key.peer keys)) syn) :
    ∃ frame, VisitsAll Sent engine occasion.now (keys ++ [key]) (Function.update frames key frame)
      (between.sweepConnection occasion key).1
      (effects ++ (between.sweepConnection occasion key).2) := by
  have hsame := h.others key hkey
  have hmax : between.config.maxDatagramSize = engine.config.maxDatagramSize :=
    congrArg Config.maxDatagramSize h.config
  have hcounter := (h.peers key.peer).outgoingTimestamp
  have hthere := @isOverdueAt_congr _ _ occasion.now _ hsame
  obtain ⟨frame, hhandshake, hhanded, hstamp, hpool⟩ := visits_sweepConnection occasion h.proper
    h.senders haccepts key fun record syn hfiled hoverdue hsyn => by
      rw [hmax, hcounter]
      exact hroom record syn (hsame.symm.trans hfiled) hoverdue hsyn
  rw [hthere] at hhanded hstamp
  rw [hcounter] at hstamp
  rw [hsame] at hhandshake
  have hframes : ∀ other ∈ keys, Function.update frames key frame other = frames other :=
    fun other hother => Function.update_of_ne (ne_of_mem_of_not_mem hother hkey) _ _
  have hbegun : Edits .still between.store between.store := .refl
  refine ⟨frame, h.toVisitsHandshakes.visit occasion hkey,
    (hbegun.sweepConnection occasion h.proper key).isProper h.proper,
    (messageIds_sweepConnection occasion key).trans h.messageIds, ?_, ?_, ?_, ?_⟩
  · intro other hother
    rcases List.mem_append.1 hother with hearlier | hlast
    · rw [hframes other hearlier, (sweepConnection_filed h.filed key).1 other
        (ne_of_mem_of_not_mem hearlier hkey).symm]
      exact h.visited other hearlier
    · obtain rfl := List.mem_singleton.1 hlast
      rw [Function.update_self]
      exact hhandshake
  · rw [List.filter_append, List.map_append, h.handed, hhanded]
    congr 1
    · refine List.map_congr_left fun other hother => ?_
      rw [hframes other (List.mem_filter.1 hother).1]
    · by_cases hoverdue : isOverdueAt engine occasion.now key = true
      · simp [hoverdue]
      · simp [hoverdue]
  · intro peer
    rw [stampsTo_append, h.stamps, repeatsTo_concat, hhanded]
    by_cases hoverdue : isOverdueAt engine occasion.now key = true
    · rw [if_pos hoverdue, stampsTo_sent _ _ (hstamp hoverdue)]
      by_cases hown : key.peer = peer
      · subst hown
        rw [if_pos rfl, if_pos ⟨rfl, hoverdue⟩, List.range_succ, List.map_append]
        rfl
      · rw [if_neg hown, if_neg fun hboth => hown hboth.1, List.append_nil]
        rfl
    · rw [if_neg hoverdue, if_neg fun hboth => hoverdue hboth.2]
      exact List.append_nil _
  · refine (h.pool.trans h.proper.serials hpool ?_).congr fun other _ _ => ?_
    · rintro other rfl
      rw [filed?, hsame, filed?]
    · simp only [List.mem_append, List.mem_singleton, or_and_right, exists_or, exists_eq_left]

end AllHandshakes

section Sweeps

variable {Sent : Address → UInt32 → FieldMap → Prop} {engine : Engine} (occasion : Occasion)
variable {addresses : List Address} {keys : List ConnectionKey}

lemma mem_keys_of_filed {κ ν : Type} {cmp : κ → κ → Ordering} [Std.TransCmp cmp]
    [Std.LawfulEqCmp cmp] {map : Std.ExtTreeMap κ ν cmp} {key : κ} {value : ν}
    (h : map[key]? = some value) : key ∈ map.keys := by
  rw [Std.ExtTreeMap.mem_keys, Std.ExtTreeMap.mem_iff_isSome_getElem?, h]
  rfl

lemma timeoutSweep_eq (hw : WellFiled engine.store) : engine.timeoutSweep occasion =
    visited engine occasion engine.store.peers.keys engine.store.connections.keys := by
  obtain ⟨-, -, hconnections, -⟩ := visitPeers_swept occasion hw
    (@Std.ExtTreeMap.nodup_keys _ _ _ engine.store.peers _)
  rw [timeoutSweep_eq_visited, hconnections]

lemma visitPeers_perm (hw : WellFiled engine.store)
    (haddresses : addresses.Perm engine.store.peers.keys) (peer : Address) :
    (engine.visitAll (Engine.sweepPeer occasion) addresses).1.store.peers[peer]? =
      sweptOf engine occasion.now peer := by
  obtain ⟨-, hpeers, -⟩ := visitPeers_swept occasion hw
    (haddresses.symm.nodup Std.ExtTreeMap.nodup_keys)
  rw [hpeers]
  split
  · rfl
  · rename_i hout
    rw [sweptOf]
    cases hpeer : engine.store.peers[peer]? with
    | none => rfl
    | some record => exact absurd (haddresses.mem_iff.2 (mem_keys_of_filed hpeer)) hout

/-- What a sweep comes to for a peer, in any order. This needs no socket that accepts anything. -/
lemma writesTo_visited (hp : IsProper engine.store)
    (hs : SendersKeep Sent engine.store.connections)
    (haddresses : addresses.Perm engine.store.peers.keys)
    (hkeys : keys.Perm engine.store.connections.keys) (peer : Address) :
    WritesTo engine.store occasion.now peer (repeatsTo engine occasion.now peer keys)
      (sweptOf engine occasion.now peer)
      (visited engine occasion addresses keys).1.store.peers[peer]? := by
  have hpeersOnce := haddresses.symm.nodup Std.ExtTreeMap.nodup_keys
  have hkeysOnce := hkeys.symm.nodup Std.ExtTreeMap.nodup_keys
  obtain ⟨hw, -, hconnections, hconfig, -⟩ := visitPeers_swept occasion hp.filed hpeersOnce
  have hnext := (visitsPeers occasion hp hpeersOnce).nextSerial
  have hswept := visitPeers_perm occasion hp.filed haddresses peer
  unfold visited
  dsimp only
  generalize (engine.visitAll (Engine.sweepPeer occasion) addresses).1 = between
    at hw hconnections hconfig hnext hswept ⊢
  have hwrites := (@visitHandshakes Sent between occasion keys hw (hconnections ▸ hs)
    hkeysOnce).peers peer
  rw [hswept, repeatsTo_congr hconnections] at hwrites
  refine ⟨hwrites.unwritten, fun hsome => ?_⟩
  obtain ⟨serial, hserial, hpeer⟩ := hwrites.written hsome
  have hstore : between.store.config = engine.store.config := hconfig
  simp only [Store.newPeer, hstore] at hpeer
  exact ⟨serial, hnext ▸ hserial, hpeer⟩

end Sweeps

end ReliableDatagrams.Proofs
