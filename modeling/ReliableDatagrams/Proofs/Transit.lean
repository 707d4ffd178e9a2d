import ReliableDatagrams.Proofs.Answers
import ReliableDatagrams.Proofs.Soundness

/-!
# Messages in transit

On a network that loses nothing a message is at any time in exactly one frame, and from that frame
one can tell what both hosts know about it. `receive_advances` says that the arrival of the frame
takes the message one step further: to its next frame, with the records, the timestamps and the
delivery that belong to it.
-/

namespace ReliableDatagrams.Proofs

/-- The frame that a message from a source to a target is in. -/
inductive Transit where
  | plain (source target : Address) (fields : FieldMap) (timestamp : UInt16)
  | syn (source target : Address) (id : UInt32) (fields : FieldMap) (timestamp : Option UInt16)
  | synSuccess (source target : Address) (id : UInt32)
  | synAckSuccess (source target : Address) (id : UInt32)
  | ack (source target : Address) (id : UInt32)

namespace Transit

def source : Transit → Address
  | plain source _ _ _ | syn source _ _ _ _ | synSuccess source _ _ | synAckSuccess source _ _
  | ack source _ _ => source

def target : Transit → Address
  | plain _ target _ _ | syn _ target _ _ _ | synSuccess _ target _ | synAckSuccess _ target _
  | ack _ target _ => target

def origin : Transit → Address
  | plain source _ _ _ | syn source _ _ _ _ | synAckSuccess source _ _ => source
  | synSuccess _ target _ | ack _ target _ => target

def goal : Transit → Address
  | plain _ target _ _ | syn _ target _ _ _ | synAckSuccess _ target _ => target
  | synSuccess source _ _ | ack source _ _ => source

def next? : Transit → Option Transit
  | plain _ _ _ _ | ack _ _ _ => none
  | syn source target id _ _ => some (synSuccess source target id)
  | synSuccess source target id => some (synAckSuccess source target id)
  | synAckSuccess source target id => some (ack source target id)

def handshake? : Transit → Option (Address × UInt32)
  | plain _ _ _ _ => none
  | syn source _ id _ _ | synSuccess source _ id | synAckSuccess source _ id | ack source _ id =>
    some (source, id)

/-- The first frame of a message, by the id that it has got and the timestamp that it has drawn. -/
def first (source target : Address) (fields : FieldMap) (timestamp : UInt16) :
    Option UInt32 → Transit
  | none => plain source target fields timestamp
  | some id =>
    syn source target id fields (if timestamp = wraparoundTimestamp then none else some timestamp)

/-- The status of a record that belongs to the frame, if a host holds it under the key. -/
def status? (host : Address) (key : ConnectionKey) : Transit → Option HandshakeStatus
  | plain _ _ _ _ => none
  | syn source target id _ _ =>
    if host = source ∧ key = ⟨target, id, .sender⟩ then some .synSent else none
  | synSuccess source target id =>
    if host = source ∧ key = ⟨target, id, .sender⟩ then some .synSent
    else if host = target ∧ key = ⟨source, id, .receiver⟩ then some .synAckSent
    else none
  | synAckSuccess source target id =>
    if host = source ∧ key = ⟨target, id, .sender⟩ then some .ackSent
    else if host = target ∧ key = ⟨source, id, .receiver⟩ then some .synAckSent
    else none
  | ack source target id =>
    if host = source ∧ key = ⟨target, id, .sender⟩ then some .ackSent else none

def goalKey? : Transit → Option ConnectionKey
  | plain _ _ _ _ => none
  | syn source _ id _ _ | synAckSuccess source _ id => some ⟨source, id, .receiver⟩
  | synSuccess _ target id | ack _ target id => some ⟨target, id, .sender⟩

/-- The timestamp by which the frame is judged, of a frame that has a place for one. -/
def stamp? : Transit → Option (Option UInt16)
  | plain _ _ _ timestamp => some (some timestamp)
  | syn _ _ _ _ timestamp => some timestamp
  | _ => none

/-- The message that is delivered when the frame arrives. -/
def arrival? : Transit → Option Arrival
  | plain source target fields _ => some { target, message := { source, id := none, fields } }
  | syn source target id fields _ =>
    some { target, message := { source, id := some id, fields } }
  | _ => none

/-- A datagram carries the message in this frame. -/
def Carries (datagram : Datagram) : Transit → Prop
  | plain source target fields timestamp =>
    datagram.source = source ∧ datagram.target = target ∧
      ∃ frame, Frame.decode datagram.bytes = .ok frame ∧ frame.kind = .plain ∧
        frame.header.messageId = none ∧ frame.timestamp = some timestamp ∧ frame.fields = fields
  | syn source target id fields timestamp =>
    datagram.source = source ∧ datagram.target = target ∧ id ≠ 0 ∧
      ∃ frame, Reads datagram.bytes .syn id frame ∧ frame.timestamp = timestamp ∧
        frame.fields = fields
  | synSuccess source target id => id ≠ 0 ∧ datagram = ⟨target, source, encodeControl .synSuccess id⟩
  | synAckSuccess source target id =>
    id ≠ 0 ∧ datagram = ⟨source, target, encodeControl .synAckSuccess id⟩
  | ack source target id => id ≠ 0 ∧ datagram = ⟨target, source, encodeControl .ack id⟩

variable {transit : Transit} {host : Address} {key : ConnectionKey} {datagram : Datagram}

lemma Carries.source (h : Carries datagram transit) : datagram.source = transit.origin := by
  cases transit with
  | plain | syn => exact h.1
  | synSuccess | synAckSuccess | ack => rw [h.2]; rfl

lemma Carries.target (h : Carries datagram transit) : datagram.target = transit.goal := by
  cases transit with
  | plain | syn => exact h.2.1
  | synSuccess | synAckSuccess | ack => rw [h.2]; rfl

lemma source_eq_origin {timestamp : Option UInt16} (h : transit.stamp? = some timestamp) :
    transit.source = transit.origin := by
  cases transit with
  | plain | syn => rfl
  | synSuccess | synAckSuccess | ack => cases h

def handshakeOf (host : Address) (key : ConnectionKey) : Address × UInt32 :=
  match key.role with
  | .sender => (host, key.messageId)
  | .receiver => (key.peer, key.messageId)

lemma handshake?_of_status? {status : HandshakeStatus} (h : transit.status? host key = some status) :
    transit.handshake? = some (handshakeOf host key) := by
  cases transit with
  | plain => cases h
  | syn | ack =>
    simp only [status?] at h
    split at h
    · rename_i hkey
      obtain ⟨rfl, rfl⟩ := hkey
      rfl
    · cases h
  | synSuccess | synAckSuccess =>
    simp only [status?] at h
    split at h
    · rename_i hkey
      obtain ⟨rfl, rfl⟩ := hkey
      rfl
    · split at h
      · rename_i hkey
        obtain ⟨rfl, rfl⟩ := hkey
        rfl
      · cases h

lemma handshake?_of_goalKey? (h : transit.goalKey? = some key) :
    transit.handshake? = some (handshakeOf transit.goal key) := by
  cases transit with
  | plain => cases h
  | syn | synSuccess | synAckSuccess | ack => cases h; rfl

lemma handshake?_of_next? {next : Transit} (h : transit.next? = some next) :
    next.handshake? = transit.handshake? ∧ next.source = transit.source ∧
      next.target = transit.target ∧ next.stamp? = none ∧ next.arrival? = none := by
  cases transit with
  | plain | ack => cases h
  | syn | synSuccess | synAckSuccess => cases h; exact ⟨rfl, rfl, rfl, rfl, rfl⟩

/-- No other record than the one at the goal changes when a frame arrives. -/
lemma status?_next? (h : ¬ (host = transit.goal ∧ transit.goalKey? = some key)) :
    transit.next?.bind (status? host key) = transit.status? host key := by
  cases transit with
  | plain => rfl
  | syn source target id fields timestamp =>
    have hother : ¬ (host = target ∧ key = ⟨source, id, .receiver⟩) := by
      rintro ⟨rfl, rfl⟩
      exact h ⟨rfl, rfl⟩
    simp only [next?, Option.bind_some, status?, if_neg hother]
  | synSuccess source target id =>
    have hother : ¬ (host = source ∧ key = ⟨target, id, .sender⟩) := by
      rintro ⟨rfl, rfl⟩
      exact h ⟨rfl, rfl⟩
    simp only [next?, Option.bind_some, status?, if_neg hother]
  | synAckSuccess source target id =>
    have hother : ¬ (host = target ∧ key = ⟨source, id, .receiver⟩) := by
      rintro ⟨rfl, rfl⟩
      exact h ⟨rfl, rfl⟩
    simp only [next?, Option.bind_some, status?, if_neg hother]
  | ack source target id =>
    have hother : ¬ (host = source ∧ key = ⟨target, id, .sender⟩) := by
      rintro ⟨rfl, rfl⟩
      exact h ⟨rfl, rfl⟩
    simp only [next?, Option.bind_none, status?, if_neg hother]

end Transit

def statusAt (engine : Engine) (key : ConnectionKey) : Option HandshakeStatus :=
  (engine.store.connections[key]?).map ConnectionRecord.status

/-- The arrival of a frame has taken its message one step further. -/
structure Advances (transit : Transit) (before after : Engine) (effects : List Effect) : Prop where
  filed : WellFiled after.store
  ids : after.messageIds = before.messageIds
  status : ∀ key, statusAt after key =
    if transit.goalKey? = some key then transit.next?.bind (Transit.status? transit.goal key)
    else statusAt before key
  timestamps : Retracks before after transit.origin
    (transit.stamp?.getD (trackedTimestamp before transit.origin))
  sent : List.Forall₂ Transit.Carries (effects.filterMap (datagramOf? transit.goal))
    transit.next?.toList
  heard : effects.filterMap (arrivalOf? transit.goal) = transit.arrival?.toList

section Arrivals

variable {engine after : Engine}

lemma statusAt_afterTransmit {connection : ConnectionRecord} {frame : Bytes}
    (h : after.store.connections =
      afterTransmit engine.store.connections connection frame true) (key : ConnectionKey) :
    statusAt after key =
      if connection.key = key then some connection.status else statusAt engine key := by
  unfold statusAt
  rw [h, afterTransmit, if_pos rfl, getElem?_insert_eq]
  split <;> rfl

lemma statusAt_erase {erased : ConnectionKey}
    (h : after.store.connections = engine.store.connections.erase erased) (key : ConnectionKey) :
    statusAt after key = if erased = key then none else statusAt engine key := by
  unfold statusAt
  rw [h, getElem?_erase_eq]
  split <;> rfl

section Goals

variable {transit : Transit} {connection : ConnectionRecord} {frame : Bytes}

/-- The record at the goal is filed anew, and now belongs to the next frame. -/
lemma statusAt_of_transmit
    (h : after.store.connections =
      afterTransmit engine.store.connections connection frame true)
    (hgoal : transit.goalKey? = some connection.key)
    (hnext : transit.next?.bind (Transit.status? transit.goal connection.key) =
      some connection.status) (key : ConnectionKey) :
    statusAt after key =
      if transit.goalKey? = some key then transit.next?.bind (Transit.status? transit.goal key)
      else statusAt engine key := by
  rw [statusAt_afterTransmit h, hgoal]
  by_cases hkey : connection.key = key
  · subst hkey
    rw [if_pos rfl, if_pos rfl, hnext]
  · rw [if_neg hkey, if_neg fun h => hkey (Option.some.inj h)]

/-- The record at the goal is removed, and none belongs to the next frame. -/
lemma statusAt_of_erase {erased : ConnectionKey}
    (h : after.store.connections = engine.store.connections.erase erased)
    (hgoal : transit.goalKey? = some erased)
    (hnext : transit.next?.bind (Transit.status? transit.goal erased) = none)
    (key : ConnectionKey) :
    statusAt after key =
      if transit.goalKey? = some key then transit.next?.bind (Transit.status? transit.goal key)
      else statusAt engine key := by
  rw [statusAt_erase h, hgoal]
  by_cases hkey : erased = key
  · subst hkey
    rw [if_pos rfl, if_pos rfl, hnext]
  · rw [if_neg hkey, if_neg fun h => hkey (Option.some.inj h)]

end Goals

lemma statusAt_eq_some {key : ConnectionKey} {status : HandshakeStatus}
    (h : statusAt engine key = some status) :
    ∃ connection, engine.store.connections[key]? = some connection ∧ connection.status = status :=
  Option.map_eq_some_iff.1 h

variable (occasion : Occasion) {datagram : Datagram}

lemma reads_control {kind : FrameKind} (hkind : kind.isControl = true) {id : UInt32}
    (hid : id ≠ 0) : ∃ frame, Reads (encodeControl kind id) kind id frame :=
  ⟨_, decode_encodeControl hkind hid, rfl, rfl⟩

variable {source target : Address} {id : UInt32} {fields : FieldMap}

lemma advances_plain (hw : WellFiled engine.store) {timestamp : UInt16}
    (hcarries : (Transit.plain source target fields timestamp).Carries datagram)
    (hfresh : isFreshAfter (trackedTimestamp engine source) (some timestamp) = true) :
    Advances (.plain source target fields timestamp) engine
      (engine.receive occasion datagram.source datagram.bytes).1
      (engine.receive occasion datagram.source datagram.bytes).2 := by
  obtain ⟨rfl, rfl, frame, hdecode, hkind, -, hstamp, rfl⟩ := hcarries
  obtain ⟨hsame, heffects, htracked⟩ := receive_plain occasion hw hdecode hkind hstamp hfresh
  refine ⟨hw.receive occasion _ _, messageIds_receive occasion _ _, ?_, htracked, ?_, ?_⟩
  · intro key
    rw [statusAt, hsame]
    rfl
  · rw [heffects]
    exact List.Forall₂.nil
  · rw [heffects]
    rfl

lemma advances_syn (haccepts : ∀ target bytes, occasion.accepts target bytes = true)
    (hw : WellFiled engine.store) {timestamp : Option UInt16}
    (hcarries : (Transit.syn source target id fields timestamp).Carries datagram)
    (hstatus : statusAt engine ⟨source, id, .receiver⟩ = none)
    (hfresh : isFreshAfter (trackedTimestamp engine source) timestamp = true) :
    Advances (.syn source target id fields timestamp) engine
      (engine.receive occasion datagram.source datagram.bytes).1
      (engine.receive occasion datagram.source datagram.bytes).2 := by
  obtain ⟨rfl, rfl, hid, frame, hreads, rfl, rfl⟩ := hcarries
  obtain ⟨⟨connection, hkey, hopened, hconnections⟩, heffects, htracked⟩ :=
    receive_syn occasion hw hreads (by
      intro connection hconnection
      rw [statusAt, hconnection] at hstatus
      cases hstatus) hfresh
  rw [haccepts] at hconnections heffects
  refine ⟨hw.receive occasion _ _, messageIds_receive occasion _ _, ?_, htracked, ?_, ?_⟩
  · apply statusAt_of_transmit hconnections
    · rw [hkey]
      rfl
    · rw [hkey, hopened]
      simp [Transit.next?, Transit.status?, Transit.goal]
  · rw [heffects]
    exact List.Forall₂.cons ⟨hid, rfl⟩ List.Forall₂.nil
  · rw [heffects]
    rfl

lemma advances_synSuccess (haccepts : ∀ target bytes, occasion.accepts target bytes = true)
    (hw : WellFiled engine.store) (hcarries : (Transit.synSuccess source target id).Carries datagram)
    (hstatus : statusAt engine ⟨target, id, .sender⟩ = some .synSent) :
    Advances (.synSuccess source target id) engine
      (engine.receive occasion datagram.source datagram.bytes).1
      (engine.receive occasion datagram.source datagram.bytes).2 := by
  obtain ⟨hid, rfl⟩ := hcarries
  obtain ⟨frame, hreads⟩ := @reads_control .synSuccess rfl id hid
  obtain ⟨record, hrecord, hwaits⟩ := statusAt_eq_some hstatus
  obtain ⟨⟨connection, hkey, hseen, hconnections⟩, heffects, htracked⟩ :=
    receive_synSuccess occasion hw hreads hrecord hwaits
  rw [haccepts] at hconnections heffects
  refine ⟨hw.receive occasion _ _, messageIds_receive occasion _ _, ?_, htracked, ?_, ?_⟩
  · apply statusAt_of_transmit hconnections
    · rw [hkey]
      rfl
    · rw [hkey, hseen]
      simp [Transit.next?, Transit.status?, Transit.goal]
  · rw [heffects]
    exact List.Forall₂.cons ⟨hid, rfl⟩ List.Forall₂.nil
  · rw [heffects]
    rfl

lemma advances_synAckSuccess (haccepts : ∀ target bytes, occasion.accepts target bytes = true)
    (hw : WellFiled engine.store)
    (hcarries : (Transit.synAckSuccess source target id).Carries datagram)
    (hstatus : statusAt engine ⟨source, id, .receiver⟩ = some .synAckSent) :
    Advances (.synAckSuccess source target id) engine
      (engine.receive occasion datagram.source datagram.bytes).1
      (engine.receive occasion datagram.source datagram.bytes).2 := by
  obtain ⟨hid, rfl⟩ := hcarries
  obtain ⟨frame, hreads⟩ := @reads_control .synAckSuccess rfl id hid
  obtain ⟨record, hrecord, hopened⟩ := statusAt_eq_some hstatus
  obtain ⟨hconnections, heffects, htracked⟩ :=
    receive_synAckSuccess occasion hw hreads hrecord hopened
  rw [haccepts] at heffects
  refine ⟨hw.receive occasion _ _, messageIds_receive occasion _ _, ?_, htracked, ?_, ?_⟩
  · apply statusAt_of_erase hconnections rfl
    simp [Transit.next?, Transit.status?]
  · rw [heffects]
    exact List.Forall₂.cons ⟨hid, rfl⟩ List.Forall₂.nil
  · rw [heffects]
    rfl

lemma advances_ack (hw : WellFiled engine.store)
    (hcarries : (Transit.ack source target id).Carries datagram)
    (hstatus : statusAt engine ⟨target, id, .sender⟩ = some .ackSent) :
    Advances (.ack source target id) engine
      (engine.receive occasion datagram.source datagram.bytes).1
      (engine.receive occasion datagram.source datagram.bytes).2 := by
  obtain ⟨hid, rfl⟩ := hcarries
  obtain ⟨frame, hreads⟩ := @reads_control .ack rfl id hid
  obtain ⟨record, hrecord, hseen⟩ := statusAt_eq_some hstatus
  obtain ⟨hconnections, heffects, htracked⟩ := receive_ack occasion hw hreads hrecord hseen
  refine ⟨hw.receive occasion _ _, messageIds_receive occasion _ _, ?_, htracked, ?_, ?_⟩
  · exact statusAt_of_erase hconnections rfl rfl
  · rw [heffects]
    exact List.Forall₂.nil
  · rw [heffects]
    rfl

/-- The frame of a message in transit arrives at a host whose record of the message, if any, belongs
to the frame, and which finds the timestamp fresh. -/
lemma receive_advances (haccepts : ∀ target bytes, occasion.accepts target bytes = true)
    (hw : WellFiled engine.store) {transit : Transit} (hcarries : transit.Carries datagram)
    (hstatus : ∀ key, transit.goalKey? = some key →
      statusAt engine key = transit.status? transit.goal key)
    (hfresh : ∀ timestamp, transit.stamp? = some timestamp →
      isFreshAfter (trackedTimestamp engine transit.origin) timestamp = true) :
    Advances transit engine (engine.receive occasion datagram.source datagram.bytes).1
      (engine.receive occasion datagram.source datagram.bytes).2 := by
  cases transit with
  | plain source target fields timestamp =>
    exact advances_plain occasion hw hcarries (hfresh _ rfl)
  | syn source target id fields timestamp =>
    refine advances_syn occasion haccepts hw hcarries ?_ (hfresh _ rfl)
    rw [hstatus _ rfl]
    simp [Transit.status?]
  | synSuccess source target id =>
    refine advances_synSuccess occasion haccepts hw hcarries ?_
    rw [hstatus _ rfl]
    simp [Transit.status?, Transit.goal]
  | synAckSuccess source target id =>
    refine advances_synAckSuccess occasion haccepts hw hcarries ?_
    rw [hstatus _ rfl]
    simp [Transit.status?, Transit.goal]
  | ack source target id =>
    refine advances_ack occasion hw hcarries ?_
    rw [hstatus _ rfl]
    simp [Transit.status?, Transit.goal]

end Arrivals

/-- A message has been sent, and its first frame is on its way. -/
structure Departs (source target : Address) (fields : FieldMap) (id : Option UInt32)
    (before after : Engine) (effects : List Effect) : Prop where
  filed : WellFiled after.store
  ids : id = none ∧ after.messageIds = before.messageIds ∨
    id = some before.messageIds.draw.1 ∧ after.messageIds = before.messageIds.draw.2
  status : ∀ key, statusAt after key =
    ((Transit.first source target fields (outgoingTimestamp before target) id).status?
      source key).or (statusAt before key)
  stamp : (Transit.first source target fields (outgoingTimestamp before target) id).stamp? =
    some (if outgoingTimestamp before target = wraparoundTimestamp then none
      else some (outgoingTimestamp before target))
  sent : List.Forall₂ Transit.Carries (effects.filterMap (datagramOf? source))
    [Transit.first source target fields (outgoingTimestamp before target) id]
  heard : effects.filterMap (arrivalOf? source) = []

lemma writtenTimestamp_of_some {options : FrameOptions} {timestamp : UInt16}
    (h : options.timestamp = some timestamp) :
    options.writtenTimestamp =
      if timestamp = wraparoundTimestamp then none else some timestamp := by
  unfold FrameOptions.writtenTimestamp
  rw [h]
  by_cases hwrap : timestamp = wraparoundTimestamp
  · rw [if_pos hwrap, if_pos (by rw [hwrap])]
  · rw [if_neg hwrap, if_neg fun h => hwrap (Option.some.inj h)]

lemma send_departs {engine : Engine} (occasion : Occasion)
    (haccepts : ∀ target bytes, occasion.accepts target bytes = true)
    (hw : WellFiled engine.store) (source : Address) {target : Address} {fields : FieldMap}
    {delivery : Delivery} {id : Option UInt32}
    (hok : (engine.send occasion target fields delivery).2.2 = .ok id) :
    Departs source target fields id engine (engine.send occasion target fields delivery).1
      (engine.send occasion target fields delivery).2.1 := by
  have hfiled := hw.send occasion target fields delivery
  have hmove := send_move occasion hw target fields delivery
  have hdrawn := (drawTimestamp_eq hw occasion.now target).2
  generalize (engine.send occasion target fields delivery).1 = after at hmove hfiled ⊢
  generalize (engine.send occasion target fields delivery).2.1 = effects at hmove ⊢
  generalize (engine.send occasion target fields delivery).2.2 = result at hmove hok
  cases hmove with
  | failed ids same => cases hok
  | @plain timestamp frame drawn unforced written ids same =>
    rw [hdrawn] at drawn
    rw [if_pos (haccepts _ _)] at hok
    cases hok
    subst drawn
    refine ⟨hfiled, Or.inl ⟨rfl, ids⟩, ?_, ?_, ?_, rfl⟩
    · intro key
      rw [statusAt, same]
      rfl
    · rw [if_neg unforced]
      rfl
    · rw [haccepts]
      refine List.Forall₂.cons ⟨rfl, rfl, ?_⟩ List.Forall₂.nil
      refine ⟨_, decode_of_encode written, rfl, rfl, ?_, ofList_toList fields⟩
      exact (writtenTimestamp_of_some rfl).trans (if_neg unforced)
  | @first timestamp frame connection drawn written record ids filed =>
    rw [hdrawn] at drawn
    rw [if_pos (haccepts _ _)] at hok
    cases hok
    subst drawn
    rw [haccepts] at filed
    refine ⟨hfiled, Or.inr ⟨rfl, ids⟩, ?_, rfl, ?_, rfl⟩
    · intro key
      rw [statusAt_afterTransmit filed]
      simp only [Transit.first, Transit.status?, (record.key hw.connection).1, true_and]
      by_cases hkey : key = ⟨target, engine.messageIds.draw.1, .sender⟩
      · rw [if_pos hkey.symm, if_pos hkey, Option.some_or]
      · rw [if_neg fun h => hkey h.symm, if_neg hkey, Option.none_or]
    · rw [haccepts]
      refine List.Forall₂.cons ⟨rfl, rfl, draw_ne_zero _, ?_⟩ List.Forall₂.nil
      exact ⟨_, ⟨decode_of_encode written, rfl, rfl⟩, writtenTimestamp_of_some rfl,
        ofList_toList fields⟩

end ReliableDatagrams.Proofs
