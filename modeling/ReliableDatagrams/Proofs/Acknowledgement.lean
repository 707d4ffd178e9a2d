import ReliableDatagrams.Proofs.FleetSoundness

/-!
# No false acknowledgement

A sender that has seen a success of the receiver, or has closed its handshake on an acknowledgement,
can rely on it: its message was delivered before, with the very fields that were sent.
-/

namespace ReliableDatagrams.Proofs

variable {fleet : Fleet} {host : Address}

def Fleet.IsAcknowledged (fleet : Fleet) (host peer : Address) (id : UInt32) : Prop :=
  ∃ record, fleet.senderRecord? host peer id = some record ∧ record.status = .ackSent

/-- An acknowledgement that arrives from the peer closes the sender's record. -/
def Fleet.ClosesOnAck (fleet : Fleet) (datagram : Datagram) (accepts : Address → Bytes → Bool)
    (host peer : Address) (id : UInt32) : Prop :=
  datagram.source = peer ∧ datagram.target = host ∧
    (∃ frame, Reads datagram.bytes .ack id frame) ∧
    (fleet.senderRecord? host peer id).isSome ∧
    (fleet.step (.receive datagram accepts)).senderRecord? host peer id = none

lemma Reads.unique {datagram : Bytes} {kind other : FrameKind} {id seen : UInt32}
    {frame found : Frame} (h : Reads datagram kind id frame)
    (h' : Reads datagram other seen found) : kind = other := by
  have hframe : frame = found := Except.ok.inj (h.decoded.symm.trans h'.decoded)
  rw [← h.kind, hframe, h'.kind]

/-- An acknowledgement removes a record only if that has seen a success. -/
lemma ReceiveMove.of_ack {engine after : Engine} {occasion : Occasion} {source : Address}
    {datagram : Bytes} {effects : List Effect} {id : UInt32} {frame : Frame}
    (hack : Reads datagram .ack id frame)
    (h : ReceiveMove engine occasion source datagram after effects) :
    after.store.connections = engine.store.connections ∨
      ∃ connection, engine.store.connections[(⟨source, id, .sender⟩ : ConnectionKey)]? =
        some connection ∧ .ackSent ≤ connection.status := by
  cases h with
  | ignored same => exact Or.inl same
  | plain decoded kind fresh same => exact Or.inl same
  | rejected invalid record waiting filed =>
    rcases invalid with ⟨header, expected, actual, hdamaged, -⟩ | ⟨found, reads, -⟩
    · rw [hack.decoded] at hdamaged
      cases hdamaged
    · cases hack.unique reads
  | confirmed reads record opened filed => cases hack.unique reads
  | accepted reads record waiting fresh filed => cases hack.unique reads
  | acknowledged reads record status filed => cases hack.unique reads
  | retried reads record retry => cases hack.unique reads
  | closed reads filed => cases hack.unique reads
  | finished reads record status filed =>
    have hframe := Except.ok.inj (hack.decoded.symm.trans reads.decoded)
    have hid := hack.id
    rw [hframe, reads.id] at hid
    cases hid
    exact Or.inr ⟨_, record, status⟩

lemma senderRecord?_eq (h : SoundFleet fleet) {station : Station}
    (hthere : fleet.stations.get? host = some station) (peer : Address) (id : UInt32) :
    fleet.senderRecord? host peer id =
      station.engine.store.connections[(⟨peer, id, .sender⟩ : ConnectionKey)]? := by
  rw [Fleet.senderRecord?, hthere, Option.bind_some, connection?_eq (h.filed host station hthere)]

lemma SoundFleet.heard_of_status (h : SoundFleet fleet) {peer : Address} {id : UInt32}
    {station : Station} (hthere : fleet.stations.get? host = some station)
    {record : ConnectionRecord}
    (hrecord : station.engine.store.connections[(⟨peer, id, .sender⟩ : ConnectionKey)]? =
      some record)
    (hstatus : .ackSent ≤ record.status) : Heard fleet.toLedger host peer id := by
  have hkey := ((h.filed host station hthere).connection _ _ hrecord).1
  have hheard := (h.records host station hthere _ _ hrecord).acknowledged (by rw [hkey]) hstatus
  rw [hkey] at hheard
  exact hheard

lemma senderRecord?_runTask (fleet : Fleet) (host : Address) (station : Station)
    (task : EngineTask) (accepts : Address → Bytes → Bool) (peer : Address) (id : UInt32) :
    (fleet.runTask host station task accepts).senderRecord? host peer id =
      (station.engine.run ⟨station.now, accepts⟩ task).1.store.connection?
        ⟨peer, id, .sender⟩ := by
  have hget := Table.get?_insert fleet.stations host host
    { station with engine := (station.engine.run ⟨station.now, accepts⟩ task).1 }
  rw [if_pos rfl] at hget
  unfold Fleet.senderRecord? Fleet.runTask Fleet.update
  dsimp only
  rw [hget, Option.bind_some]

lemma SoundFleet.heard_of_closesOnAck (h : SoundFleet fleet) {peer : Address} {id : UInt32}
    {datagram : Datagram} {accepts : Address → Bytes → Bool}
    (hcloses : fleet.ClosesOnAck datagram accepts host peer id) :
    Heard fleet.toLedger host peer id := by
  obtain ⟨rfl, rfl, ⟨frame, hack⟩, hlive, hgone⟩ := hcloses
  cases hthere : fleet.stations.get? datagram.target with
  | none => simp [Fleet.senderRecord?, hthere] at hlive
  | some station =>
    rw [senderRecord?_eq h hthere] at hlive
    unfold Fleet.step at hgone
    dsimp only at hgone
    split at hgone
    · rename_i hwire
      have hw := h.filed _ _ hthere
      have hmove := receive_move ⟨station.now, accepts⟩ hw datagram.source datagram.bytes
      rcases hmove.of_ack hack with hsame | ⟨record, hrecord, hstatus⟩
      · have hafter := hw.receive ⟨station.now, accepts⟩ datagram.source datagram.bytes
        rw [hthere, Option.elim_some, senderRecord?_runTask, Engine.run, connection?_eq hafter,
          hsame] at hgone
        rw [hgone] at hlive
        cases hlive
      · exact h.heard_of_status hthere hrecord hstatus
    · rw [senderRecord?_eq h hthere] at hgone
      rw [hgone] at hlive
      cases hlive

/-- No false acknowledgement: once the record of a message has seen a success, or was closed on an
acknowledgement, the message is delivered at its target, with the fields that were given to the one
call that returned its id. -/
theorem acknowledged_was_delivered (specs : List HostSpec) (before after : List FleetStep)
    (host peer : Address) (id : UInt32)
    (hids : ((Fleet.ofSpecs specs).run (before ++ after)).idsDrawn host < 4294967295)
    (h : ((Fleet.ofSpecs specs).run before).IsAcknowledged host peer id ∨
      ∃ datagram accepts rest, after = .receive datagram accepts :: rest ∧
        ((Fleet.ofSpecs specs).run before).ClosesOnAck datagram accepts host peer id) :
    ∃ call, ((Fleet.ofSpecs specs).run (before ++ after)).sendsOf host id = [call] ∧
      call.target = peer ∧
      { target := peer, message := { source := host, id := some id, fields := call.fields } } ∈
        ((Fleet.ofSpecs specs).run before).arrivals := by
  obtain ⟨hsound, -⟩ := sound_and_counts_run specs before
  obtain ⟨-, hcounts⟩ := sound_and_counts_run specs (before ++ after)
  have hext := run_extends ((Fleet.ofSpecs specs).run before) after
  rw [← run_append] at hext
  have hheard : Heard ((Fleet.ofSpecs specs).run before).toLedger host peer id := by
    rcases h with ⟨record, hrecord, hstatus⟩ | ⟨datagram, accepts, rest, -, hcloses⟩
    · obtain ⟨station, hthere, -⟩ := Option.bind_eq_some_iff.1 hrecord
      rw [senderRecord?_eq hsound hthere] at hrecord
      exact hsound.heard_of_status hthere hrecord (by rw [hstatus]; decide)
    · exact hsound.heard_of_closesOnAck hcloses
  have hthere : (((Fleet.ofSpecs specs).run before).stations.get? host).isSome := by
    rcases h with ⟨record, hrecord, -⟩ | ⟨datagram, accepts, rest, -, -, -, -, hlive, -⟩
    · obtain ⟨station, hthere, -⟩ := Option.bind_eq_some_iff.1 hrecord
      rw [hthere]
      rfl
    · obtain ⟨record, hrecord⟩ := Option.isSome_iff_exists.1 hlive
      obtain ⟨station, hthere, -⟩ := Option.bind_eq_some_iff.1 hrecord
      rw [hthere]
      rfl
  obtain ⟨fields, harrival⟩ := hheard
  obtain ⟨call, hcall, hsource, htarget, hfields, hresult⟩ := hsound.arrivals _ harrival
  have hstays := isSome_station_run after hthere
  rw [← run_append] at hstays
  obtain ⟨station, hstation⟩ := Option.isSome_iff_exists.1 hstays
  refine ⟨call, sendsOf_eq_singleton hcounts hstation hids (hext.calls hcall) hsource hresult,
    htarget, ?_⟩
  rw [hfields]
  exact harrival

/-- A handshake of two hosts, looked at after its second frame and when the fourth arrives. -/
theorem acknowledged_was_delivered_in_four_frames :
    let near : Address := .loopback 9001
    let far : Address := .loopback 9002
    let specs : List HostSpec :=
      [{ config := { selfAddress := near } }, { config := { selfAddress := far } }]
    let accepts : Address → Bytes → Bool := fun _ _ => true
    let syn : Bytes := [1, 1, 0, 0, 0, 102, 0, 0, 0, 0, 0, 97, 5, 0]
    let ack : Datagram := ⟨far, near, encodeControl .ack 1⟩
    let before : List FleetStep :=
      [.send near far { shorts := some [5] } .reliable accepts,
        .receive ⟨near, far, syn⟩ accepts,
        .receive ⟨far, near, encodeControl .synSuccess 1⟩ accepts]
    let later : List FleetStep :=
      before ++ [.receive ⟨near, far, encodeControl .synAckSuccess 1⟩ accepts]
    ((Fleet.ofSpecs specs).run before).IsAcknowledged near far 1 ∧
      ((Fleet.ofSpecs specs).run later).ClosesOnAck ack accepts near far 1 ∧
      ((Fleet.ofSpecs specs).run (later ++ [.receive ack accepts])).idsDrawn near < 4294967295 ∧
      (∃ call, ((Fleet.ofSpecs specs).run (before ++ [])).sendsOf near 1 = [call] ∧
        call.target = far ∧
          ⟨far, ⟨near, some 1, call.fields⟩⟩ ∈ ((Fleet.ofSpecs specs).run before).arrivals) ∧
      ∃ call, ((Fleet.ofSpecs specs).run (later ++ [.receive ack accepts])).sendsOf near 1 =
          [call] ∧
        call.target = far ∧
          ⟨far, ⟨near, some 1, call.fields⟩⟩ ∈ ((Fleet.ofSpecs specs).run later).arrivals := by
  intro near far specs accepts syn ack before later
  have hacknowledged : ((Fleet.ofSpecs specs).run before).IsAcknowledged near far 1 := by
    have hstatus : (((Fleet.ofSpecs specs).run before).senderRecord? near far 1).map
        ConnectionRecord.status = some .ackSent := by decide +kernel
    exact Option.map_eq_some_iff.1 hstatus
  have hcloses : ((Fleet.ofSpecs specs).run later).ClosesOnAck ack accepts near far 1 := by
    refine ⟨rfl, rfl, ⟨_, decode_encodeControl rfl (by decide), rfl, rfl⟩, by decide +kernel, ?_⟩
    exact Option.isNone_iff_eq_none.1 (by decide +kernel)
  have hids : ((Fleet.ofSpecs specs).run (later ++ [.receive ack accepts])).idsDrawn near <
      4294967295 := by
    decide +kernel
  exact ⟨hacknowledged, hcloses, hids,
    acknowledged_was_delivered specs before [] near far 1 (by decide +kernel)
      (Or.inl hacknowledged),
    acknowledged_was_delivered specs later [.receive ack accepts] near far 1 hids
      (Or.inr ⟨ack, accepts, [], rfl, hcloses⟩)⟩

end ReliableDatagrams.Proofs
