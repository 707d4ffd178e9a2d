import ReliableDatagrams.Proofs.FirstFrames
import ReliableDatagrams.Proofs.DataFrames

/-!
# Which datagrams are answered, and how

An engine answers a frame of a handshake with the frame that comes next, and nothing else with
anything; otherwise two engines could keep each other busy, and one could be made to send datagrams
to a third party. `IsAnswerTo` lists the answers. What the answer to a failure looks like depends on what
the engine keeps for its own messages, so that the rules are shown for the engines that a run comes to.

A datagram that is no frame is answered in one case only, a first frame with a wrong checksum. It is read
no further than that, and may lack its timestamp as well (`damaged_answered_if_cut`).
-/

namespace ReliableDatagrams.Proofs

/-- A first frame of a handshake that is right up to its checksum. What the checksum covers has another
one, whatever it is. -/
structure IsDamagedSyn (datagram : Bytes) (id : UInt32) : Prop where
  length : 9 ≤ datagram.length
  kind : (flagsOf datagram).kind? = some .syn
  messageId : UInt32.ofNat (numberAt datagram 1 4) = id
  id_ne_zero : id ≠ 0
  sum : UInt32.ofNat (numberAt datagram 5 4) ≠ UInt32.ofNat (byteSum (datagram.drop 9))

section Damage

variable {datagram : Bytes} {id : UInt32}

/-- A first frame is found to be damaged if and only if its bytes say so. -/
lemma isDamagedSyn_iff :
    (∃ header expected actual,
        Frame.decode datagram = .error (.checksumMismatch header expected actual) ∧
          header.flags.kind? = some .syn ∧ header.messageId = some id) ↔
      IsDamagedSyn datagram id := by
  constructor
  · rintro ⟨header, expected, actual, hdecoded, hkind, hid⟩
    obtain ⟨⟨kind, hright⟩, hsum, rfl, rfl, rfl⟩ := (decode_eq_mismatch_iff _ _ _ _).1 hdecoded
    have hreliable : (flagsOf datagram).isReliable = true := isReliable_of_syn hkind
    have hoffset : sumOffset datagram = 5 := if_pos hreliable
    have hlength := hright.length
    rw [hoffset] at hlength
    rw [storedSum, contentOf, hoffset, checksum_eq] at hsum
    rw [headerOf, if_pos hreliable] at hid
    refine ⟨hlength, hkind, Option.some.inj hid, ?_, hsum⟩
    rw [← Option.some.inj hid]
    exact (ofNat_numberAt_ne_zero_iff _ _).2 (hright.messageId hreliable)
  · rintro ⟨hlength, hkind, rfl, hne, hsum⟩
    have hreliable := isReliable_of_syn hkind
    have hoffset : sumOffset datagram = 5 := if_pos hreliable
    have hright : IsRightUpToSum datagram .syn :=
      ⟨by rw [hoffset]; exact hlength, hkind, rfl, fun _ => (ofNat_numberAt_ne_zero_iff _ _).1 hne⟩
    refine ⟨headerOf datagram, storedSum datagram, checksum (contentOf datagram),
      (decode_eq_mismatch_iff _ _ _ _).2 ⟨⟨_, hright⟩, ?_, rfl, rfl, rfl⟩, hkind, if_pos hreliable⟩
    rw [storedSum, contentOf, hoffset, checksum_eq]
    exact hsum

lemma Reads.id_ne_zero {kind : FrameKind} {frame : Frame} (h : Reads datagram kind id frame) :
    id ≠ 0 := by
  rintro rfl
  exact messageId_ne_zero h.decoded h.id

end Damage

/-- The kinds of frames that a datagram for a message may be answered with. -/
inductive IsAnswerTo (datagram : Bytes) (id : UInt32) : FrameKind → Prop where
  | confirmed {frame : Frame} (reads : Reads datagram .syn id frame) :
      IsAnswerTo datagram id .synSuccess
  | stale {frame : Frame} (reads : Reads datagram .syn id frame) :
      IsAnswerTo datagram id .synFailure
  | damaged (damaged : IsDamagedSyn datagram id) : IsAnswerTo datagram id .synFailure
  | acknowledged {frame : Frame} (reads : Reads datagram .synSuccess id frame) :
      IsAnswerTo datagram id .synAckSuccess
  | repeated {frame : Frame} (reads : Reads datagram .synFailure id frame) :
      IsAnswerTo datagram id .syn
  | closed {frame : Frame} (reads : Reads datagram .synAckSuccess id frame) :
      IsAnswerTo datagram id .ack

/-- A datagram is a frame whose fields are delivered: a plain one, or the first of a handshake. -/
inductive Announces (datagram : Bytes) (source : Address) : Message → Prop where
  | plain {frame : Frame} (decoded : Frame.decode datagram = .ok frame)
      (kind : frame.kind = .plain) :
      Announces datagram source { source, id := none, fields := frame.fields }
  | first {frame : Frame} {id : UInt32} (reads : Reads datagram .syn id frame) :
      Announces datagram source { source, id := some id, fields := frame.fields }

def isSent : Effect → Bool
  | .sent _ _ _ => true
  | .delivered _ => false

/-- What comes of a datagram follows the rules. -/
structure FollowsRules (source : Address) (datagram : Bytes) (effects : List Effect) : Prop where
  one_answer : effects.countP isSent ≤ 1
  answers : ∀ target reply accepted, .sent target reply accepted ∈ effects →
    target = source ∧ ∃ id kind frame, IsAnswerTo datagram id kind ∧ Reads reply kind id frame
  one_message : effects.countP (fun effect => !isSent effect) ≤ 1
  messages : ∀ message, .delivered message ∈ effects → Announces datagram source message

section Rules

variable {engine after : Engine} {occasion : Occasion} {source : Address} {datagram : Bytes}
variable {effects : List Effect} {id : UInt32}

lemma followsRules_nil : FollowsRules source datagram [] where
  one_answer := Nat.zero_le _
  answers := by simp
  one_message := Nat.zero_le _
  messages := by simp

lemma followsRules_sent {kind : FrameKind} {reply : Bytes} {frame : Frame}
    (hasked : IsAnswerTo datagram id kind) (hreads : Reads reply kind id frame) (accepted : Bool) :
    FollowsRules source datagram [.sent source reply accepted] where
  one_answer := Nat.le_refl 1
  answers := by
    intro target bytes verdict hmem
    cases List.mem_singleton.1 hmem
    exact ⟨rfl, id, kind, frame, hasked, hreads⟩
  one_message := Nat.zero_le _
  messages := by simp

lemma followsRules_control {kind : FrameKind} (hasked : IsAnswerTo datagram id kind)
    (hkind : kind.isControl = true) (hid : id ≠ 0) (accepted : Bool) :
    FollowsRules source datagram [.sent source (encodeControl kind id) accepted] :=
  followsRules_sent hasked ⟨decode_encodeControl hkind hid, rfl, rfl⟩ accepted

lemma followsRules_delivered {message : Message} (h : Announces datagram source message) :
    FollowsRules source datagram [.delivered message] where
  one_answer := Nat.zero_le _
  answers := by simp
  one_message := Nat.le_refl 1
  messages := by
    intro other hmem
    cases List.mem_singleton.1 hmem
    exact h

lemma FollowsRules.deliver {target : Address} {reply : Bytes} {accepted : Bool} {message : Message}
    (h : FollowsRules source datagram [.sent target reply accepted])
    (hannounced : Announces datagram source message) :
    FollowsRules source datagram [.sent target reply accepted, .delivered message] where
  one_answer := Nat.le_refl 1
  answers := by
    intro other bytes verdict hmem
    refine h.answers other bytes verdict ?_
    simpa using hmem
  one_message := Nat.le_refl 1
  messages := by
    intro other hmem
    have hsame : other = message := by simpa using hmem
    exact hsame ▸ hannounced

/-- The first frame of a message that is repeated has the id of the message. -/
lemma RetryMove.followsRules {connection : ConnectionRecord} {fields : FieldMap} {frame : Frame}
    (hkey : connection.key = ⟨source, id, .sender⟩) (hkeeps : KeepsMessage fields connection)
    (hreads : Reads datagram .synFailure id frame)
    (h : RetryMove engine occasion connection after effects) :
    FollowsRules source datagram effects := by
  have hrepeats := h.repeats hkeeps
  cases h with
  | givenUp filed => exact followsRules_nil
  | repeated role status buffered written bound filed =>
    obtain ⟨bytes, accepted, hsent, hfirst⟩ := hrepeats _ (List.mem_singleton_self _)
    cases hsent
    obtain ⟨reply, hreply, -⟩ := hfirst.readsMessage
    rw [hkey] at hreply ⊢
    exact followsRules_sent (.repeated hreads) hreply _

lemma IsRejectedSyn.asks (h : IsRejectedSyn engine source datagram id) :
    IsAnswerTo datagram id .synFailure ∧ id ≠ 0 := by
  rcases h with hdamaged | ⟨frame, hreads, -⟩
  · have hbytes := isDamagedSyn_iff.1 hdamaged
    exact ⟨.damaged hbytes, hbytes.id_ne_zero⟩
  · exact ⟨.stale hreads, hreads.id_ne_zero⟩

lemma ReceiveMove.followsRules (hf : ConnectionsFiled engine.store.connections)
    (hkeeps : ∀ id record,
      engine.store.connections[(⟨source, id, .sender⟩ : ConnectionKey)]? = some record →
        ∃ fields, KeepsMessage fields record)
    (h : ReceiveMove engine occasion source datagram after effects) :
    FollowsRules source datagram effects := by
  cases h with
  | ignored same => exact followsRules_nil
  | plain decoded kind fresh same => exact followsRules_delivered (.plain decoded kind)
  | rejected invalid record waiting filed =>
    exact followsRules_control invalid.asks.1 rfl invalid.asks.2 _
  | confirmed reads record opened filed =>
    exact followsRules_control (.confirmed reads) rfl reads.id_ne_zero _
  | accepted reads record waiting fresh filed =>
    exact (followsRules_control (.confirmed reads) rfl reads.id_ne_zero _).deliver (.first reads)
  | acknowledged reads record status filed =>
    exact followsRules_control (.acknowledged reads) rfl reads.id_ne_zero _
  | retried reads record retry =>
    obtain ⟨fields, hkept⟩ := hkeeps _ _ record
    exact retry.followsRules (hf _ _ record).1 hkept reads
  | closed reads filed => exact followsRules_control (.closed reads) rfl reads.id_ne_zero _
  | finished reads record status filed => exact followsRules_nil

/-- What is neither a frame nor a damaged first frame is dropped before anything is looked up. -/
lemma receive_of_unread (engine : Engine) (occasion : Occasion) (source : Address)
    (hunread : ∀ frame, Frame.decode datagram ≠ .ok frame)
    (hundamaged : ∀ id, ¬ IsDamagedSyn datagram id) :
    engine.receive occasion source datagram = (engine, []) := by
  unfold Engine.receive
  split
  · rename_i frame hdecoded
    exact absurd hdecoded (hunread frame)
  · rename_i header expected actual hdecoded
    split
    · rename_i id hkind hid
      exact absurd (isDamagedSyn_iff.1 ⟨header, expected, actual, hdecoded, hkind, hid⟩)
        (hundamaged id)
    · rfl
  · rfl

end Rules

/-- An engine answers by the rules. After any run, whatever comes from anywhere: at most one frame is
handed to the socket, for the source and with the id that was received, of a kind that answers what was
received; at most one message is delivered, which is the one in a plain frame or in the first frame of a
handshake; and what is neither a frame nor a first frame with a wrong checksum changes nothing. -/
theorem answers_follow_rules (config : Config) (firstId : UInt32) (steps : List EngineStep)
    (occasion : Occasion) (source : Address) (datagram : Bytes) :
    let engine := ((History.starting config firstId).run steps).engine
    FollowsRules source datagram (engine.receive occasion source datagram).2 ∧
      ((∀ frame, Frame.decode datagram ≠ .ok frame) → (∀ id, ¬ IsDamagedSyn datagram id) →
        engine.receive occasion source datagram = (engine, [])) := by
  intro engine
  have hfaith := History.keepsFaith_run config firstId steps
  refine ⟨?_, receive_of_unread engine occasion source⟩
  refine (receive_move occasion hfaith.filed source datagram).followsRules
    hfaith.filed.connection ?_
  intro id record hrecord
  have hkey := (hfaith.filed.connection _ _ hrecord).1
  obtain ⟨fields, -, hkept⟩ := hfaith.senders _ _ hrecord (by rw [hkey])
  exact ⟨fields, hkept⟩

/-- Bytes with two steps of a handshake marked come in while a message waits for its answer. They change
nothing; the failure that comes in next is answered by the first frame of the message. -/
theorem answers_follow_rules_waiting :
    let far : Address := .loopback 9002
    let config : Config := { selfAddress := .loopback 9001 }
    let occasion : Occasion := ⟨0, fun _ _ => true⟩
    let steps : List EngineStep := [.send occasion far {} .reliable]
    let engine := ((History.starting config 1).run steps).engine
    let reply : Bytes := [1, 1, 0, 0, 0, 1, 0, 0, 0, 1, 0]
    engine.receive occasion far [3, 1, 0, 0, 0] = (engine, []) ∧
      (engine.receive occasion far (encodeControl .synFailure 1)).2 = [.sent far reply true] ∧
      ∃ id kind frame,
        IsAnswerTo (encodeControl .synFailure 1) id kind ∧ Reads reply kind id frame := by
  intro far config occasion steps engine reply
  have hunread : Frame.decode [3, 1, 0, 0, 0] =
      .error (.conflictingFlags { syn := true, synSuccess := true }) := by
    decide +kernel
  have hreply : (engine.receive occasion far (encodeControl .synFailure 1)).2 =
      [.sent far reply true] := by
    decide +kernel
  refine ⟨?_, hreply, ?_⟩
  · refine (answers_follow_rules config 1 steps occasion far [3, 1, 0, 0, 0]).2 ?_ ?_
    · intro frame hframe
      rw [hunread] at hframe
      cases hframe
    · intro id hdamaged
      exact absurd hdamaged.length (by decide)
  · have hrules := (answers_follow_rules config 1 steps occasion far
      (encodeControl .synFailure 1)).1
    exact (hrules.answers far reply true (hreply ▸ List.mem_singleton_self _)).2

/-- A first frame with a wrong checksum and without a timestamp, so that it would be too short with the
right one. It is answered all the same, and a record is opened for it. -/
theorem damaged_answered_if_cut :
    let near : Address := .loopback 9001
    let engine := (History.starting { selfAddress := .loopback 9002 } 1).engine
    let occasion : Occasion := ⟨0, fun _ _ => true⟩
    let cut : Bytes := [1, 1, 0, 0, 0, 1, 0, 0, 0]
    let repaired : Bytes := [1, 1, 0, 0, 0, 0, 0, 0, 0]
    Frame.decode cut =
        .error (.checksumMismatch { flags := { syn := true }, messageId := some 1 } 1 0) ∧
      Frame.decode repaired = .error .tooShort ∧
      (engine.receive occasion near cut).2 =
        [.sent near (encodeControl .synFailure 1) true] ∧
      (engine.receive occasion near cut).1 ≠ engine := by
  decide +kernel

end ReliableDatagrams.Proofs
