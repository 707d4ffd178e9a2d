import ReliableDatagrams.Proofs.Restarts

/-!
# Resets that are ignored

A first frame without timestamp makes its receiver forget what it tracks for the sender, before small
numbers come again. This only happens when the message is accepted. A first frame that is repeated gets
the next number of the counter, and if that is the last one, it is the repetition that goes without
timestamp. A receiver that has accepted the message confirms it once more and goes on to track what it
has tracked: `reset_effective_iff` says when that is, `reset_ignored` is such a run.
-/

namespace ReliableDatagrams.Proofs

/-- No frame with a timestamp comes in from a peer. -/
def HearsUnstamped (peer : Address) : EngineStep → Prop
  | .send _ _ _ _ => True
  | .work _ task => match task with
    | .receive source datagram => source = peer → timestamp? datagram = none
    | .timeoutSweep | .deleteSweep => True

/-- A frame with a timestamp from a peer is accepted, whichever timestamp that is. A plain frame is
delivered, and so is a first frame of a message that was not accepted before; any first frame is
confirmed. -/
structure AcceptsAnyStamp (engine : Engine) (peer : Address) : Prop where
  plain : ∀ occasion datagram frame timestamp, Frame.decode datagram = .ok frame →
    frame.kind = .plain → frame.timestamp = some timestamp →
      deliveries (engine.receive occasion peer datagram).2 =
        [{ source := peer, id := none, fields := frame.fields }]
  first : ∀ occasion datagram id frame timestamp, Reads datagram .syn id frame →
    frame.timestamp = some timestamp →
      (¬ HoldsAccepted engine peer id →
        deliveries (engine.receive occasion peer datagram).2 =
          [{ source := peer, id := some id, fields := frame.fields }]) ∧
      Effect.sent peer (encodeControl .synSuccess id)
          (occasion.accepts peer (encodeControl .synSuccess id)) ∈
        (engine.receive occasion peer datagram).2

section Steps

variable {engine : Engine} {peer : Address}

/-- A first frame without timestamp ends the tracking, unless its message was accepted before. -/
lemma tracked_receive_unstamped (hw : WellFiled engine.store) (occasion : Occasion)
    {datagram : Bytes} {id : UInt32} {frame : Frame} (hr : Reads datagram .syn id frame)
    (hunstamped : frame.timestamp = none) :
    (HoldsAccepted engine peer id →
      trackedTimestamp (engine.receive occasion peer datagram).1 peer =
        trackedTimestamp engine peer) ∧
    (¬ HoldsAccepted engine peer id →
      trackedTimestamp (engine.receive occasion peer datagram).1 peer = none) := by
  constructor
  · intro hheld
    exact (receive_of_held occasion hw hr hheld).2
  · intro hnew
    have hfresh : isFreshAfter (trackedTimestamp engine peer) frame.timestamp = true := by
      rw [hunstamped]
      rfl
    obtain ⟨-, -, htracked⟩ :=
      receive_syn occasion hw hr (waiting_of_not_holdsAccepted hw hnew) hfresh
    rw [htracked.tracked peer, if_pos rfl, hunstamped]

lemma untracked_receive (hk : KeepsOwn engine) (occasion : Occasion) {datagram : Bytes}
    (hnone : trackedTimestamp engine peer = none) (hunstamped : timestamp? datagram = none) :
    trackedTimestamp (engine.receive occasion peer datagram).1 peer = none := by
  cases hstamp : stamp? datagram with
  | none => rw [tracked_receive occasion hk.filed hk.buffers fun _ => hstamp, hnone]
  | some stamp =>
    obtain ⟨frame, hd, rfl, ⟨-, timestamp, htimestamp⟩ | ⟨id, hr⟩⟩ := frame_of_stamp? hstamp
    · rw [timestamp?_of_decode hd, htimestamp] at hunstamped
      cases hunstamped
    · rw [timestamp?_of_decode hd] at hunstamped
      obtain ⟨hheld, hnew⟩ := @tracked_receive_unstamped _ peer hk.filed occasion _ _ _ hr hunstamped
      by_cases hholds : HoldsAccepted engine peer id
      · rw [hheld hholds, hnone]
      · exact hnew hholds

/-- What is not tracked stays so until a frame with a timestamp comes in. -/
lemma untracked_step {history : History} (hk : KeepsOwn history.engine) {step : EngineStep}
    (hnone : trackedTimestamp history.engine peer = none) (hhears : HearsUnstamped peer step) :
    trackedTimestamp (history.step step).engine peer = none := by
  cases step with
  | send occasion target fields delivery =>
    exact (timestamps_send hk.filed occasion target fields delivery peer).1.trans hnone
  | work occasion task =>
    cases task with
    | receive source datagram =>
      by_cases hsource : source = peer
      · subst hsource
        exact untracked_receive hk occasion hnone (hhears rfl)
      · exact (tracked_receive occasion hk.filed hk.buffers fun h => absurd h hsource).trans hnone
    | timeoutSweep =>
      by_cases hawake : IsAwake history.engine peer occasion.now
      · exact (tracked_timeoutSweep hk occasion hawake).trans hnone
      · exact tracked_timeoutSweep_of_idle hk occasion hawake
    | deleteSweep => exact hnone

lemma untracked_run {history : History} (hk : KeepsOwn history.engine) {steps : List EngineStep}
    (hnone : trackedTimestamp history.engine peer = none)
    (hhears : ∀ step ∈ steps, HearsUnstamped peer step) :
    trackedTimestamp (history.run steps).engine peer = none := by
  induction steps generalizing history with
  | nil => exact hnone
  | cons step rest ih =>
    rw [List.forall_mem_cons] at hhears
    have hnext : KeepsOwn (history.step step).engine := History.keepsOwn_run hk [step]
    exact ih hnext (untracked_step hk hnone hhears.1) hhears.2

lemma acceptsAnyStamp_of_untracked (hw : WellFiled engine.store)
    (hnone : trackedTimestamp engine peer = none) : AcceptsAnyStamp engine peer := by
  have hfresh : ∀ stamp : Option UInt16,
      isFreshAfter (trackedTimestamp engine peer) stamp = true := by
    intro stamp
    rw [hnone]
    cases stamp <;> rfl
  constructor
  · intro occasion datagram frame timestamp hd hkind ht
    rw [deliveries_receive_plain occasion hw hd hkind ht, if_pos (hfresh _)]
  · intro occasion datagram id frame timestamp hr _
    refine ⟨fun hnew => (deliveries_receive_syn occasion hw hr).1 ⟨hfresh _, hnew⟩, ?_⟩
    by_cases hheld : HoldsAccepted engine peer id
    · rw [(receive_of_held occasion hw hr hheld).1]
      exact List.mem_singleton_self _
    · obtain ⟨-, heffects, -⟩ :=
        receive_syn occasion hw hr (waiting_of_not_holdsAccepted hw hheld) (hfresh _)
      rw [heffects]
      exact List.mem_cons_self

end Steps

/-- A first frame without timestamp comes in, after any run. If its message was not accepted before,
nothing is tracked for the peer any more, and the next frame with a timestamp is accepted whatever comes
in between. If it was, the frame leaves the tracking alone, and a plain frame that comes next is
delivered exactly if it is newer than what was tracked before. -/
theorem reset_effective_iff (config : Config) (firstId : UInt32) (before : List EngineStep)
    (occasion : Occasion) (peer : Address) {datagram : Bytes} {id : UInt32} {frame : Frame}
    (hr : Reads datagram .syn id frame) (hunstamped : frame.timestamp = none) :
    let engine := ((History.starting config firstId).run before).engine
    let reset := (History.starting config firstId).run
      (before ++ [.work occasion (.receive peer datagram)])
    (trackedTimestamp reset.engine peer = none ↔
      ¬ HoldsAccepted engine peer id ∨ trackedTimestamp engine peer = none) ∧
    (trackedTimestamp reset.engine peer = none →
      ∀ since, (∀ step ∈ since, HearsUnstamped peer step) →
        AcceptsAnyStamp (reset.run since).engine peer) ∧
    (HoldsAccepted engine peer id →
      trackedTimestamp reset.engine peer = trackedTimestamp engine peer ∧
      ∀ later next plain timestamp, Frame.decode next = .ok plain → plain.kind = .plain →
        plain.timestamp = some timestamp →
          History.DeliversIf (isFreshAfter (trackedTimestamp engine peer) (some timestamp) = true)
            { source := peer, id := none, fields := plain.fields }
            (reset.engine.receive later peer next).2) := by
  intro engine reset
  have hk : KeepsOwn engine :=
    History.keepsOwn_run (keepsOwn_starting config firstId) before
  have hreset : reset.engine = (engine.receive occasion peer datagram).1 := by
    unfold reset
    rw [History.run_append]
    rfl
  have hkept : KeepsOwn reset.engine :=
    History.keepsOwn_run (keepsOwn_starting config firstId) _
  obtain ⟨hheld, hnew⟩ := @tracked_receive_unstamped _ peer hk.filed occasion _ _ _ hr hunstamped
  rw [← hreset] at hheld hnew
  refine ⟨?_, ?_, ?_⟩
  · by_cases hholds : HoldsAccepted engine peer id
    · rw [hheld hholds]
      exact ⟨Or.inr, fun h => h.resolve_left fun hnot => hnot hholds⟩
    · exact iff_of_true (hnew hholds) (Or.inl hholds)
  · intro hnone since hhears
    exact acceptsAnyStamp_of_untracked (History.keepsOwn_run hkept since).filed
      (untracked_run hkept hnone hhears)
  · intro hholds
    refine ⟨hheld hholds, ?_⟩
    intro later next plain timestamp hd hkind ht
    have hdelivered := @deliveries_receive_plain _ later peer _ _ _ hkept.filed hd hkind ht
    rw [hheld hholds] at hdelivered
    exact ⟨fun h => hdelivered.trans (if_pos h), fun h => hdelivered.trans (if_neg h)⟩

/-- After a plain frame a message comes without timestamp. A small number is accepted again. -/
theorem reset_effective_of_first :
    let config : Config := { selfAddress := .loopback 9002 }
    let peer : Address := .loopback 9001
    let occasion : Occasion := ⟨0, fun _ _ => true⟩
    let before : List EngineStep := [.work occasion (.receive peer [0, 0xfd, 1, 0, 0, 0xfe, 0xff])]
    let reset : Bytes := [0x21, 1, 0, 0, 0, 0, 0, 0, 0]
    let engine := ((History.starting config 1).run
      (before ++ [.work occasion (.receive peer reset)])).engine
    trackedTimestamp ((History.starting config 1).run before).engine peer = some 65534 ∧
      trackedTimestamp engine peer = none ∧
      deliveries (engine.receive occasion peer [0, 0, 0, 0, 0, 0, 0]).2 =
        [{ source := peer, id := none, fields := {} }] := by
  intro config peer occasion before reset engine
  let frame : Frame :=
    { header := { flags := { syn := true, ignoreTimestamp := true }, messageId := some 1 }
      kind := .syn, timestamp := none, fields := {} }
  have hr : Reads reset .syn 1 frame := by
    constructor <;> decide +kernel
  obtain ⟨-, hany, -⟩ := reset_effective_iff config 1 before occasion peer hr rfl
  have hnone : trackedTimestamp engine peer = none := by decide +kernel
  have haccepts := hany hnone [] (fun step hmem => absurd hmem List.not_mem_nil)
  refine ⟨by decide +kernel, hnone, ?_⟩
  exact haccepts.plain occasion _
    { header := { flags := {}, messageId := none }, kind := .plain, timestamp := some 0
      fields := {} } 0 (by decide +kernel) rfl rfl

/-- A message with a timestamp near the end of the counter is accepted, and repeated without timestamp.
The tracking goes on, and the next plain frame, which has the number 0, is not delivered. -/
theorem reset_ignored :
    let config : Config := { selfAddress := .loopback 9002 }
    let peer : Address := .loopback 9001
    let occasion : Occasion := ⟨0, fun _ _ => true⟩
    let syn : Bytes := [1, 1, 0, 0, 0, 0xfd, 1, 0, 0, 0xfe, 0xff]
    let reset : Bytes := [0x21, 1, 0, 0, 0, 0, 0, 0, 0]
    let engine := ((History.starting config 1).run [.work occasion (.receive peer syn),
      .work occasion (.receive peer reset)]).engine
    (∃ frame, Reads reset .syn 1 frame ∧ frame.timestamp = none) ∧
      trackedTimestamp engine peer = some 65534 ∧
      deliveries (engine.receive occasion peer [0, 0, 0, 0, 0, 0, 0]).2 = [] := by
  intro config peer occasion syn reset engine
  let frame : Frame :=
    { header := { flags := { syn := true, ignoreTimestamp := true }, messageId := some 1 }
      kind := .syn, timestamp := none, fields := {} }
  have hr : Reads reset .syn 1 frame := by
    constructor <;> decide +kernel
  exact ⟨⟨frame, hr, rfl⟩, by decide +kernel, by decide +kernel⟩

end ReliableDatagrams.Proofs
