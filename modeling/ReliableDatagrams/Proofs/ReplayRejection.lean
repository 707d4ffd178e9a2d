import ReliableDatagrams.Proofs.Staleness

/-!
# Replays are rejected

Plain frames and first frames of a peer share one tracked timestamp. While the tracking goes on, the
frames from the peer that are delivered have growing timestamps, whatever comes in between and from
wherever: a copy of a frame is never delivered again, not even when the handshake that it belongs to
was closed and its record freed long ago.

Two things end the tracking: a sweep that finds the peer idle for its timeout, and a first frame
without timestamp that is accepted. A peer that is contacted for the first time starts with nothing
tracked, which is no exception.
-/

namespace ReliableDatagrams.Proofs

def deliveries (effects : List Effect) : List Message :=
  effects.filterMap fun effect => match effect with
    | .delivered message => some message
    | .sent _ _ _ => none

def timestamp? (datagram : Bytes) : Option UInt16 :=
  (Frame.decode datagram).toOption.bind Frame.timestamp

/-- The tracking of a peer's timestamps goes on: no sweep finds the peer idle for its timeout, and no
first frame without timestamp is accepted from there. -/
def KeepsTracking (engine : Engine) (peer : Address) : EngineStep → Prop
  | .send _ _ _ _ => True
  | .work occasion task => match task with
    | .receive source datagram => source = peer → ∀ id frame, Reads datagram .syn id frame →
        frame.timestamp = none → ¬ AcceptsAnew engine peer datagram id
    | .timeoutSweep => IsAwake engine peer occasion.now
    | .deleteSweep => True

/-- The timestamp of the frame from a peer that is delivered in a step. -/
def deliveredStamp? (engine : Engine) (peer : Address) : EngineStep → Option UInt16
  | .send _ _ _ _ => none
  | .work occasion task => match task with
    | .receive source datagram =>
      if source = peer ∧ deliveries (engine.receive occasion source datagram).2 ≠ [] then
        timestamp? datagram
      else none
    | .timeoutSweep | .deleteSweep => none

namespace History

/-- The tracking of a peer's timestamps goes on over several steps. -/
def KeepsTracking (history : History) (peer : Address) : List EngineStep → Prop
  | [] => True
  | step :: rest =>
    Proofs.KeepsTracking history.engine peer step ∧ (history.step step).KeepsTracking peer rest

/-- The timestamps of the frames from a peer that are delivered over several steps. -/
def deliveredStamps (history : History) (peer : Address) : List EngineStep → List UInt16
  | [] => []
  | step :: rest =>
    (deliveredStamp? history.engine peer step).toList ++
      (history.step step).deliveredStamps peer rest

/-- What the next frame from a peer is compared with: the timestamp that was tracked at first, and
those of all frames that were delivered since. -/
def seenStamps (history : History) (peer : Address) (steps : List EngineStep) : List UInt16 :=
  (trackedTimestamp history.engine peer).toList ++ history.deliveredStamps peer steps

end History

lemma keepsTracking_receive {engine : Engine} {peer source : Address} {occasion : Occasion}
    {datagram : Bytes} (h : stamp? datagram ≠ some none) :
    KeepsTracking engine peer (.work occasion (.receive source datagram)) := by
  rintro - id frame hr hnone -
  refine h ?_
  rw [stamp?, hr.decoded]
  simp only [hr.kind, hr.id, hnone]

section Frames

variable {engine : Engine} (occasion : Occasion) {source : Address} {datagram : Bytes}
variable {frame : Frame} {id : UInt32} {timestamp : UInt16}

/-- Only plain frames and first frames that are fresh are delivered, the latter only if their message
was not accepted before. -/
lemma deliveries_receive_cases (hw : WellFiled engine.store) :
    deliveries (engine.receive occasion source datagram).2 = [] ∨
      (∃ frame, Frame.decode datagram = .ok frame ∧ frame.kind = .plain ∧
        isFreshAfter (trackedTimestamp engine source) frame.timestamp = true) ∨
      ∃ id, AcceptsAnew engine source datagram id := by
  have hmove := receive_move occasion hw source datagram
  generalize (engine.receive occasion source datagram).1 = after at hmove
  generalize (engine.receive occasion source datagram).2 = effects at hmove ⊢
  cases hmove with
  | plain decoded kind fresh same =>
    rw [isFreshFrom_eq] at fresh
    exact Or.inr (Or.inl ⟨_, decoded, kind, fresh⟩)
  | accepted reads record waiting fresh filed =>
    exact Or.inr (Or.inr ⟨_, ⟨_, reads, fresh⟩, not_holdsAccepted_of_waiting hw record waiting⟩)
  | retried reads record retry => cases retry <;> exact Or.inl rfl
  | _ => exact Or.inl rfl

/-- A plain frame with a timestamp is delivered exactly if it is fresh. -/
lemma deliveries_receive_plain (hw : WellFiled engine.store)
    (hd : Frame.decode datagram = .ok frame) (hk : frame.kind = .plain)
    (ht : frame.timestamp = some timestamp) :
    deliveries (engine.receive occasion source datagram).2 =
      if isFreshAfter (trackedTimestamp engine source) (some timestamp) = true then
        [{ source, id := none, fields := frame.fields }]
      else [] := by
  split
  · rename_i hfresh
    rw [(receive_plain occasion hw hd hk ht hfresh).2.1]
    rfl
  · rename_i hstale
    rcases @deliveries_receive_cases engine occasion source datagram hw with hnone |
      ⟨other, hother, -, hfresh⟩ | ⟨id, ⟨other, hreads, -⟩, -⟩
    · exact hnone
    · cases hd.symm.trans hother
      exact absurd (ht ▸ hfresh) hstale
    · cases hd.symm.trans hreads.decoded
      cases hk.symm.trans hreads.kind

/-- A first frame is delivered exactly if it is fresh and its message was not accepted before. -/
lemma deliveries_receive_syn (hw : WellFiled engine.store) (hr : Reads datagram .syn id frame) :
    (isFreshAfter (trackedTimestamp engine source) frame.timestamp = true ∧
        ¬ HoldsAccepted engine source id →
      deliveries (engine.receive occasion source datagram).2 =
        [{ source, id := some id, fields := frame.fields }]) ∧
    (¬ (isFreshAfter (trackedTimestamp engine source) frame.timestamp = true ∧
        ¬ HoldsAccepted engine source id) →
      deliveries (engine.receive occasion source datagram).2 = []) := by
  constructor
  · rintro ⟨hfresh, hnew⟩
    obtain ⟨-, heffects, -⟩ := receive_syn occasion hw hr
      (waiting_of_not_holdsAccepted hw hnew) hfresh
    rw [heffects]
    rfl
  · intro hother
    rcases @deliveries_receive_cases engine occasion source datagram hw with hnone |
      ⟨plain, hplain, hkind, -⟩ | ⟨other, ⟨syn, hreads, hfresh⟩, hnew⟩
    · exact hnone
    · cases hr.decoded.symm.trans hplain
      cases hr.kind.symm.trans hkind
    · cases hr.decoded.symm.trans hreads.decoded
      cases hr.id.symm.trans hreads.id
      rw [isFreshFrom_eq] at hfresh
      exact absurd ⟨hfresh, hnew⟩ hother

lemma tracked_acceptTimestamp_of_stale {now : Nat}
    (hw : PeersFiled engine.store.peers)
    (hstale : isFreshAfter (trackedTimestamp engine source) (some timestamp) = false) :
    trackedTimestamp (engine.acceptTimestamp now source (some timestamp)).1 source =
      trackedTimestamp engine source := by
  have hbehind : (peerOrNew engine.store now source).isFresh timestamp = false := by
    rw [← lastTimestamp_peerOrNew engine now source] at hstale
    unfold PeerRecord.isFresh
    cases hlast : (peerOrNew engine.store now source).lastTimestamp with
    | none =>
      rw [hlast] at hstale
      cases hstale
    | some last => simpa [isFreshAfter, hlast] using hstale
  have hkept : (peerOrNew engine.store now source).accept timestamp =
      (peerOrNew engine.store now source, false) := by
    rw [PeerRecord.accept, hbehind]
    rfl
  have hpeers := peers_withPeer engine now source (fun peer => peer.accept timestamp) (by
    rw [hkept]
    exact (peerOrNew_filed hw now source).1)
  refine (trackedTimestamp_insert hpeers source).trans ?_
  rw [if_pos rfl, hkept]
  exact lastTimestamp_peerOrNew engine now source

/-- A stale first frame leaves the tracking alone, whether its message was accepted before or not. -/
lemma tracked_receiveSyn_of_stale (hw : PeersFiled engine.store.peers)
    (hstale : isFreshAfter (trackedTimestamp engine source) (some timestamp) = false)
    (fields : FieldMap) :
    trackedTimestamp (engine.receiveSyn occasion source id (some timestamp) fields).1 source =
      trackedTimestamp engine source := by
  let opened : Engine := { engine with store :=
    (engine.store.connectionOrInsert occasion.now ⟨source, id, .receiver⟩).1 }
  have hsame : opened.store.peers = engine.store.peers := peers_connectionOrInsert _ _ _
  have htracked : trackedTimestamp opened source = trackedTimestamp engine source :=
    (timestamps_of_peers hsame source).1
  have hrejected := @tracked_acceptTimestamp_of_stale opened source timestamp occasion.now
    (by rwa [hsame]) (by rwa [htracked])
  unfold Engine.receiveSyn
  dsimp only
  split
  · exact (timestamps_of_peers (peers_transmit _ _ _ _) source).1.trans htracked
  · split
    · rename_i tracked hr
      rw [hr] at hrejected
      exact (timestamps_of_peers (peers_rejectSyn occasion _ _) source).1.trans
        (hrejected.trans htracked)
    · rename_i tracked hr
      have hfresh := (@acceptTimestamp_eq opened occasion.now source (some timestamp)).2
      rw [isFreshFrom_eq, htracked, hstale, hr] at hfresh
      cases hfresh

lemma tracked_receive_of_stale (hw : WellFiled engine.store)
    (hd : Frame.decode datagram = .ok frame) (ht : frame.timestamp = some timestamp)
    (hkind : frame.kind = .plain ∨ ∃ id, Reads datagram .syn id frame)
    (hstale : isFreshAfter (trackedTimestamp engine source) (some timestamp) = false) :
    trackedTimestamp (engine.receive occasion source datagram).1 source =
      trackedTimestamp engine source := by
  have htouched := wellFiled_touchPeer hw occasion.now source
  have hsame : trackedTimestamp (engine.touchPeer occasion.now source) source =
      trackedTimestamp engine source :=
    ((retracks_touchPeer hw occasion.now source).tracked source).trans (if_pos rfl)
  rw [← hsame] at hstale ⊢
  rw [receive_of_decode occasion hd]
  rcases hkind with hplain | ⟨id, hsyn⟩
  · rw [Engine.receiveFrame, hplain, ht]
    exact tracked_acceptTimestamp_of_stale htouched.peer hstale
  · rw [receiveFrame_of_reads occasion hsyn, ht]
    exact tracked_receiveSyn_of_stale occasion htouched.peer hstale _

end Frames

/-- The tracking of a peer's timestamps goes on to a fresh one, if there is any. -/
structure Tracks (engine after : Engine) (peer : Address) (stamp : Option UInt16) : Prop where
  tracked : trackedTimestamp after peer = stamp.or (trackedTimestamp engine peer)
  fresh : ∀ timestamp, stamp = some timestamp →
    isFreshAfter (trackedTimestamp engine peer) (some timestamp) = true

section Steps

variable {engine after : Engine} {peer : Address}

lemma tracks_none (h : trackedTimestamp after peer = trackedTimestamp engine peer) :
    Tracks engine after peer none :=
  ⟨h, nofun⟩

lemma deliveredStamp?_of_unstamped (occasion : Occasion) {datagram : Bytes}
    (h : timestamp? datagram = none) :
    deliveredStamp? engine peer (.work occasion (.receive peer datagram)) = none := by
  simp [deliveredStamp?, h]

lemma deliveredStamp?_of_silent (occasion : Occasion) {datagram : Bytes}
    (h : deliveries (engine.receive occasion peer datagram).2 = []) :
    deliveredStamp? engine peer (.work occasion (.receive peer datagram)) = none := by
  simp [deliveredStamp?, h]

lemma deliveredStamp?_of_delivered (occasion : Occasion) {datagram : Bytes}
    (h : deliveries (engine.receive occasion peer datagram).2 ≠ []) :
    deliveredStamp? engine peer (.work occasion (.receive peer datagram)) =
      timestamp? datagram := by
  simp [deliveredStamp?, h]

lemma timestamp?_of_decode {datagram : Bytes} {frame : Frame}
    (hd : Frame.decode datagram = .ok frame) : timestamp? datagram = frame.timestamp := by
  rw [timestamp?, hd]
  rfl

/-- A datagram that has no part in the tracking delivers no timestamp. -/
lemma deliveredStamp?_of_stamp? {datagram : Bytes} (hw : WellFiled engine.store) (occasion : Occasion)
    (h : stamp? datagram = none) :
    deliveredStamp? engine peer (.work occasion (.receive peer datagram)) = none := by
  rcases @deliveries_receive_cases engine occasion peer datagram hw with hnone |
    ⟨frame, hd, hkind, -⟩ | ⟨id, ⟨frame, hr, -⟩, -⟩
  · exact deliveredStamp?_of_silent occasion hnone
  · rw [stamp?, hd] at h
    apply deliveredStamp?_of_unstamped
    rw [timestamp?_of_decode hd]
    simpa [hkind] using h
  · rw [stamp?, hr.decoded] at h
    simp [hr.kind, hr.id] at h

lemma tracks_receive_plain (hw : WellFiled engine.store) (occasion : Occasion) {datagram : Bytes}
    {frame : Frame} {timestamp : UInt16} (hd : Frame.decode datagram = .ok frame)
    (hplain : frame.kind = .plain) (ht : frame.timestamp = some timestamp) :
    Tracks engine (engine.receive occasion peer datagram).1 peer
      (deliveredStamp? engine peer (.work occasion (.receive peer datagram))) := by
  have hdelivered := @deliveries_receive_plain _ occasion peer _ _ _ hw hd hplain ht
  by_cases hfresh : isFreshAfter (trackedTimestamp engine peer) (some timestamp) = true
  · rw [if_pos hfresh] at hdelivered
    obtain ⟨-, -, htracked⟩ := receive_plain occasion hw hd hplain ht hfresh
    rw [deliveredStamp?_of_delivered occasion (by simp [hdelivered]), timestamp?_of_decode hd, ht]
    refine ⟨?_, fun _ hsome => hsome ▸ hfresh⟩
    rw [htracked.tracked peer, if_pos rfl]
    rfl
  · rw [if_neg hfresh] at hdelivered
    rw [deliveredStamp?_of_silent occasion hdelivered]
    exact tracks_none (tracked_receive_of_stale occasion hw hd ht (Or.inl hplain) (by simpa using hfresh))

lemma tracks_receive_syn (hw : WellFiled engine.store) (occasion : Occasion) {datagram : Bytes}
    {frame : Frame} {id : UInt32} {timestamp : UInt16} (hr : Reads datagram .syn id frame)
    (ht : frame.timestamp = some timestamp) :
    Tracks engine (engine.receive occasion peer datagram).1 peer
      (deliveredStamp? engine peer (.work occasion (.receive peer datagram))) := by
  obtain ⟨hdelivered, hsilent⟩ := @deliveries_receive_syn _ occasion peer _ _ _ hw hr
  by_cases hheld : HoldsAccepted engine peer id
  · rw [deliveredStamp?_of_silent occasion (hsilent fun hnew => hnew.2 hheld)]
    exact tracks_none (receive_of_held occasion hw hr hheld).2
  · by_cases hfresh : isFreshAfter (trackedTimestamp engine peer) frame.timestamp = true
    · have hmessage := hdelivered ⟨hfresh, hheld⟩
      obtain ⟨-, -, htracked⟩ := receive_syn occasion hw hr
        (waiting_of_not_holdsAccepted hw hheld) hfresh
      rw [deliveredStamp?_of_delivered occasion (by simp [hmessage]),
        timestamp?_of_decode hr.decoded, ht]
      refine ⟨?_, fun _ hsome => hsome ▸ ht ▸ hfresh⟩
      rw [htracked.tracked peer, if_pos rfl, ht]
      rfl
    · rw [deliveredStamp?_of_silent occasion (hsilent fun hnew => hfresh hnew.1)]
      refine tracks_none (tracked_receive_of_stale occasion hw hr.decoded ht (Or.inr ⟨id, hr⟩) ?_)
      rwa [ht, Bool.not_eq_true] at hfresh

/-- While the tracking goes on, a frame from the peer is tracked exactly if it has a timestamp and is
delivered. -/
lemma tracks_receive (hk : KeepsOwn engine) (occasion : Occasion) {datagram : Bytes}
    (hkeeps : KeepsTracking engine peer (.work occasion (.receive peer datagram))) :
    Tracks engine (engine.receive occasion peer datagram).1 peer
      (deliveredStamp? engine peer (.work occasion (.receive peer datagram))) := by
  have hw := hk.filed
  cases hstamp : stamp? datagram with
  | none =>
    rw [deliveredStamp?_of_stamp? hw occasion hstamp]
    exact tracks_none (tracked_receive occasion hw hk.buffers fun _ => hstamp)
  | some stamp =>
    obtain ⟨frame, hd, rfl, ⟨hplain, timestamp, ht⟩ | ⟨id, hr⟩⟩ := frame_of_stamp? hstamp
    · exact tracks_receive_plain hw occasion hd hplain ht
    · cases ht : frame.timestamp with
      | some timestamp => exact tracks_receive_syn hw occasion hr ht
      | none =>
        -- the message was accepted before, for otherwise the tracking would start anew
        have hheld : HoldsAccepted engine peer id := by
          by_contra hnew
          exact hkeeps rfl id frame hr ht ⟨⟨frame, hr, by rw [ht]; rfl⟩, hnew⟩
        rw [deliveredStamp?_of_unstamped occasion ((timestamp?_of_decode hd).trans ht)]
        exact tracks_none (receive_of_held occasion hw hr hheld).2

/-- What goes on between an engine and other peers makes no difference, nor does what the engine sends
or sweeps. -/
lemma tracks_step {history : History} (hk : KeepsOwn history.engine) {step : EngineStep}
    (hkeeps : KeepsTracking history.engine peer step) :
    Tracks history.engine (history.step step).engine peer
      (deliveredStamp? history.engine peer step) := by
  cases step with
  | send occasion target fields delivery =>
    exact tracks_none (timestamps_send hk.filed occasion target fields delivery peer).1
  | work occasion task =>
    cases task with
    | receive source datagram =>
      by_cases hsource : source = peer
      · subst hsource
        exact tracks_receive hk occasion hkeeps
      · have hnone : deliveredStamp? history.engine peer
            (.work occasion (.receive source datagram)) = none :=
          if_neg fun h => hsource h.1
        rw [hnone]
        exact tracks_none (tracked_receive occasion hk.filed hk.buffers
          fun h => absurd h hsource)
    | timeoutSweep => exact tracks_none (tracked_timeoutSweep hk occasion hkeeps)
    | deleteSweep => exact tracks_none rfl

end Steps

namespace History

section Runs

variable {history : History} {peer : Address}

lemma keepsOwn_run (hk : KeepsOwn history.engine) (steps : List EngineStep) :
    KeepsOwn (history.run steps).engine :=
  (@run_induction history (fun history => KeepsOwn history.engine)
    (fun _ hkeeps hmove => hkeeps.move hmove) hk.filed hk steps).2

lemma KeepsTracking.of_append {before after : List EngineStep}
    (h : history.KeepsTracking peer (before ++ after)) :
    history.KeepsTracking peer before ∧ (history.run before).KeepsTracking peer after := by
  induction before generalizing history with
  | nil => exact ⟨trivial, h⟩
  | cons step rest ih => exact ⟨⟨h.1, (ih h.2).1⟩, (ih h.2).2⟩

lemma deliveredStamps_append (before after : List EngineStep) :
    history.deliveredStamps peer (before ++ after) =
      history.deliveredStamps peer before ++ (history.run before).deliveredStamps peer after := by
  induction before generalizing history with
  | nil => rfl
  | cons step rest ih =>
    rw [List.cons_append, deliveredStamps, ih, deliveredStamps, List.append_assoc]
    rfl

lemma forall_lt_iff_isFreshAfter {seen : List UInt16} (hgrow : seen.Pairwise (· < ·))
    (timestamp : UInt16) :
    (∀ earlier ∈ seen, earlier < timestamp) ↔
      isFreshAfter seen.getLast? (some timestamp) = true := by
  induction seen using List.reverseRecOn with
  | nil => simp [isFreshAfter]
  | append_singleton seen last ih =>
    simp only [List.pairwise_append, List.mem_singleton, forall_eq] at hgrow
    simp only [isFreshAfter, List.getLast?_append, List.getLast?_singleton, Option.some_or,
      Option.all_some, decide_eq_true_eq]
    constructor
    · intro hall
      exact hall last (by simp)
    · intro hlast earlier hearlier
      rcases List.mem_append.1 hearlier with hearlier | hearlier
      · exact UInt16.lt_trans (hgrow.2.2 earlier hearlier) hlast
      · rw [List.mem_singleton.1 hearlier]
        exact hlast

/-- While the tracking goes on, the timestamps that are seen grow, and the last of them is tracked. -/
lemma seenStamps_grow (hk : KeepsOwn history.engine) {steps : List EngineStep}
    (hkeeps : history.KeepsTracking peer steps) :
    (history.seenStamps peer steps).Pairwise (· < ·) ∧
      (history.seenStamps peer steps).getLast? =
        trackedTimestamp (history.run steps).engine peer := by
  induction steps using List.reverseRecOn with
  | nil =>
    unfold seenStamps deliveredStamps
    rw [List.append_nil]
    rw [show history.run [] = history from rfl]
    cases trackedTimestamp history.engine peer with
    | none => exact ⟨.nil, rfl⟩
    | some last => exact ⟨List.pairwise_singleton _ _, rfl⟩
  | append_singleton steps step ih =>
    obtain ⟨hearlier, hstep, -⟩ := hkeeps.of_append
    obtain ⟨hgrow, hlast⟩ := ih hearlier
    obtain ⟨htracked, hfresh⟩ := tracks_step (keepsOwn_run hk steps) hstep
    have hseen : history.seenStamps peer (steps ++ [step]) = history.seenStamps peer steps ++
        (deliveredStamp? (history.run steps).engine peer step).toList := by
      unfold seenStamps
      rw [deliveredStamps_append, List.append_assoc]
      simp only [deliveredStamps, List.append_nil]
    rw [hseen, run_append, show ∀ history : History, history.run [step] = history.step step
      from fun _ => rfl, htracked]
    cases hstamp : deliveredStamp? (history.run steps).engine peer step with
    | none =>
      rw [Option.toList_none, List.append_nil, Option.none_or]
      exact ⟨hgrow, hlast⟩
    | some stamp =>
      have hnewer := hfresh stamp hstamp
      rw [← hlast, ← forall_lt_iff_isFreshAfter hgrow] at hnewer
      rw [Option.toList_some, Option.some_or]
      refine ⟨?_, List.getLast?_concat⟩
      rw [List.pairwise_append]
      refine ⟨hgrow, List.pairwise_singleton _ _, ?_⟩
      intro earlier hearlier later hlater
      rw [List.mem_singleton.1 hlater]
      exact hnewer earlier hearlier

end Runs

/-- A condition decides whether a message is delivered. -/
def DeliversIf (condition : Prop) (message : Message) (effects : List Effect) : Prop :=
  (condition → deliveries effects = [message]) ∧ (¬ condition → deliveries effects = [])

/-- While the tracking of a peer's timestamps goes on, the timestamps of the frames that are delivered
grow. A plain frame with a timestamp is delivered exactly if its timestamp is greater than all that
were seen before, a first frame exactly if moreover no record says that its message was accepted. So
of two copies of a frame, the second is not delivered after the first. -/
theorem replays_rejected (config : Config) (firstId : UInt32) (before stretch : List EngineStep)
    (peer : Address)
    (hkeeps : ((starting config firstId).run before).KeepsTracking peer stretch) :
    let start := (starting config firstId).run before
    (start.deliveredStamps peer stretch).Pairwise (· < ·) ∧
      (∀ done occasion datagram later frame timestamp,
        stretch = done ++ .work occasion (.receive peer datagram) :: later →
        Frame.decode datagram = .ok frame → frame.timestamp = some timestamp →
          let engine := (start.run done).engine
          let effects := (engine.receive occasion peer datagram).2
          let isNew := ∀ earlier ∈ start.seenStamps peer done, earlier < timestamp
          (frame.kind = .plain →
            DeliversIf isNew { source := peer, id := none, fields := frame.fields } effects) ∧
          ∀ id, frame.kind = .syn → frame.header.messageId = some id →
            DeliversIf (isNew ∧ ¬ HoldsAccepted engine peer id)
              { source := peer, id := some id, fields := frame.fields } effects) ∧
      ∀ done between later first second datagram,
        stretch = done ++ .work first (.receive peer datagram) ::
          (between ++ .work second (.receive peer datagram) :: later) →
        timestamp? datagram ≠ none →
        deliveries ((start.run done).engine.receive first peer datagram).2 ≠ [] →
          deliveries ((start.run (done ++ .work first (.receive peer datagram) ::
            between)).engine.receive second peer datagram).2 = [] := by
  intro start
  have hk : KeepsOwn start.engine := keepsOwn_run (keepsOwn_starting config firstId) before
  -- what is fresh at one time is newer than all that was seen until then
  have hnew : ∀ done later, stretch = done ++ later → ∀ timestamp,
      (∀ earlier ∈ start.seenStamps peer done, earlier < timestamp) ↔
        isFreshAfter (trackedTimestamp (start.run done).engine peer) (some timestamp) = true := by
    rintro done later rfl timestamp
    obtain ⟨hgrow, hlast⟩ := seenStamps_grow hk hkeeps.of_append.1
    rw [forall_lt_iff_isFreshAfter hgrow, hlast]
  refine ⟨?_, ?_, ?_⟩
  · exact (List.pairwise_append.1 (seenStamps_grow hk hkeeps).1).2.1
  · intro done occasion datagram later frame timestamp hsplit hd ht engine effects isNew
    have hw := (keepsOwn_run hk done).filed
    have hfresh := hnew done _ hsplit timestamp
    refine ⟨?_, ?_⟩
    · intro hplain
      have hdelivered := @deliveries_receive_plain _ occasion peer _ _ _ hw hd hplain ht
      refine ⟨fun h => ?_, fun h => ?_⟩
      · exact hdelivered.trans (if_pos (hfresh.1 h))
      · exact hdelivered.trans (if_neg fun hstale => h (hfresh.2 hstale))
    · intro id hsyn hid
      obtain ⟨hdelivered, hsilent⟩ := @deliveries_receive_syn _ occasion peer _ _ _ hw ⟨hd, hsyn, hid⟩
      rw [ht, ← hfresh] at hdelivered hsilent
      exact ⟨hdelivered, hsilent⟩
  · rintro done between later first second datagram rfl hstamped hfirst
    by_contra hsecond
    obtain ⟨stamp, hstamp⟩ := Option.ne_none_iff_exists'.1 hstamped
    have hgrow := (List.pairwise_append.1 (seenStamps_grow hk hkeeps).1).2.1
    rw [deliveredStamps_append, deliveredStamps, deliveredStamps_append, deliveredStamps,
      deliveredStamp?_of_delivered first hfirst, hstamp] at hgrow
    have hagain : deliveredStamp? (((start.run done).step
        (.work first (.receive peer datagram))).run between).engine peer
          (.work second (.receive peer datagram)) = some stamp := by
      rw [← hstamp]
      apply deliveredStamp?_of_delivered
      rwa [run_append] at hsecond
    rw [hagain] at hgrow
    have hless : stamp < stamp :=
      (List.pairwise_append.1 (List.pairwise_append.1 hgrow).2.1).2.2 stamp (by simp) stamp (by simp)
    exact UInt16.lt_irrefl _ hless

/-- A first frame comes again after its handshake was closed and the record freed. -/
theorem replays_rejected_after_close :
    let peer : Address := .loopback 9001
    let early : Occasion := ⟨0, fun _ _ => true⟩
    let late : Occasion := ⟨3000, fun _ _ => true⟩
    let syn : Bytes := [1, 1, 0, 0, 0, 1, 0, 0, 0, 1, 0]
    let start := (starting { selfAddress := .loopback 9002 } 1).run
      [.work early (.receive peer [0, 0, 0, 0, 0, 0, 0])]
    let done : List EngineStep := [.work early (.receive peer syn),
      .work early (.receive peer (encodeControl .synAckSuccess 1)), .work late .deleteSweep,
      .work late .timeoutSweep]
    start.KeepsTracking peer (done ++ [.work late (.receive peer syn)]) ∧
      start.seenStamps peer done = [0, 1] ∧
      (start.run done).engine.store.connections.isEmpty ∧
      deliveries ((start.run done).engine.receive late peer syn).2 = [] := by
  intro peer early late syn start done
  have hkeeps : start.KeepsTracking peer (done ++ [.work late (.receive peer syn)]) := by
    refine ⟨?_, ?_, trivial, isAwake_of_all (by decide +kernel) peer, ?_, trivial⟩
    · exact keepsTracking_receive (by decide +kernel)
    · exact keepsTracking_receive (by decide +kernel)
    · exact keepsTracking_receive (by decide +kernel)
  refine ⟨hkeeps, by decide +kernel, by decide +kernel, ?_⟩
  exact (replays_rejected _ _ _ _ peer hkeeps).2.2 [] _ [] early late syn rfl (by decide +kernel)
    (by decide +kernel)

end History

end ReliableDatagrams.Proofs
