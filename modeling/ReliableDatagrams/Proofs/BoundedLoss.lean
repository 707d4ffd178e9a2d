import Mathlib.Data.List.Infix
import ReliableDatagrams.Proofs.OnceDelivered

/-!
# Delivery in spite of losses

Every timeout of a sender puts one more copy of a first frame on its way, under a new timestamp. As long
as the message was not delivered, none of the copies has arrived, so that each of them is still on its
way or was lost. A network that loses no more copies than there were timeouts has thus one left that
arrives; and it is accepted, since on a network that keeps the order every copy is fresh. From then on
the message is one that was delivered once.
-/

namespace ReliableDatagrams.Proofs

/-- A step of which there may be any number at any time: no sweep, and the clock of the source stands
still. -/
def OrderedStep.IsFree (source : Address) : OrderedStep → Prop
  | .send _ _ _ _ accepts | .arrive _ _ accepts => ∀ target bytes, accepts target bytes = true
  | .lose _ _ | .deleteSweep _ => True
  | .timeoutSweep _ _ => False
  | .wait host _ => host ≠ source

/-- Time passes for a sender until it is swept. -/
structure Round where
  duration : Nat
  accepts : Address → Bytes → Bool
  early : List OrderedStep := []
  late : List OrderedStep := []

namespace Round

def steps (source : Address) (round : Round) : List OrderedStep :=
  .wait source round.duration :: (round.early ++ .timeoutSweep source round.accepts :: round.late)

/-- The sender's handshakes have timed out by then, and its peers have not. -/
structure IsTimely (config : Config) (source : Address) (round : Round) : Prop where
  due : config.connectionTimeout ≤ round.duration
  short : round.duration < config.peerTimeout
  accepts : ∀ target bytes, round.accepts target bytes = true
  early : ∀ step ∈ round.early, step.IsFree source
  late : ∀ step ∈ round.late, step.IsFree source

end Round

/-- The course of a message between two hosts: the call that sends it, and rounds in which its first
frame may be repeated, with other steps in between. -/
structure Course where
  sender : HostSpec
  receiver : HostSpec
  fields : FieldMap
  accepts : Address → Bytes → Bool
  before : List OrderedStep := []
  pause : List OrderedStep := []
  rounds : List Round := []

namespace Course

def source (course : Course) : Address :=
  course.sender.config.selfAddress

def target (course : Course) : Address :=
  course.receiver.config.selfAddress

def call (course : Course) : OrderedStep :=
  .send course.source course.target course.fields .reliable course.accepts

def afterwards (course : Course) : List OrderedStep :=
  course.pause ++ course.rounds.flatMap (Round.steps course.source)

def steps (course : Course) : List OrderedStep :=
  course.before ++ course.call :: course.afterwards

def fleetBefore (course : Course) : OrderedFleet :=
  (OrderedFleet.ofSpecs [course.sender, course.receiver]).run course.before

def fleetAfter (course : Course) : OrderedFleet :=
  (OrderedFleet.ofSpecs [course.sender, course.receiver]).run course.steps

/-- The sender may repeat the first frame in all rounds, and has as many rounds as it may have
failures. -/
structure IsTimely (course : Course) : Prop where
  distinct : course.source ≠ course.target
  accepts : ∀ target bytes, course.accepts target bytes = true
  before : ∀ step ∈ course.before, step.IsFree course.source
  pause : ∀ step ∈ course.pause, step.IsFree course.source
  rounds : ∀ round ∈ course.rounds, round.IsTimely course.sender.config course.source
  enough : course.rounds.length = course.sender.config.senderFailureBound.toNat

end Course

namespace OrderedFleet

/-- A datagram is a copy of the first frame of a message. -/
def isCopy (source target : Address) (id : UInt32) (datagram : Datagram) : Bool :=
  datagram.source = source ∧ datagram.target = target ∧ synId? datagram.bytes = some id

def copies (source target : Address) (id : UInt32) (fleet : OrderedFleet) : Nat :=
  fleet.queue.countP (isCopy source target id) + fleet.lost.countP (isCopy source target id)

/-- The record of a sender that waits for the first answer, after so many timeouts. -/
structure IsWaiting (config : Config) (peer : Address) (id : UInt32) (failures since : Nat)
    (engine : Engine) (record : ConnectionRecord) (syn : Bytes) : Prop where
  filed : engine.store.connections[(⟨peer, id, .sender⟩ : ConnectionKey)]? = some record
  status : record.status = .synSent
  buffered : record.lastSent = some syn
  stamped : stamp? syn ≠ some none
  failures : record.failures.toNat = failures
  bound : record.failureBound = config.senderFailureBound
  timeout : record.timeout = config.connectionTimeout
  touched : record.lastInteraction ≤ since

/-- The message was not delivered: its first frame was sent once, and once more for every timeout, and
all copies are on their way or lost. -/
structure Waits (config : Config) (source target : Address) (id : UInt32) (failures since now : Nat)
    (fleet : OrderedFleet) : Prop where
  intact : IsIntact source target fleet
  undelivered : fleet.deliveries source target id = 0
  sender : ∃ station record syn, fleet.stations.get? source = some station ∧ station.now = now ∧
    SenderEngine config target since station.engine ∧
      IsWaiting config target id failures since station.engine record syn
  elapsed : since ≤ now
  repeated : failures + 1 ≤ copies source target id fleet
  unclosed : ∀ bytes ∈ fleet.link source target, ∀ frame, ¬ Reads bytes .synAckSuccess id frame

section Waiting

variable {fleet after : OrderedFleet} {source target : Address} {id : UInt32} {config : Config}
variable {failures since now : Nat} {station : Station} {task : EngineStep}

lemma IsWaiting.posted (hs : SoundFleet fleet.toFleet)
    (there : fleet.stations.get? source = some station) {record : ConnectionRecord} {syn : Bytes}
    (h : IsWaiting config target id failures since station.engine record syn) :
    ∃ target fields, Posted fleet.toLedger source target (some id) fields :=
  ⟨target, posted_of_record hs there h.filed (Or.inl h.status)⟩

lemma IsWaiting.not_settled {engine : Engine} {record : ConnectionRecord} {syn : Bytes}
    (h : IsWaiting config target id failures since engine record syn) :
    ¬ Settled engine.store.connections[(⟨target, id, .sender⟩ : ConnectionKey)]? :=
  fun hsettled => hsettled record h.filed h.status

/-- While a message was not delivered, no success comes back for it. -/
lemma Waits.unanswered (h : Waits config source target id failures since now fleet)
    (ho : IsOrderly fleet) {bytes : Bytes} {rest : List Bytes}
    (hlink : fleet.link target source = bytes :: rest) (frame : Frame) :
    ¬ Reads bytes .synSuccess id frame := by
  intro hr
  have hmem := ho.transit _ (mem_of_head?_link (congrArg List.head? hlink))
  obtain ⟨fields, harrival⟩ := (ho.sound.wire _ hmem).success id frame hr
  have hpos : 0 < fleet.deliveries source target id :=
    List.countP_pos_iff.2 ⟨_, harrival, by simp⟩
  rw [h.undelivered] at hpos
  exact absurd hpos (Nat.lt_irrefl 0)

lemma Waits.congr (h : Waits config source target id failures since now fleet)
    (hintact : IsIntact source target after)
    (hsource : after.stations.get? source = fleet.stations.get? source)
    (hdeliveries : after.deliveries source target id = fleet.deliveries source target id)
    (hcopies : copies source target id fleet ≤ copies source target id after)
    (hlink : ∀ bytes ∈ after.link source target, bytes ∈ fleet.link source target) :
    Waits config source target id failures since now after where
  intact := hintact
  undelivered := hdeliveries.trans h.undelivered
  sender := by
    rw [hsource]
    exact h.sender
  elapsed := h.elapsed
  repeated := Nat.le_trans h.repeated hcopies
  unclosed bytes hmem := h.unclosed bytes (hlink bytes hmem)

lemma countP_queue {datagram : Datagram} (h : datagram ∈ fleet.queue) :
    fleet.queue.countP (isCopy source target id) =
      (fleet.queue.erase datagram).countP (isCopy source target id) +
        [datagram].countP (isCopy source target id) := by
  rw [(List.perm_cons_erase h).countP_eq, ← List.singleton_append, List.countP_append,
    Nat.add_comm]

/-- An engine that acts uses up no copy but the one that arrives. -/
lemma copies_acts {host : Address} {step : OrderedStep} (hgiven : Given fleet host station step task)
    (acts : Acts fleet (fleet.remaining step) host station task after)
    (hother : ∀ bytes rest accepts, fleet.link source host = bytes :: rest →
      step = .arrive source host accepts → host = target → synId? bytes ≠ some id) :
    copies source target id fleet +
        ((({ engine := station.engine } : History).step task).effects.filterMap
          (datagramOf? host)).countP (isCopy source target id) ≤
      copies source target id after := by
  have hremaining : fleet.queue.countP (isCopy source target id) ≤
      (fleet.remaining step).countP (isCopy source target id) := by
    cases hgiven with
    | @arrive origin bytes rest hlink accepts =>
      have hhead : (fleet.link origin host).head? = some bytes := congrArg List.head? hlink
      rw [countP_queue (mem_of_head?_link hhead), remaining, hhead]
      have hnone : [(⟨origin, host, bytes⟩ : Datagram)].countP (isCopy source target id) = 0 := by
        rw [List.countP_eq_zero]
        intro datagram hmem hcopy
        rw [List.mem_singleton.1 hmem, isCopy, decide_eq_true_eq] at hcopy
        obtain ⟨rfl, hhost, hsyn⟩ := hcopy
        exact hother bytes rest accepts hlink rfl hhost hsyn
      rw [hnone]
      exact Nat.le_refl _
    | _ => exact Nat.le_refl _
  unfold copies
  rw [acts.queue, acts.lost, List.countP_append]
  omega

lemma waits_of_acts (hne : source ≠ target) (hintact : IsIntact source target after)
    (hundelivered : fleet.deliveries source target id = 0)
    (hunclosed : ∀ bytes ∈ fleet.link source target, ∀ frame, ¬ Reads bytes .synAckSuccess id frame)
    {step : OrderedStep} (hgiven : Given fleet source station step task)
    (acts : Acts fleet (fleet.remaining step) source station task after)
    (hengine : SenderEngine config target since
      (({ engine := station.engine } : History).step task).engine) {record : ConnectionRecord}
    {syn : Bytes} (hwaiting : IsWaiting config target id failures since
      (({ engine := station.engine } : History).step task).engine record syn)
    (hw : WellFiled station.engine.store) (hsince : since ≤ station.now)
    (hrepeated : failures + 1 ≤ copies source target id after) :
    Waits config source target id failures since station.now after where
  intact := hintact
  undelivered := by rw [deliveries_acts acts, if_neg hne, hundelivered]
  sender := ⟨_, record, syn, (acts.stations source).trans (if_pos rfl), rfl, hengine, hwaiting⟩
  elapsed := hsince
  repeated := hrepeated
  unclosed bytes hmem frame hr := by
    rw [acts.link_own, List.mem_append] at hmem
    rcases hmem with hold | hnew
    · exact hunclosed bytes (mem_link_of_remaining hold) frame hr
    · exact hwaiting.not_settled (closing_of_given hw hgiven hnew hr).1

lemma Waits.actsSource (hne : source ≠ target) (ho : IsOrderly fleet)
    (h : Waits config source target id failures since now fleet)
    (hintact : IsIntact source target after) {step : OrderedStep} (haccepts : step.AcceptsAll)
    (hunique : ((fleet.step step).sendsOf source id).length ≤ 1)
    (hsweep : ∀ accepts, step ≠ .timeoutSweep source accepts)
    (given : fleet.task? step = some (source, station, task))
    (acts : Acts fleet (fleet.remaining step) source station task after) :
    Waits config source target id failures since now after := by
  obtain ⟨found, record, syn, hfound, rfl, hengine, hwaiting⟩ := h.sender
  cases hfound.symm.trans acts.there
  have hgiven := given_of_task? given
  have hw := hengine.own.filed
  -- neither a success nor a failure can arrive, so that the record stays as it is
  have hkept : (({ engine := station.engine } : History).step task).engine.store.connections[
      (⟨target, id, .sender⟩ : ConnectionKey)]? = some record := by
    cases hgiven with
    | send peer fields delivery accepts =>
      obtain ⟨hsame, -⟩ := (send_move ⟨station.now, accepts⟩ hw peer fields delivery).aside
        hw.connection haccepts fun _ =>
          send_result_ne hunique (hwaiting.posted ho.sound acts.there) acts.there
      exact Eq.trans hsame hwaiting.filed
    | @arrive origin bytes rest hlink accepts =>
      refine (receive_move ⟨station.now, accepts⟩ hw origin bytes).keepsWaiting hw.connection
        hwaiting.filed hwaiting.status ?_ ?_
      · rintro rfl frame
        exact h.unanswered ho hlink frame
      · rintro rfl frame
        refine h.intact.unfailed bytes ?_ id frame
        rw [hlink]
        exact List.mem_cons_self
    | timeoutSweep accepts => exact absurd rfl (hsweep accepts)
    | deleteSweep => exact hwaiting.filed
  refine waits_of_acts hne hintact h.undelivered h.unclosed hgiven acts
    (senderEngine_of_given hengine h.elapsed hgiven) { hwaiting with filed := hkept } hw h.elapsed ?_
  have hcopies := @copies_acts _ _ source target id _ _ _ _ hgiven acts
    fun _ _ _ _ _ hsame => absurd hsame hne
  have hrepeated := h.repeated
  omega

lemma Waits.accepted (hne : source ≠ target) (ho : IsOrderly fleet)
    (h : Waits config source target id failures since now fleet)
    {accepts : Address → Bytes → Bool} (haccepts : ∀ target bytes, accepts target bytes = true)
    (there : fleet.stations.get? target = some station) {bytes : Bytes} {rest : List Bytes}
    (hlink : fleet.link source target = bytes :: rest) (hsyn : synId? bytes = some id) :
    IsDelivered config source target id (fleet.step (.arrive source target accepts)) := by
  obtain ⟨frame, hr⟩ := reads_of_synId? hsyn
  have hfresh := isFreshAfter_of_order h.intact.order there hlink hr
  rw [← isFreshFrom_eq] at hfresh
  -- a record that has accepted the message would have delivered it
  have hunheld : ¬ HoldsAccepted station.engine source id := by
    intro hholds
    have hpos := deliveries_pos_of_remembers ho.sound ⟨station, there, hholds⟩
    rw [h.undelivered] at hpos
    exact absurd hpos (Nat.lt_irrefl 0)
  have hanew : fleet.AcceptsAnew ⟨source, target, bytes⟩ source target id :=
    ⟨ho.transit _ (mem_of_head?_link (congrArg List.head? hlink)), rfl, rfl, station, there,
      ⟨frame, hr, hfresh⟩, hunheld⟩
  have hstep : (fleet.step (.arrive source target accepts)).toFleet =
      fleet.toFleet.step (.receive ⟨source, target, bytes⟩ accepts) := by
    rw [OrderedFleet.step, arrive, if_neg (by rw [there]; exact Option.some_ne_none _), hlink]
    rfl
  have given : fleet.task? (.arrive source target accepts) =
      some (target, station, .work ⟨station.now, accepts⟩ (.receive source bytes)) := by
    rw [task?, hlink, there]
    rfl
  have acts := acts_of_task? ho.transit given
  have hrest : (fleet.step (.arrive source target accepts)).link source target = rest := by
    rw [acts.link_of_ne hne.symm, linkOf_remaining_arrive hlink]
  refine ⟨?_, ?_, Or.inl ?_, ?_⟩
  · rw [hstep, deliveries_step_of_acceptsAnew ho.sound accepts hanew, h.undelivered]
  · obtain ⟨found, -, -, hfound, -, hengine, -⟩ := h.sender
    exact ⟨found, ((acts.stations source).trans (if_neg hne.symm)).trans hfound,
      hengine.earlier (Nat.zero_le _)⟩
  · rw [hstep]
    exact remembers_of_acceptsAnew ho.sound haccepts hanew
  · intro before other later hsplit frame hclosing
    refine absurd hclosing (h.unclosed other ?_ frame)
    rw [hrest] at hsplit
    rw [hlink, hsplit]
    simp

lemma Waits.actsOther {host : Address} (hhost : host ≠ source) (ho : IsOrderly fleet)
    (h : Waits config source target id failures since now fleet)
    (hintact : IsIntact source target after) {step : OrderedStep}
    (hfirst : ∀ bytes rest accepts, fleet.link source target = bytes :: rest →
      step = .arrive source target accepts → synId? bytes ≠ some id)
    (given : fleet.task? step = some (host, station, task))
    (acts : Acts fleet (fleet.remaining step) host station task after) :
    Waits config source target id failures since now after := by
  have hgiven := given_of_task? given
  have hw := (ho.own host station acts.there).filed
  have hcopies := @copies_acts _ _ source target id _ _ _ _ hgiven acts (by
    rintro bytes rest accepts hlink rfl rfl
    exact hfirst bytes rest accepts hlink rfl)
  refine h.congr hintact ((acts.stations source).trans (if_neg hhost)) ?_ (by omega) ?_
  · rw [deliveries_acts acts]
    split
    · rename_i htarget
      subst htarget
      have hnone : (({ engine := station.engine } : History).step task).effects.countP
          (delivers source id) = 0 := by
        cases hgiven with
        | send peer fields delivery accepts =>
          exact countP_delivers_send ⟨station.now, accepts⟩ hw peer fields delivery
        | @arrive origin bytes rest hlink accepts =>
          refine countP_delivers_receive ⟨station.now, accepts⟩ hw ?_
          rintro ⟨rfl, ⟨frame, hr, -⟩, -⟩
          exact hfirst bytes rest accepts hlink rfl (synId?_of_reads hr)
        | timeoutSweep accepts => exact countP_delivers_timeoutSweep ⟨station.now, accepts⟩ hw
        | deleteSweep => rfl
      rw [hnone, Nat.add_zero]
    · rfl
  · intro bytes hmem
    rw [acts.link_of_ne hhost] at hmem
    exact mem_link_of_remaining hmem

/-- A message that waits goes on waiting or is delivered, as long as its sender is not swept and its
clock stands still. -/
lemma Waits.next (hne : source ≠ target) (ho : IsOrderly fleet)
    (h : Waits config source target id failures since now fleet) {step : OrderedStep}
    (hnumbers : HasNumbers source target fleet)
    (hharmless : IsHarmless source target fleet step)
    (hunique : ((fleet.step step).sendsOf source id).length ≤ 1)
    (hsweep : ∀ accepts, step ≠ .timeoutSweep source accepts)
    (hwait : ∀ duration, step ≠ .wait source duration) :
    Waits config source target id failures since now (fleet.step step) ∨
      IsDelivered config source target id (fleet.step step) := by
  have hintact := h.intact.next hne ho hnumbers hharmless
  have hmove := ordered_move ho.transit step
  generalize hafter : fleet.step step = after at hmove hintact ⊢
  cases hmove with
  | unchanged idle => exact Or.inl h
  | @waited host station there duration is =>
    have hother : host ≠ source := by
      rintro rfl
      exact hwait duration is
    exact Or.inl (h.congr hintact ((Table.get?_insert _ _ _ _).trans (if_neg hother)) rfl
      (Nat.le_refl _) fun _ hmem => hmem)
  | @lost origin goal bytes rest hlink is =>
    have hqueue := @countP_queue fleet source target id _
      (mem_of_head?_link (congrArg List.head? hlink))
    refine Or.inl (h.congr hintact rfl rfl ?_ fun bytes hmem =>
      mem_linkOf.2 (List.mem_of_mem_erase (mem_linkOf.1 hmem)))
    unfold copies
    dsimp only
    rw [List.countP_append]
    omega
  | @acted host station task _ given acts =>
    by_cases hsource : host = source
    · subst hsource
      rw [← hafter] at hintact acts ⊢
      exact Or.inl (h.actsSource hne ho hintact hharmless.accepts hunique hsweep given acts)
    · by_cases harrives : ∃ bytes rest accepts, fleet.link source target = bytes :: rest ∧
          step = .arrive source target accepts ∧ synId? bytes = some id
      · obtain ⟨bytes, rest, accepts, hlink, rfl, hsyn⟩ := harrives
        obtain ⟨there, hgiven⟩ := task?_eq_some given
        cases hgiven
        rw [← hafter]
        exact Or.inr (h.accepted hne ho hharmless.accepts there hlink hsyn)
      · refine Or.inl (h.actsOther hsource ho hintact (fun bytes rest accepts hlink hstep hsyn => ?_)
          given acts)
        exact harrives ⟨bytes, rest, accepts, hlink, hstep, hsyn⟩

lemma Waits.wait (hne : source ≠ target) (ho : IsOrderly fleet)
    (h : Waits config source target id failures since now fleet)
    (hnumbers : HasNumbers source target fleet) (duration : Nat) :
    Waits config source target id failures since (now + duration)
      (fleet.step (.wait source duration)) := by
  obtain ⟨station, record, syn, there, rfl, hengine, hwaiting⟩ := h.sender
  have hharmless : IsHarmless source target fleet (.wait source duration) :=
    ⟨trivial, nofun, fun _ => nofun⟩
  have hintact := h.intact.next hne ho hnumbers hharmless
  rw [step_of_idle rfl, idle, there] at hintact ⊢
  exact {
    intact := hintact
    undelivered := h.undelivered
    sender := ⟨{ station with now := station.now + duration }, record, syn,
      (Table.get?_insert _ _ _ _).trans (if_pos rfl), rfl, hengine, hwaiting⟩
    elapsed := Nat.le_trans h.elapsed (Nat.le_add_right _ _)
    repeated := h.repeated
    unclosed := h.unclosed }

/-- The sender is swept when the message has waited for its timeout. -/
lemma Waits.sweep (hne : source ≠ target) (ho : IsOrderly fleet)
    (h : Waits config source target id failures since now fleet)
    (hdue : since + config.connectionTimeout ≤ now) (hshort : now < since + config.peerTimeout)
    (hfailures : failures + 1 ≤ config.senderFailureBound.toNat) {accepts : Address → Bytes → Bool}
    (haccepts : ∀ target bytes, accepts target bytes = true)
    (hnumbers : HasNumbers source target fleet)
    (hnumbers' : HasNumbers source target (fleet.step (.timeoutSweep source accepts))) :
    Waits config source target id (failures + 1) now now
      (fleet.step (.timeoutSweep source accepts)) := by
  obtain ⟨station, record, syn, there, rfl, hengine, hwaiting⟩ := h.sender
  have hw := hengine.own.filed
  have hharmless : IsHarmless source target fleet (.timeoutSweep source accepts) := by
    refine ⟨haccepts, fun _ _ found hfound => ?_, fun _ hsame => hne ?_⟩
    · cases there.symm.trans hfound
      exact isAwake_of_knowsPeers hw hengine.peers h.elapsed hshort
    · cases hsame
      rfl
  have hintact := h.intact.next hne ho hnumbers hharmless
  have given : fleet.task? (.timeoutSweep source accepts) =
      some (source, station, .work ⟨station.now, accepts⟩ .timeoutSweep) := by
    rw [task?, there]
    rfl
  have hgiven := given_of_task? given
  have acts := acts_of_task? ho.transit given
  generalize fleet.step (.timeoutSweep source accepts) = after at hnumbers' hintact acts ⊢
  have htouched := hwaiting.touched
  have hidle : record.timeout ≤ record.idleTime station.now := by
    rw [hwaiting.timeout, ConnectionRecord.idleTime]
    omega
  have hkey := (hw.connection _ _ hwaiting.filed).1
  have hroom : record.failures < record.failureBound := by
    rw [UInt32.lt_iff_toNat_lt, hwaiting.failures, hwaiting.bound]
    exact hfailures
  have hcount := toNat_succ_of_lt hroom
  obtain ⟨frame, hsent, hsyn, hnow, hrepeated⟩ := timeoutSweep_repeats ⟨station.now, accepts⟩ hengine
    h.elapsed ⟨hwaiting.filed, by rw [hkey], hwaiting.status, hwaiting.buffered,
      by rw [UInt32.le_iff_toNat_le, hcount]; exact hroom⟩ hidle haccepts hwaiting.stamped
  have hcopy : (⟨source, target, frame⟩ : Datagram) ∈
      (({ engine := station.engine } : History).step
        (.work ⟨station.now, accepts⟩ .timeoutSweep)).effects.filterMap (datagramOf? source) :=
    mem_filterMap_datagramOf?.2 ⟨rfl, hsent⟩
  -- a frame without timestamp could not be repeated under a new one
  have hstamped : stamp? frame ≠ some none := by
    refine hnumbers'.stamped ⟨source, target, frame⟩ ?_ rfl rfl
    rw [acts.wire]
    exact List.mem_append_right _ hcopy
  refine waits_of_acts hne hintact h.undelivered h.unclosed hgiven acts hnow
    ⟨hrepeated, hwaiting.status, rfl, hstamped, hcount.trans (congrArg (· + 1) hwaiting.failures),
      hwaiting.bound, hwaiting.timeout, Nat.le_refl _⟩ hw (Nat.le_refl _) ?_
  have hcopies := @copies_acts _ _ source target id _ _ _ _ hgiven acts
    fun _ _ _ _ _ hsame => absurd hsame hne
  have hmore : 0 < ((({ engine := station.engine } : History).step
      (.work ⟨station.now, accepts⟩ .timeoutSweep)).effects.filterMap
        (datagramOf? source)).countP (isCopy source target id) :=
    List.countP_pos_iff.2 ⟨_, hcopy, by simp [isCopy, hsyn]⟩
  have hbefore := h.repeated
  omega

lemma waits_of_send (hne : source ≠ target) (ho : IsOrderly fleet)
    (hintact : IsIntact source target fleet) (there : fleet.stations.get? source = some station)
    (hengine : SenderEngine config target 0 station.engine) {fields : FieldMap}
    {accepts : Address → Bytes → Bool} (haccepts : ∀ target bytes, accepts target bytes = true)
    (hresult : (station.engine.send ⟨station.now, accepts⟩ target fields .reliable).2.2 =
      .ok (some id))
    (hnumbers : HasNumbers source target fleet)
    (hnumbers' : HasNumbers source target (fleet.step (.send source target fields .reliable accepts)))
    (hunique :
      ((fleet.step (.send source target fields .reliable accepts)).sendsOf source id).length ≤ 1) :
    Waits config source target id 0 station.now station.now
      (fleet.step (.send source target fields .reliable accepts)) := by
  have hw := hengine.own.filed
  have hunposted : ¬ ∃ target fields, Posted fleet.toLedger source target (some id) fields :=
    fun hposted => send_result_ne hunique hposted there hresult
  have hharmless : IsHarmless source target fleet (.send source target fields .reliable accepts) :=
    ⟨haccepts, nofun, fun _ => nofun⟩
  have hintact' := hintact.next hne ho hnumbers hharmless
  have given : fleet.task? (.send source target fields .reliable accepts) =
      some (source, station, .send ⟨station.now, accepts⟩ target fields .reliable) := by
    rw [task?, there]
    rfl
  have hgiven := given_of_task? given
  have acts := acts_of_task? ho.transit given
  generalize fleet.step (.send source target fields .reliable accepts) = after
    at hnumbers' hintact' acts ⊢
  have hundelivered : fleet.deliveries source target id = 0 :=
    Nat.eq_zero_of_not_pos fun hpos => hunposted ⟨target, posted_of_deliveries ho.sound hpos⟩
  have hunclosed : ∀ bytes ∈ fleet.link source target, ∀ frame,
      ¬ Reads bytes .synAckSuccess id frame :=
    fun bytes hmem frame hr =>
      hunposted ⟨target, hintact.tidy.closings _ (mem_linkOf.1 hmem) id frame hr⟩
  have hnow : SenderEngine config target station.now (({ engine := station.engine } : History).step
      (.send ⟨station.now, accepts⟩ target fields .reliable)).engine :=
    hengine.move (.sent ⟨station.now, accepts⟩ target fields .reliable)
      (knowsPeers_of_draw hw (congrArg Config.peerTimeout hengine.configured) hengine.peers
        (peers_send ⟨station.now, accepts⟩ target fields .reliable))
  obtain ⟨frame, connection, heffects, hsyn, hrecord, hfiled⟩ :=
    (send_move ⟨station.now, accepts⟩ hw target fields .reliable).opens hw.connection haccepts
      hresult
  -- a record that was there before would be of an earlier message with the id
  rcases hrecord with hold | ⟨-, serial, since, rfl⟩
  · have hkey := (hw.connection _ _ hold).1
    exact absurd ⟨target, posted_of_record ho.sound there hold
      (hengine.senders _ _ hold (by rw [hkey])).status⟩ hunposted
  have hcopy : (⟨source, target, frame⟩ : Datagram) ∈
      (({ engine := station.engine } : History).step
        (.send ⟨station.now, accepts⟩ target fields .reliable)).effects.filterMap
          (datagramOf? source) := by
    refine mem_filterMap_datagramOf?.2 ⟨rfl, ?_⟩
    have hsent : Effect.sent target frame true ∈
        (station.engine.send ⟨station.now, accepts⟩ target fields .reliable).2.1 := by
      rw [heffects]
      exact List.mem_singleton_self _
    exact hsent
  have hstamped : stamp? frame ≠ some none := by
    refine hnumbers'.stamped ⟨source, target, frame⟩ ?_ rfl rfl
    rw [acts.wire]
    exact List.mem_append_right _ hcopy
  have hconfig : station.engine.store.config = config := hengine.configured
  refine waits_of_acts hne hintact' hundelivered hunclosed hgiven acts hnow
    ⟨hfiled, rfl, rfl, hstamped, rfl, congrArg Config.senderFailureBound hconfig,
      congrArg Config.connectionTimeout hconfig, Nat.le_refl _⟩ hw (Nat.le_refl _) ?_
  have hcopies := @copies_acts _ _ source target id _ _ _ _ hgiven acts
    fun _ _ _ _ _ hsame => absurd hsame hne
  have hmore : 0 < ((({ engine := station.engine } : History).step
      (.send ⟨station.now, accepts⟩ target fields .reliable)).effects.filterMap
        (datagramOf? source)).countP (isCopy source target id) :=
    List.countP_pos_iff.2 ⟨_, hcopy, by simp [isCopy, hsyn]⟩
  omega

end Waiting

/-- What holds at the beginning of a run, and after each of its steps. -/
def Throughout (Inv : OrderedFleet → Prop) (fleet : OrderedFleet) (steps : List OrderedStep) : Prop :=
  ∀ earlier, earlier <+: steps → Inv (fleet.run earlier)

/-- The source has numbers left, and no two of its messages have the same id. -/
structure IsRegular (source target : Address) (id : UInt32) (fleet : OrderedFleet) : Prop
    extends HasNumbers source target fleet where
  unique : (fleet.sendsOf source id).length ≤ 1

/-- The message waits after so many timeouts, unless it was delivered. -/
def IsUnderway (config : Config) (source target : Address) (id : UInt32) (failures since now : Nat)
    (fleet : OrderedFleet) : Prop :=
  Waits config source target id failures since now fleet ∨
    IsDelivered config source target id fleet

section Throughout

variable {Inv : OrderedFleet → Prop} {fleet : OrderedFleet} {steps : List OrderedStep}

lemma Throughout.here (h : Throughout Inv fleet steps) : Inv fleet :=
  h [] List.nil_prefix

lemma throughout_of_inits (h : ∀ earlier ∈ steps.inits, Inv (fleet.run earlier)) :
    Throughout Inv fleet steps :=
  fun earlier hearlier => h earlier ((List.mem_inits _ _).2 hearlier)

lemma Throughout.append {later : List OrderedStep} (h : Throughout Inv fleet (steps ++ later)) :
    Throughout Inv fleet steps ∧ Throughout Inv (fleet.run steps) later := by
  refine ⟨fun earlier hearlier => h earlier (hearlier.trans (List.prefix_append _ _)),
    fun earlier hearlier => ?_⟩
  rw [← run_append]
  exact h _ ((List.prefix_append_right_inj steps).2 hearlier)

lemma Throughout.cons {step : OrderedStep} (h : Throughout Inv fleet (step :: steps)) :
    Inv fleet ∧ Throughout Inv (fleet.step step) steps :=
  ⟨h.here, (@append Inv fleet [step] steps h).2⟩

/-- Ids that do not come twice in the end have not come twice before. -/
lemma throughout_isRegular {source target : Address} {id : UInt32}
    (hnumbers : Throughout (HasNumbers source target) fleet steps)
    (hunique : ((fleet.run steps).sendsOf source id).length ≤ 1) :
    Throughout (IsRegular source target id) fleet steps := by
  intro earlier hearlier
  refine ⟨hnumbers earlier hearlier, ?_⟩
  obtain ⟨later, rfl⟩ := hearlier
  obtain ⟨calls, hcalls⟩ := exists_calls_run (fleet.run earlier) later
  rw [run_append, Fleet.sendsOf, hcalls, List.filter_append, List.length_append] at hunique
  exact Nat.le_trans (Nat.le_add_right _ _) hunique

end Throughout

section Runs

variable {fleet : OrderedFleet} {source target : Address} {id : UInt32} {config : Config}
variable {failures since now : Nat}

lemma isHarmless_of_isFree {step : OrderedStep} (h : step.IsFree source) :
    IsHarmless source target fleet step := by
  cases step with
  | send | arrive => exact ⟨h, nofun, fun _ => nofun⟩
  | lose | deleteSweep | wait => exact ⟨trivial, nofun, fun _ => nofun⟩
  | timeoutSweep => cases h

lemma IsUnderway.next (hne : source ≠ target) (ho : IsOrderly fleet)
    (h : IsUnderway config source target id failures since now fleet) {step : OrderedStep}
    (hfree : step.IsFree source) (hregular : IsRegular source target id fleet)
    (hregular' : IsRegular source target id (fleet.step step)) :
    IsUnderway config source target id failures since now (fleet.step step) := by
  have hharmless := @isHarmless_of_isFree fleet source target step hfree
  rcases h with hwaits | hdelivered
  · refine hwaits.next hne ho hregular.toHasNumbers hharmless hregular'.unique ?_ ?_
    · rintro accepts rfl
      exact hfree
    · rintro duration rfl
      exact hfree rfl
  · exact Or.inr (hdelivered.next hne ho hharmless.accepts hharmless.receiver hregular'.unique)

lemma IsUnderway.run (hne : source ≠ target) (ho : IsOrderly fleet)
    (h : IsUnderway config source target id failures since now fleet) {steps : List OrderedStep}
    (hfree : ∀ step ∈ steps, step.IsFree source)
    (hregular : Throughout (IsRegular source target id) fleet steps) :
    IsUnderway config source target id failures since now (fleet.run steps) := by
  induction steps generalizing fleet with
  | nil => exact h
  | cons step rest ih =>
    obtain ⟨hhere, hrest⟩ := hregular.cons
    exact ih (ho.step step) (h.next hne ho (hfree step List.mem_cons_self) hhere hrest.here)
      (fun other hother => hfree other (List.mem_cons_of_mem _ hother)) hrest

lemma IsUnderway.round (hne : source ≠ target) (ho : IsOrderly fleet)
    (h : IsUnderway config source target id failures now now fleet)
    (hfailures : failures + 1 ≤ config.senderFailureBound.toNat) {round : Round}
    (htimely : round.IsTimely config source)
    (hregular : Throughout (IsRegular source target id) fleet (round.steps source)) :
    IsUnderway config source target id (failures + 1) (now + round.duration) (now + round.duration)
      (fleet.run (round.steps source)) := by
  obtain ⟨hhere, hrest⟩ := hregular.cons
  obtain ⟨hearly, hlast⟩ := hrest.append
  obtain ⟨hbefore, hlate⟩ := hlast.cons
  have ho' := (ho.step (.wait source round.duration)).run round.early
  have hwaited : IsUnderway config source target id failures now (now + round.duration)
      (fleet.step (.wait source round.duration)) :=
    h.imp (fun hwaits => hwaits.wait hne ho hhere.toHasNumbers round.duration)
      fun hdelivered => hdelivered.next hne ho trivial (fun _ => nofun) hrest.here.unique
  have hswept : IsUnderway config source target id (failures + 1) (now + round.duration)
      (now + round.duration) (((fleet.step (.wait source round.duration)).run round.early).step
        (.timeoutSweep source round.accepts)) := by
    refine (hwaited.run hne (ho.step _) htimely.early hearly).imp (fun hwaits => ?_)
      fun hdelivered => ?_
    · have hdue := htimely.due
      have hshort := htimely.short
      exact hwaits.sweep hne ho' (by omega) (by omega) hfailures htimely.accepts
        hbefore.toHasNumbers hlate.here.toHasNumbers
    · refine hdelivered.next hne ho' htimely.accepts (fun accepts hsame => hne ?_) hlate.here.unique
      cases hsame
      rfl
  have hround := hswept.run hne (ho'.step _) htimely.late hlate
  rw [Round.steps, ← List.singleton_append, run_append, run_append]
  exact hround

lemma IsUnderway.rounds (hne : source ≠ target) {rounds : List Round} (ho : IsOrderly fleet)
    (h : IsUnderway config source target id failures now now fleet)
    (hfailures : failures + rounds.length ≤ config.senderFailureBound.toNat)
    (htimely : ∀ round ∈ rounds, round.IsTimely config source)
    (hregular : Throughout (IsRegular source target id) fleet
      (rounds.flatMap (Round.steps source))) :
    ∃ later, IsUnderway config source target id (failures + rounds.length) later later
      (fleet.run (rounds.flatMap (Round.steps source))) := by
  induction rounds generalizing fleet failures now with
  | nil => exact ⟨now, h⟩
  | cons round rest ih =>
    rw [List.flatMap_cons] at hregular ⊢
    rw [List.length_cons] at hfailures ⊢
    obtain ⟨hround, hrest⟩ := hregular.append
    have hnext := h.round hne ho (by omega) (htimely round List.mem_cons_self) hround
    obtain ⟨later, hlater⟩ := ih (ho.run _) hnext (by omega)
      (fun other hother => htimely other (List.mem_cons_of_mem _ hother)) hrest
    refine ⟨later, ?_⟩
    rw [run_append]
    rwa [Nat.add_assoc, Nat.add_comm 1] at hlater

lemma IsUnderway.arrived (h : IsUnderway config source target id failures since now fleet)
    (hlosses : fleet.lost.countP (isCopy source target id) ≤ failures)
    (hqueue : ∀ datagram ∈ fleet.queue, ¬ isCopy source target id datagram) :
    IsDelivered config source target id fleet := by
  rcases h with hwaits | hdelivered
  · have hrepeated := hwaits.repeated
    have hnone := List.countP_eq_zero.2 hqueue
    unfold copies at hrepeated
    omega
  · exact hdelivered

/-- A fleet before the message is sent. -/
structure IsReady (config : Config) (source target : Address) (fleet : OrderedFleet) : Prop where
  intact : IsIntact source target fleet
  sender : ∃ station, fleet.stations.get? source = some station ∧
    SenderEngine config target 0 station.engine

lemma IsReady.next (hne : source ≠ target) (ho : IsOrderly fleet)
    (h : IsReady config source target fleet) {step : OrderedStep} (hfree : step.IsFree source)
    (hnumbers : HasNumbers source target fleet) :
    IsReady config source target (fleet.step step) := by
  refine ⟨h.intact.next hne ho hnumbers (isHarmless_of_isFree hfree), ?_⟩
  obtain ⟨station, there, hengine⟩ := h.sender
  have hmove := ordered_move ho.transit step
  generalize fleet.step step = after at hmove ⊢
  cases hmove with
  | unchanged idle => exact ⟨station, there, hengine⟩
  | lost hlink is => exact ⟨station, there, hengine⟩
  | waited hhost duration is =>
    have hsame := map_engine_waited hhost duration source
    rw [there] at hsame
    obtain ⟨later, hlater, hkept⟩ := Option.map_eq_some_iff.1 hsame
    exact ⟨later, hlater, hkept ▸ hengine⟩
  | @acted host actor task _ given acts =>
    by_cases hhost : host = source
    · subst hhost
      cases there.symm.trans acts.there
      exact ⟨_, (acts.stations host).trans (if_pos rfl),
        senderEngine_of_given hengine (Nat.zero_le _) (given_of_task? given)⟩
    · exact ⟨station, ((acts.stations source).trans (if_neg hhost)).trans there, hengine⟩

lemma IsReady.run (hne : source ≠ target) (ho : IsOrderly fleet)
    (h : IsReady config source target fleet) {steps : List OrderedStep}
    (hfree : ∀ step ∈ steps, step.IsFree source)
    (hnumbers : Throughout (HasNumbers source target) fleet steps) :
    IsReady config source target (fleet.run steps) := by
  induction steps generalizing fleet with
  | nil => exact h
  | cons step rest ih =>
    obtain ⟨hhere, hrest⟩ := hnumbers.cons
    exact ih (ho.step step) (h.next hne ho (hfree step List.mem_cons_self) hhere)
      (fun other hother => hfree other (List.mem_cons_of_mem _ hother)) hrest

lemma isReady_ofSpecs {sender receiver : HostSpec}
    (hne : sender.config.selfAddress ≠ receiver.config.selfAddress) :
    IsReady sender.config sender.config.selfAddress receiver.config.selfAddress
      (ofSpecs [sender, receiver]) := by
  refine ⟨isIntact_ofSpecs _, { engine := .starting sender.config sender.firstId }, ?_,
    senderEngine_starting _ _ _ _⟩
  refine (Table.get?_insert _ _ _ _).trans ?_
  rw [if_neg hne.symm]
  exact (Table.get?_insert _ _ _ _).trans (if_pos rfl)

lemma station_of_called {fields : FieldMap} {delivery : Delivery}
    {accepts : Address → Bytes → Bool} {result : Except SendError (Option UInt32)}
    (h : (fleet.called (.send source target fields delivery accepts)).map SendCall.result =
      [result]) :
    ∃ station, fleet.stations.get? source = some station ∧
      (station.engine.send ⟨station.now, accepts⟩ target fields delivery).2.2 = result ∧
      ∃ call, fleet.called (.send source target fields delivery accepts) = [call] ∧
        call.source = source ∧ call.fields = fields ∧ call.result = result := by
  cases there : fleet.stations.get? source with
  | none =>
    rw [called, there] at h
    cases h
  | some station =>
    rw [called, there] at h ⊢
    cases h
    exact ⟨station, rfl, rfl, _, rfl, rfl, rfl, rfl⟩

lemma arrivals_eq_singleton (hs : SoundFleet fleet.toFleet) {call : SendCall}
    (hsends : fleet.sendsOf source id = [call]) (honce : fleet.deliveries source target id = 1) :
    fleet.arrivals.filter (fun arrival => arrival.target = target ∧
        arrival.message.source = source ∧ arrival.message.id = some id) =
      [{ target, message := { source, id := some id, fields := call.fields } }] := by
  rw [Fleet.deliveries, List.countP_eq_length_filter, List.length_eq_one_iff] at honce
  obtain ⟨arrival, harrival⟩ := honce
  have hmem := List.mem_singleton_self arrival
  rw [← harrival, List.mem_filter, decide_eq_true_eq] at hmem
  obtain ⟨hheard, rfl, rfl, hid⟩ := hmem
  obtain ⟨posted, hposted, hsource, -, hfields, hresult⟩ := hs.arrivals arrival hheard
  have hsent : posted ∈ fleet.sendsOf arrival.message.source id :=
    List.mem_filter.2 ⟨hposted, by simp [hsource, hresult, hid]⟩
  rw [hsends, List.mem_singleton] at hsent
  rw [harrival, ← hid, ← hsent, hfields]

end Runs

end OrderedFleet

namespace Course

variable {course : Course} {id : UInt32}

lemma fleetAfter_eq (course : Course) :
    course.fleetAfter = (course.fleetBefore.step course.call).run course.afterwards :=
  OrderedFleet.run_append _ _ _

/-- As long as ids do not start over, it is the only message with its id. -/
lemma sendsOf_eq (hcalled : (course.fleetBefore.called course.call).map SendCall.result =
      [.ok (some id)]) (hids : course.fleetAfter.idsDrawn course.source < 4294967295) :
    ∃ call, course.fleetAfter.sendsOf course.source id = [call] ∧ call.fields = course.fields := by
  obtain ⟨station, there, -, call, hcall, hsource, hfields, hresult⟩ :=
    OrderedFleet.station_of_called hcalled
  refine ⟨call, ?_, hfields⟩
  have hthere : (course.fleetAfter.stations.get? course.source).isSome := by
    rw [fleetAfter_eq]
    exact OrderedFleet.isSome_station_run (course.call :: course.afterwards) (by rw [there]; rfl)
  obtain ⟨final, hfinal⟩ := Option.isSome_iff_exists.1 hthere
  have ho := (OrderedFleet.isOrderly_ofSpecs [course.sender, course.receiver]).run course.steps
  have hmem : call ∈ course.fleetAfter.calls := by
    obtain ⟨later, hlater⟩ :=
      OrderedFleet.exists_calls_run (course.fleetBefore.step course.call) course.afterwards
    rw [fleetAfter_eq, hlater, OrderedFleet.calls_step, Course.call, hcall]
    simp
  exact sendsOf_eq_singleton ho.counts hfinal hids hmem hsource hresult

end Course

/-- The network loses no more copies of the first frame of a message than the sender may repeat. Once
none of them is on its way any more, the message was delivered, and only once. -/
theorem delivered_once_despite_losses (course : Course) (htimely : course.IsTimely) {id : UInt32}
    (hcalled : (course.fleetBefore.called course.call).map SendCall.result = [.ok (some id)])
    (hnumbers : OrderedFleet.Throughout (OrderedFleet.HasNumbers course.source course.target)
      (OrderedFleet.ofSpecs [course.sender, course.receiver]) course.steps)
    (hids : course.fleetAfter.idsDrawn course.source < 4294967295)
    (hlosses : course.fleetAfter.lost.countP
      (OrderedFleet.isCopy course.source course.target id) ≤
        course.sender.config.senderFailureBound.toNat)
    (hqueue : ∀ datagram ∈ course.fleetAfter.queue,
      ¬ OrderedFleet.isCopy course.source course.target id datagram) :
    course.fleetAfter.arrivals.filter (fun arrival => arrival.target = course.target ∧
        arrival.message.source = course.source ∧ arrival.message.id = some id) =
      [{ target := course.target
         message := { source := course.source, id := some id, fields := course.fields } }] := by
  have hne := htimely.distinct
  have ho := OrderedFleet.isOrderly_ofSpecs [course.sender, course.receiver]
  obtain ⟨call, hsends, hfields⟩ := Course.sendsOf_eq hcalled hids
  have hregular := @OrderedFleet.throughout_isRegular _ _ _ _ id hnumbers
    (Nat.le_of_eq (congrArg List.length hsends))
  obtain ⟨hbefore, hlast⟩ := hregular.append
  obtain ⟨hhere, hrest⟩ := hlast.cons
  obtain ⟨hpause, hrounds⟩ := hrest.append
  -- until the call
  have hready := (OrderedFleet.isReady_ofSpecs hne).run hne ho htimely.before
    fun earlier hearlier => (hbefore earlier hearlier).toHasNumbers
  obtain ⟨station, there, hengine⟩ := hready.sender
  obtain ⟨caller, hcaller, hresult, -⟩ := OrderedFleet.station_of_called hcalled
  cases hcaller.symm.trans there
  have hsent := OrderedFleet.waits_of_send hne (ho.run _) hready.intact there hengine
    htimely.accepts hresult hhere.toHasNumbers hrest.here.toHasNumbers hrest.here.unique
  -- from the call on
  have ho' := (ho.run course.before).step course.call
  have hpaused := OrderedFleet.IsUnderway.run hne ho' (Or.inl hsent) htimely.pause hpause
  obtain ⟨later, hover⟩ := hpaused.rounds hne (ho'.run course.pause)
    (Nat.le_of_eq ((Nat.zero_add _).trans htimely.enough)) htimely.rounds hrounds
  rw [← OrderedFleet.run_append, Nat.zero_add, htimely.enough] at hover
  have hdelivered := OrderedFleet.IsUnderway.arrived (course.fleetAfter_eq ▸ hover) hlosses hqueue
  rw [← hfields]
  exact OrderedFleet.arrivals_eq_singleton (ho.run course.steps).sound hsends hdelivered.once

/-- A first frame is lost, and overtaken by a plain frame. When it is repeated, its answer is lost. -/
theorem delivered_once_despite_losses_overtaken :
    let near : Address := .loopback 9001
    let far : Address := .loopback 9002
    let accepts : Address → Bytes → Bool := fun _ _ => true
    let round : Round :=
      { duration := 1000, accepts, late := [.arrive near far accepts, .lose far near] }
    let course : Course :=
      { sender := { config := { selfAddress := near, senderFailureBound := 1 } }
        receiver := { config := { selfAddress := far } }
        fields := {}
        accepts
        pause := [.lose near far, .send near far {} .unreliable accepts, .arrive near far accepts]
        rounds := [round] }
    course.IsTimely ∧
      (course.fleetBefore.called course.call).map SendCall.result = [.ok (some 1)] ∧
      course.fleetAfter.lost.countP (OrderedFleet.isCopy near far 1) = 1 ∧
      course.fleetAfter.arrivals.filter (fun arrival => arrival.target = far ∧
          arrival.message.source = near ∧ arrival.message.id = some 1) =
        [{ target := far, message := { source := near, id := some 1, fields := {} } }] := by
  intro near far accepts round course
  have htimely : course.IsTimely := by
    refine ⟨by decide, fun _ _ => rfl, by simp [course], ?_, ?_, rfl⟩
    · simp [course, OrderedStep.IsFree, accepts]
    · intro other hother
      rw [List.mem_singleton.1 hother]
      exact ⟨by decide, by decide, fun _ _ => rfl, by simp [round],
        by simp [round, OrderedStep.IsFree, accepts]⟩
  have hcalled : (course.fleetBefore.called course.call).map SendCall.result = [.ok (some 1)] := by
    decide +kernel
  have hlosses : course.fleetAfter.lost.countP (OrderedFleet.isCopy near far 1) = 1 := by
    decide +kernel
  have hnumbers : OrderedFleet.Throughout (OrderedFleet.HasNumbers near far)
      (OrderedFleet.ofSpecs [course.sender, course.receiver]) course.steps :=
    OrderedFleet.throughout_of_inits (by decide +kernel)
  exact ⟨htimely, hcalled, hlosses, delivered_once_despite_losses course htimely hcalled hnumbers
    (by decide +kernel) (Nat.le_of_eq hlosses) (by decide +kernel)⟩

/-- A sender that may have no failures has no rounds, so that its first frame may be on its way for
ever. -/
theorem undelivered_without_rounds :
    let near : Address := .loopback 9001
    let far : Address := .loopback 9002
    let course : Course :=
      { sender := { config := { selfAddress := near, senderFailureBound := 0 } }
        receiver := { config := { selfAddress := far, senderFailureBound := 0 } }
        fields := {}
        accepts := fun _ _ => true }
    course.IsTimely ∧
      (course.fleetBefore.called course.call).map SendCall.result = [.ok (some 1)] ∧
      OrderedFleet.Throughout (OrderedFleet.HasNumbers near far)
        (OrderedFleet.ofSpecs [course.sender, course.receiver]) course.steps ∧
      course.fleetAfter.idsDrawn near = 1 ∧ course.fleetAfter.lost = [] ∧
      course.fleetAfter.arrivals = [] := by
  intro near far course
  refine ⟨⟨by decide, fun _ _ => rfl, ?_, ?_, ?_, rfl⟩, by decide +kernel,
    OrderedFleet.throughout_of_inits (by decide +kernel), by decide +kernel, by decide +kernel,
    by decide +kernel⟩
  all_goals simp [course]

end ReliableDatagrams.Proofs
