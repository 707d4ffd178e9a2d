import ReliableDatagrams.Proofs.Exchange
import ReliableDatagrams.Proofs.SimulationChanges

/-!
# Lossless completion

Two hosts send messages to each other over a network that loses nothing, while it delivers now and
then. Once nothing is in flight any more, every message was delivered once, in the order in which
they were sent, by one frame or by the four frames of a handshake, and no handshake is open. Nothing
of this depends on where the counters of ids and timestamps stand, or on how often they wrap around.
-/

namespace ReliableDatagrams.Proofs

/-- What there is to read in a datagram. -/
structure Sighting where
  source : Address
  target : Address
  kind : FrameKind
  id : Option UInt32
  fields : FieldMap
deriving DecidableEq

def sighting? (datagram : Datagram) : Option Sighting :=
  match Frame.decode datagram.bytes with
  | .error _ => none
  | .ok frame =>
    some
      { source := datagram.source
        target := datagram.target
        kind := frame.kind
        id := frame.header.messageId
        fields := frame.fields }

namespace Posting

def arrival (posting : Posting) : Arrival where
  target := posting.target
  message := { source := posting.source, id := posting.id, fields := posting.fields }

def frames : Posting → List Sighting
  | ⟨source, target, none, fields⟩ => [⟨source, target, .plain, none, fields⟩]
  | ⟨source, target, some id, fields⟩ =>
    [⟨source, target, .syn, some id, fields⟩, ⟨target, source, .synSuccess, some id, .empty⟩,
      ⟨source, target, .synAckSuccess, some id, .empty⟩, ⟨target, source, .ack, some id, .empty⟩]

end Posting

def postingOf? : SimulationStep × SimulationAnswer → Option Posting
  | (.send source target fields _, .sent (.ok id)) => some { source, target, id, fields }
  | _ => none

def postingsOf (answers : List (SimulationStep × SimulationAnswer)) : List Posting :=
  answers.filterMap postingOf?

/-- One of two hosts sends a message to the other, the network delivers, or time passes. -/
def IsExchangeStep (a b : Address) : SimulationStep → Prop
  | .send source target _ _ => Ends a b source target
  | .deliver | .sleep _ => True
  | _ => False

/-- The step is no call of `send`, or one that returns without an error. -/
def succeeds : SimulationStep × SimulationAnswer → Bool
  | (.send _ _ _ _, .sent (.ok _)) => true
  | (.send _ _ _ _, _) => false
  | _ => true

lemma exists_id_of_succeeds {source target : Address} {fields : FieldMap} {delivery : Delivery}
    {answer : SimulationAnswer}
    (h : succeeds (.send source target fields delivery, answer) = true) :
    ∃ id, answer = .sent (.ok id) := by
  cases answer with
  | sent result =>
    cases result with
    | ok id => exact ⟨id, rfl⟩
    | error error => cases h
  | _ => cases h

namespace Transit

def sighting : Transit → Sighting
  | plain source target fields _ => ⟨source, target, .plain, none, fields⟩
  | syn source target id fields _ => ⟨source, target, .syn, some id, fields⟩
  | synSuccess source target id => ⟨target, source, .synSuccess, some id, .empty⟩
  | synAckSuccess source target id => ⟨source, target, .synAckSuccess, some id, .empty⟩
  | ack source target id => ⟨target, source, .ack, some id, .empty⟩

/-- The frames that the message is still to be in after this one. -/
def following : Transit → List Transit
  | plain _ _ _ _ | ack _ _ _ => []
  | syn source target id _ _ =>
    [synSuccess source target id, synAckSuccess source target id, ack source target id]
  | synSuccess source target id => [synAckSuccess source target id, ack source target id]
  | synAckSuccess source target id => [ack source target id]

variable {transit : Transit} {datagram : Datagram}

lemma following_eq (transit : Transit) :
    transit.following = transit.next?.toList.flatMap fun next => next :: next.following := by
  cases transit <;> rfl

lemma length_following_le (transit : Transit) : transit.following.length ≤ 3 := by
  cases transit <;> simp [following]

lemma Carries.sighting? (h : transit.Carries datagram) :
    sighting? datagram = some transit.sighting := by
  unfold Proofs.sighting?
  cases transit with
  | plain =>
    obtain ⟨rfl, rfl, frame, hdecode, hkind, hid, -, rfl⟩ := h
    rw [hdecode]
    dsimp only
    rw [hkind, hid]
    rfl
  | syn =>
    obtain ⟨rfl, rfl, -, frame, hreads, -, rfl⟩ := h
    rw [hreads.decoded]
    dsimp only
    rw [hreads.kind, hreads.id]
    rfl
  | synSuccess | synAckSuccess | ack =>
    obtain ⟨hid, rfl⟩ := h
    rw [decode_encodeControl rfl hid]
    rfl

lemma map_sighting?_of_carries {datagrams : List Datagram} {transits : List Transit}
    (h : List.Forall₂ Carries datagrams transits) :
    datagrams.map Proofs.sighting? = transits.map fun transit => some transit.sighting := by
  induction h with
  | nil => rfl
  | cons hfirst hrest ih => rw [List.map_cons, List.map_cons, hfirst.sighting?, ih]

lemma frames_first (source target : Address) (fields : FieldMap) (timestamp : UInt16)
    (id : Option UInt32) :
    ((first source target fields timestamp id) ::
        (first source target fields timestamp id).following).map sighting =
      Posting.frames ⟨source, target, id, fields⟩ := by
  cases id <;> rfl

lemma arrival?_first (source target : Address) (fields : FieldMap) (timestamp : UInt16)
    (id : Option UInt32) :
    (first source target fields timestamp id).arrival? =
      some (Posting.arrival ⟨source, target, id, fields⟩) := by
  cases id <;> rfl

end Transit

def outstanding (transits : List Transit) : List Transit :=
  transits.flatMap fun transit => transit :: transit.following

def unsent (transits : List Transit) : List Transit :=
  transits.flatMap Transit.following

lemma length_outstanding_le (transits : List Transit) :
    (outstanding transits).length ≤ 4 * transits.length := by
  induction transits with
  | nil => exact Nat.le_refl 0
  | cons transit rest ih =>
    have hfew := transit.length_following_le
    unfold outstanding at ih ⊢
    rw [List.flatMap_cons, List.length_append, List.length_cons, List.length_cons]
    omega

lemma length_outstanding_advance (transit : Transit) (rest : List Transit) :
    (outstanding (rest ++ transit.next?.toList)).length + 1 =
      (outstanding (transit :: rest)).length := by
  unfold outstanding
  rw [List.flatMap_append, ← transit.following_eq, List.flatMap_cons, List.length_append,
    List.length_append, List.length_cons]
  omega

lemma unsent_advance (transit : Transit) (rest : List Transit) :
    (transit.next?.toList ++ unsent (rest ++ transit.next?.toList)).Perm
      (unsent (transit :: rest)) := by
  unfold unsent
  rw [List.flatMap_append, List.flatMap_cons, transit.following_eq]
  cases transit.next? with
  | none => simp
  | some next =>
    simp only [Option.toList_some, List.flatMap_singleton, List.cons_append, List.nil_append]
    exact List.perm_append_comm.cons next

lemma arrivals_advance (transit : Transit) (rest : List Transit) :
    transit.arrival?.toList ++ (rest ++ transit.next?.toList).filterMap Transit.arrival? =
      (transit :: rest).filterMap Transit.arrival? := by
  have hnone : transit.next?.toList.filterMap Transit.arrival? = [] := by
    cases hnext : transit.next? with
    | none => rfl
    | some next => simp [(Transit.handshake?_of_next? hnext).2.2.2.2]
  rw [List.filterMap_append, hnone, List.append_nil]
  cases harrival : transit.arrival? <;> simp [harrival]

/-- What was sent, and what is still to be sent, are the frames of the messages. -/
def Accounted (log : List (Option Sighting)) (transits : List Transit) (postings : List Posting) :
    Prop :=
  (log ++ (unsent transits).map fun transit => some transit.sighting).Perm
    ((postings.flatMap Posting.frames).map some)

section Accounts

variable {log : List (Option Sighting)} {transits : List Transit} {postings : List Posting}

lemma Accounted.depart (h : Accounted log transits postings) {first : Transit} {posting : Posting}
    (hframes : (first :: first.following).map Transit.sighting = posting.frames) :
    Accounted (log ++ [some first.sighting]) (transits ++ [first]) (postings ++ [posting]) := by
  unfold Accounted unsent at h ⊢
  rw [List.flatMap_append, List.flatMap_append, List.map_append, List.map_append,
    List.flatMap_singleton, List.flatMap_singleton, ← hframes, List.map_map, List.append_assoc]
  have hgrown := h.append_right ((first :: first.following).map (some ∘ Transit.sighting))
  rw [List.append_assoc] at hgrown
  refine List.Perm.trans (List.Perm.append_left log ?_) hgrown
  rw [List.map_cons, List.singleton_append]
  exact List.perm_middle.symm

lemma Accounted.advance {transit : Transit} {rest : List Transit}
    (h : Accounted log (transit :: rest) postings) :
    Accounted (log ++ transit.next?.toList.map fun next => some next.sighting)
      (rest ++ transit.next?.toList) postings := by
  unfold Accounted at h ⊢
  rw [List.append_assoc, ← List.map_append]
  exact (((unsent_advance transit rest).map _).append_left log).trans h

end Accounts

/-- Two hosts have sent messages to each other, some of which are still in transit. -/
structure Exchange (a b : Address) (firstIds : Address → MessageIds) (postings : List Posting)
    (transits : List Transit) (simulation : Simulation) : Prop where
  unhindered : Unhindered simulation
  idle : AllIdle simulation
  hosts : ∀ host, host = a ∨ host = b → (simulation.hosts.get? host).isSome
  coherent : Coherent a b firstIds (engineAt simulation) postings transits
  inFlight : List.Forall₂ Transit.Carries simulation.network.inFlight transits
  arrivals : simulation.arrivals ++ transits.filterMap Transit.arrival? =
    postings.map Posting.arrival
  accounted : Accounted (simulation.network.sent.map sighting?) transits postings

section Steps

variable {a b : Address} {firstIds : Address → MessageIds} {postings : List Posting}
variable {transits : List Transit} {simulation : Simulation}

lemma Exchange.engineAt_eq (h : Exchange a b firstIds postings transits simulation)
    {address : Address} (haddress : address = a ∨ address = b) :
    ∃ host, simulation.hosts.get? address = some host ∧
      engineAt simulation address = host.engine := by
  obtain ⟨host, hthere⟩ := Option.isSome_iff_exists.1 (h.hosts address haddress)
  exact ⟨host, hthere, engineAt_of_get? hthere⟩

lemma isSome_hosts_update (address : Address) (host : Host) (engine : Engine)
    (effects : List Effect) {other : Address} (h : (simulation.hosts.get? other).isSome) :
    ((simulation.update address host engine effects).hosts.get? other).isSome := by
  rw [hosts_update, Table.get?_insert]
  split
  · rfl
  · exact h

lemma Exchange.sleep (h : Exchange a b firstIds postings transits simulation) (duration : Nat) :
    Exchange a b firstIds postings transits (simulation.sleep duration) := by
  have hsleep := sleep_of_allIdle h.idle duration
  constructor
  · rw [hsleep]
    exact ⟨h.unhindered.dropFilter, h.unhindered.failFilter⟩
  · exact h.idle.sleep duration
  · intro host hhost
    rw [get?_hosts_sleep h.idle, Option.isSome_map]
    exact h.hosts host hhost
  · rw [engineAt_sleep h.idle]
    exact h.coherent
  · rw [hsleep]
    exact h.inFlight
  · rw [hsleep]
    exact h.arrivals
  · rw [hsleep]
    exact h.accounted

/-- The first frame of a new message goes to the end of the queue. -/
lemma Exchange.send (hab : a ≠ b) (h : Exchange a b firstIds postings transits simulation)
    {source target : Address} (hpair : Ends a b source target) {fields : FieldMap}
    {delivery : Delivery} {id : Option UInt32}
    (hok : (simulation.perform (.send source target fields delivery)).2 = .sent (.ok id))
    (hcount : (idsOf source (postings ++ [⟨source, target, id, fields⟩])).length ≤ idCycle) :
    ∃ transits', Exchange a b firstIds (postings ++ [⟨source, target, id, fields⟩]) transits'
      (simulation.perform (.send source target fields delivery)).1 := by
  obtain ⟨host, hthere, hengine⟩ := h.engineAt_eq hpair.left
  have haccepts := h.unhindered.accepts source
  have hfiled := h.coherent.filed source hpair.left
  rw [hengine] at hfiled
  simp only [Simulation.perform, Simulation.withHost, hthere, Simulation.send] at hok ⊢
  generalize simulation.occasion source = occasion at haccepts hok ⊢
  have hsent : (host.engine.send occasion target fields delivery).2.2 = .ok id :=
    SimulationAnswer.sent.inj hok
  have hdeparts := send_departs occasion haccepts hfiled source hsent
  have htimes := timestamps_send hfiled occasion target fields delivery
  generalize (host.engine.send occasion target fields delivery).1 = after at hdeparts htimes ⊢
  generalize (host.engine.send occasion target fields delivery).2.1 = effects at hdeparts htimes ⊢
  have hextends := h.unhindered.extends_update source host after effects
  rw [← hengine] at hdeparts htimes
  rw [idsOf_append, if_pos rfl] at hcount
  refine ⟨transits ++ [Transit.first source target fields
    (outgoingTimestamp (engineAt simulation source) target) id], ?_⟩
  constructor
  · exact hextends.unhindered
  · exact h.idle.update hthere after effects
  · exact fun other hother => isSome_hosts_update source host after effects (h.hosts other hother)
  · rw [engineAt_update]
    exact h.coherent.depart hab hpair hcount hdeparts htimes
  · rw [hextends.inFlight]
    exact List.rel_append h.inFlight hdeparts.sent
  · rw [hextends.arrivals, hdeparts.heard, List.append_nil, List.filterMap_append,
      ← List.append_assoc, h.arrivals, List.filterMap_cons_some (Transit.arrival?_first _ _ _ _ _),
      List.map_append]
    rfl
  · rw [hextends.sent, List.map_append, Transit.map_sighting?_of_carries hdeparts.sent]
    exact h.accounted.depart (Transit.frames_first _ _ _ _ _)

lemma Exchange.deliverNext (hab : a ≠ b) {transit : Transit} {rest : List Transit}
    (h : Exchange a b firstIds postings (transit :: rest) simulation) :
    ∃ after isKnown, simulation.deliverNext? = some (after, isKnown) ∧
      Exchange a b firstIds postings (rest ++ transit.next?.toList) after := by
  obtain ⟨datagram, datagrams, hcarries, hrest, hqueue⟩ :=
    List.forall₂_cons_right_iff.1 h.inFlight
  have hgoal := h.coherent.goal.swap.left
  obtain ⟨host, hthere, hengine⟩ := h.engineAt_eq hgoal
  have hfiled := h.coherent.filed transit.goal hgoal
  have hunhindered := h.unhindered.withInFlight datagrams
  have hadvances := receive_advances ((withInFlight simulation datagrams).occasion transit.goal)
    (hunhindered.accepts transit.goal) hfiled hcarries
    (fun key hkey => h.coherent.statusAt_goal hkey)
    fun timestamp hstamp => (h.coherent.isFresh hstamp).1
  cases hreceived : (engineAt simulation transit.goal).receive
    ((withInFlight simulation datagrams).occasion transit.goal) datagram.source
    datagram.bytes with
  | mk after effects =>
  rw [hreceived] at hadvances
  rw [hengine, ← hcarries.target] at hreceived
  rw [← hcarries.target] at hthere
  refine ⟨_, _, deliverNext?_cons hqueue hthere hreceived, ?_⟩
  have hextends := hunhindered.extends_update transit.goal host after effects
  rw [hcarries.target] at hthere ⊢
  constructor
  · exact hextends.unhindered
  · have hidle : AllIdle (withInFlight simulation datagrams) := h.idle
    exact hidle.update hthere after effects
  · exact fun other hother => isSome_hosts_update _ host after effects (h.hosts other hother)
  · rw [engineAt_update]
    exact h.coherent.advance hab hadvances
  · rw [hextends.inFlight]
    exact List.rel_append hrest hadvances.sent
  · have harrivals := h.arrivals
    rw [← arrivals_advance, ← List.append_assoc] at harrivals
    rw [hextends.arrivals, hadvances.heard]
    exact harrivals
  · have haccounted := h.accounted.advance
    rw [hextends.sent, List.map_append, Transit.map_sighting?_of_carries hadvances.sent]
    exact haccounted

lemma Exchange.inFlight_eq_nil (h : Exchange a b firstIds postings [] simulation) :
    simulation.network.inFlight = [] :=
  List.forall₂_nil_right_iff.1 h.inFlight

/-- Every arrival leaves one frame less outstanding, until there is none. -/
lemma Exchange.deliverUpTo (hab : a ≠ b) {limit : Nat}
    (h : Exchange a b firstIds postings transits simulation)
    (hlimit : (outstanding transits).length ≤ limit) (count : Nat) :
    Exchange a b firstIds postings [] (simulation.deliverUpTo limit count).1 := by
  induction limit generalizing transits simulation count with
  | zero =>
    cases transits with
    | nil => exact h
    | cons transit rest => exact absurd hlimit (Nat.not_succ_le_zero _)
  | succ limit ih =>
    cases transits with
    | nil =>
      have hquiet : simulation.deliverNext? = none := by
        rw [Simulation.deliverNext?, h.inFlight_eq_nil]
      simp only [Simulation.deliverUpTo, hquiet]
      exact h
    | cons transit rest =>
      obtain ⟨after, isKnown, hnext, hafter⟩ := h.deliverNext hab
      have hless := length_outstanding_advance transit rest
      simp only [Simulation.deliverUpTo, hnext]
      exact ih hafter (by omega) _

lemma Exchange.deliver (hab : a ≠ b) (h : Exchange a b firstIds postings transits simulation) :
    Exchange a b firstIds postings [] (simulation.perform .deliver).1 := by
  apply h.deliverUpTo hab
  have hlength := h.inFlight.length_eq
  have hfew := length_outstanding_le transits
  unfold Simulation.deliveryBound
  omega

lemma Exchange.perform (hab : a ≠ b) (h : Exchange a b firstIds postings transits simulation)
    {step : SimulationStep} (hstep : IsExchangeStep a b step)
    (hsuccess : succeeds (step, (simulation.perform step).2) = true)
    (hcount : ∀ host, (idsOf host (postings ++
      (postingOf? (step, (simulation.perform step).2)).toList)).length ≤ idCycle) :
    ∃ transits', Exchange a b firstIds
      (postings ++ (postingOf? (step, (simulation.perform step).2)).toList) transits'
      (simulation.perform step).1 := by
  cases step with
  | send source target fields delivery =>
    obtain ⟨id, hok⟩ := exists_id_of_succeeds hsuccess
    have hposting : postingOf? (.send source target fields delivery,
        (simulation.perform (.send source target fields delivery)).2) =
        some ⟨source, target, id, fields⟩ := by
      rw [hok]
      rfl
    rw [hposting] at hcount ⊢
    exact h.send hab hstep hok (hcount source)
  | deliver =>
    rw [show postingOf? (.deliver, (simulation.perform .deliver).2) = none from rfl,
      Option.toList_none, List.append_nil]
    exact ⟨[], h.deliver hab⟩
  | sleep duration =>
    rw [show postingOf? (.sleep duration, (simulation.perform (.sleep duration)).2) = none from rfl,
      Option.toList_none, List.append_nil]
    exact ⟨transits, h.sleep duration⟩
  | _ => exact hstep.elim

lemma length_idsOf_le (host : Address) (before after : List Posting) :
    (idsOf host before).length ≤ (idsOf host (before ++ after)).length := by
  rw [idsOf, idsOf, List.filterMap_append, List.length_append]
  exact Nat.le_add_right _ _

lemma postingsOf_cons (answer : SimulationStep × SimulationAnswer)
    (rest : List (SimulationStep × SimulationAnswer)) :
    postingsOf (answer :: rest) = (postingOf? answer).toList ++ postingsOf rest := by
  unfold postingsOf
  cases h : postingOf? answer <;> simp [h]

lemma Exchange.performAll (hab : a ≠ b) {steps : List SimulationStep}
    (h : Exchange a b firstIds postings transits simulation)
    (hsteps : ∀ step ∈ steps, IsExchangeStep a b step)
    (hsuccess : (performAll simulation steps).2.all succeeds = true)
    (hcount : ∀ host,
      (idsOf host (postings ++ postingsOf (performAll simulation steps).2)).length ≤ idCycle) :
    ∃ transits', Exchange a b firstIds (postings ++ postingsOf (performAll simulation steps).2)
      transits' (performAll simulation steps).1 := by
  induction steps generalizing simulation postings transits with
  | nil =>
    refine ⟨transits, ?_⟩
    rw [Proofs.performAll, postingsOf, List.filterMap_nil, List.append_nil]
    exact h
  | cons step rest ih =>
    rw [Proofs.performAll] at hsuccess hcount ⊢
    dsimp only at hsuccess hcount ⊢
    rw [postingsOf_cons, ← List.append_assoc] at hcount ⊢
    rw [List.all_cons, Bool.and_eq_true] at hsuccess
    obtain ⟨middle, hmiddle⟩ := h.perform hab (hsteps step List.mem_cons_self) hsuccess.1
      fun host => Nat.le_trans (length_idsOf_le host _ _) (hcount host)
    exact ih hmiddle (fun step hstep => hsteps step (List.mem_cons_of_mem _ hstep)) hsuccess.2
      hcount

lemma Exchange.activeConnectionCount (h : Exchange a b firstIds postings [] simulation)
    {host : Address} (hhost : host = a ∨ host = b) :
    (engineAt simulation host).store.activeConnectionCount = 0 := by
  unfold Store.activeConnectionCount
  rw [← Std.ExtTreeMap.eq_empty_iff_size_eq_zero, Std.ExtTreeMap.eq_empty_iff_forall_not_mem]
  intro key hkey
  have hrecord := Std.ExtTreeMap.getElem?_eq_some_getElem hkey
  have hstatus := (h.coherent.status host hhost key _).1
    (by rw [statusAt, hrecord, Option.map_some])
  obtain ⟨transit, htransit, -⟩ := hstatus
  cases htransit

end Steps

lemma create_eq_ok {spec : HostSpec} {host : Host} (h : spec.create = .ok host) :
    host.engine = .starting spec.config spec.firstId ∧ Idle host.executor := by
  unfold HostSpec.create at h
  split at h
  · cases h
  · cases h
    exact ⟨rfl, Idle.withPool _ _⟩

def pairOf (a b : Address) (near far : Host) : Table Address Host :=
  (Table.empty.insert a near).insert b far

lemma ofSpecs_eq_ok {first second : HostSpec} {start : Simulation}
    (h : Simulation.ofSpecs [first, second] = .ok start) :
    ∃ near far, first.create = .ok near ∧ second.create = .ok far ∧
      start = { hosts := pairOf first.config.selfAddress second.config.selfAddress near far } := by
  unfold Simulation.ofSpecs at h
  simp only [List.foldlM_cons, List.foldlM_nil] at h
  cases hnear : first.create with
  | error error =>
    rw [hnear] at h
    cases h
  | ok near =>
    cases hfar : second.create with
    | error error =>
      rw [hnear, hfar] at h
      cases h
    | ok far =>
      rw [hnear, hfar] at h
      cases h
      exact ⟨near, far, rfl, rfl, rfl⟩

section Start

variable {a b : Address} {near far : Host}

lemma get?_pairOf {host : Address} (h : host = a ∨ host = b) :
    (pairOf a b near far).get? host = some near ∨ (pairOf a b near far).get? host = some far := by
  unfold pairOf
  rw [Table.get?_insert, Table.get?_insert]
  by_cases hfar : b = host
  · rw [if_pos hfar]
    exact Or.inr rfl
  · have hnear : a = host := (h.resolve_right fun hb => hfar hb.symm).symm
    rw [if_neg hfar, if_pos hnear]
    exact Or.inl rfl

lemma mem_pairOf {entry : Address × Host} (h : entry ∈ (pairOf a b near far).entries) :
    entry.2 = near ∨ entry.2 = far := by
  rcases mem_put h with rfl | hnear
  · exact Or.inr rfl
  · rcases mem_put hnear with rfl | hnone
    · exact Or.inl rfl
    · cases hnone

lemma coherent_start {engines : Address → Engine}
    (h : ∀ host, host = a ∨ host = b →
      ∃ config firstId, engines host = .starting config firstId) :
    Coherent a b (fun host => (engines host).messageIds) engines [] [] := by
  constructor
  · intro host hhost
    obtain ⟨config, firstId, hstart⟩ := h host hhost
    rw [hstart]
    exact wellFiled_starting config firstId
  · exact List.forall_mem_nil _
  · exact List.forall_mem_nil _
  · exact List.nodup_nil
  · exact fun host hhost => rfl
  · exact fun host hhost => rfl
  · intro host hhost key status
    obtain ⟨config, firstId, hstart⟩ := h host hhost
    rw [hstart]
    simp [statusAt, Engine.starting]
  · intro source target hpair
    obtain ⟨config, firstId, hsource⟩ := h source hpair.left
    obtain ⟨config', firstId', htarget⟩ := h target hpair.swap.left
    rw [hsource, htarget]
    simp [trackedTimestamp, outgoingTimestamp, Engine.starting, stampsFrom, trackAll, caughtUp]

lemma exchange_ofSpecs {first second : HostSpec} {start : Simulation}
    (h : Simulation.ofSpecs [first, second] = .ok start) :
    ∃ firstIds, Exchange first.config.selfAddress second.config.selfAddress firstIds [] []
      start := by
  obtain ⟨near, far, hnear, hfar, rfl⟩ := ofSpecs_eq_ok h
  obtain ⟨hnearEngine, hnearIdle⟩ := create_eq_ok hnear
  obtain ⟨hfarEngine, hfarIdle⟩ := create_eq_ok hfar
  refine ⟨_, ⟨rfl, rfl⟩, ?_, ?_, coherent_start ?_, List.Forall₂.nil, rfl, List.Perm.refl _⟩
  · intro entry hentry
    rcases mem_pairOf hentry with hentry | hentry <;> rw [hentry]
    · exact hnearIdle
    · exact hfarIdle
  · intro host hhost
    rcases get?_pairOf hhost with hthere | hthere <;> exact Option.isSome_of_eq_some hthere
  · intro host hhost
    rcases get?_pairOf hhost with hthere | hthere
    · exact ⟨_, _, (engineAt_of_get? hthere).trans hnearEngine⟩
    · exact ⟨_, _, (engineAt_of_get? hthere).trans hfarEngine⟩

end Start

/-- Two hosts send messages to each other, while datagrams are delivered and time passes at any
point, and no send fails. After a last delivery, all messages have been delivered in the order in
which they were sent, each once, with the id that its sender got and with its fields. What was sent
over the network are the frames of these messages, one for each without an id and four for each with
one. Nothing is in flight, and no host has an open handshake. -/
theorem lossless_completion {first second : HostSpec} {start : Simulation}
    (hstart : Simulation.ofSpecs [first, second] = .ok start)
    (hdistinct : first.config.selfAddress ≠ second.config.selfAddress)
    {steps : List SimulationStep}
    (hsteps : ∀ step ∈ steps,
      IsExchangeStep first.config.selfAddress second.config.selfAddress step)
    (hsuccess : (performAll start steps).2.all succeeds = true)
    (hcount : ∀ host, (idsOf host (postingsOf (performAll start steps).2)).length < 4294967295) :
    let postings := postingsOf (performAll start steps).2
    let final := ((performAll start steps).1.perform .deliver).1
    final.arrivals = postings.map Posting.arrival ∧
      (final.network.sent.map sighting?).Perm ((postings.flatMap Posting.frames).map some) ∧
      final.network.inFlight = [] ∧
      ∀ spec ∈ [first, second], ∃ host, final.hosts.get? spec.config.selfAddress = some host ∧
        host.engine.store.activeConnectionCount = 0 := by
  intro postings final
  obtain ⟨firstIds, hfirst⟩ := exchange_ofSpecs hstart
  obtain ⟨transits, hrun⟩ := hfirst.performAll hdistinct hsteps hsuccess
    fun host => Nat.le_of_lt (hcount host)
  have hfinal := hrun.deliver hdistinct
  refine ⟨?_, ?_, hfinal.inFlight_eq_nil, ?_⟩
  · have harrivals := hfinal.arrivals
    rw [List.filterMap_nil, List.append_nil] at harrivals
    exact harrivals
  · have haccounted := hfinal.accounted
    rw [Accounted, unsent, List.flatMap_nil, List.map_nil, List.append_nil] at haccounted
    exact haccounted
  · intro spec hspec
    have hend : spec.config.selfAddress = first.config.selfAddress ∨
        spec.config.selfAddress = second.config.selfAddress := by
      rcases List.mem_cons.1 hspec with rfl | hspec
      · exact Or.inl rfl
      · exact Or.inr (by rw [List.mem_singleton.1 hspec])
    obtain ⟨host, hthere, hengine⟩ := hfinal.engineAt_eq hend
    exact ⟨host, hthere, hengine ▸ hfinal.activeConnectionCount hend⟩

/-- Messages that cross each other, of hosts whose counters are about to wrap around. -/
theorem lossless_completion_crossing :
    let near : Address := .loopback 9001
    let far : Address := .loopback 9002
    let first : HostSpec := { config := { selfAddress := near }, firstId := 4294967295 }
    let second : HostSpec := { config := { selfAddress := far }, firstId := 1 }
    let host : HostSpec → Host := fun spec =>
      { engine := .starting spec.config spec.firstId, executor := .withPool 50 4 }
    let start : Simulation := { hosts := pairOf near far (host first) (host second) }
    let steps : List SimulationStep :=
      [.send near far { shorts := some [5] } .reliable,
        .send far near { booleans := some [true] } .unreliable,
        .send near far { chars := some "a" } .reliable,
        .deliver,
        .send far near {} .reliable]
    let final := ((performAll start steps).1.perform .deliver).1
    let postings : List Posting :=
      [⟨near, far, some 4294967295, { shorts := some [5] }⟩,
        ⟨far, near, none, { booleans := some [true] }⟩,
        ⟨near, far, some 1, { chars := some "a" }⟩,
        ⟨far, near, some 1, {}⟩]
    Simulation.ofSpecs [first, second] = .ok start ∧ near ≠ far ∧
      (∀ step ∈ steps, IsExchangeStep near far step) ∧
      (performAll start steps).2.all succeeds = true ∧
      (∀ host, (idsOf host (postingsOf (performAll start steps).2)).length < 4294967295) ∧
      postingsOf (performAll start steps).2 = postings ∧
      final.arrivals = postings.map Posting.arrival ∧
      (final.network.sent.map sighting?).Perm ((postings.flatMap Posting.frames).map some) ∧
      final.network.inFlight = [] ∧
      ∀ spec ∈ [first, second], ∃ host, final.hosts.get? spec.config.selfAddress = some host ∧
        host.engine.store.activeConnectionCount = 0 := by
  intro near far first second host start steps final postings
  have hstart : Simulation.ofSpecs [first, second] = .ok start := rfl
  have hdistinct : near ≠ far := by decide
  have hsteps : ∀ step ∈ steps, IsExchangeStep near far step := by
    simp [steps, IsExchangeStep, Ends]
  have hsuccess : (performAll start steps).2.all succeeds = true := by decide +kernel
  have hpostings : postingsOf (performAll start steps).2 = postings := by decide +kernel
  have hcount : ∀ host,
      (idsOf host (postingsOf (performAll start steps).2)).length < 4294967295 := by
    intro host
    rw [hpostings]
    exact Nat.lt_of_le_of_lt (List.length_filterMap_le _ postings) (by decide)
  -- the final state is not to be evaluated
  have hfinal : ((performAll start steps).1.perform .deliver).1 = final := rfl
  clear_value final
  have hcompletion := lossless_completion hstart hdistinct hsteps hsuccess hcount
  rw [hpostings, hfinal] at hcompletion
  exact ⟨hstart, hdistinct, hsteps, hsuccess, hcount, hpostings, hcompletion⟩

end ReliableDatagrams.Proofs
