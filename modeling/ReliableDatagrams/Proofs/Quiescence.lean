import ReliableDatagrams.Proofs.DataFrames
import ReliableDatagrams.Proofs.Retransmission
import ReliableDatagrams.Proofs.SimulationChanges
import ReliableDatagrams.Proofs.Totals

/-!
# Networks become quiet

Engines answer datagrams with datagrams, and a first frame and a failure can go back and forth, but
not for ever. A datagram weighs as much as the longest exchange that it can set off, and a repeated
first frame is paid for by the failures that its record still puts up with. Every delivery lowers
what is left of both, whatever is in flight and whatever is lost on the way.
-/

namespace ReliableDatagrams.Proofs

/-- The number of datagrams in the longest exchange that a frame of a kind can begin, repetitions of
first frames apart. -/
def exchangeLength : Option FrameKind → Nat
  | some .syn => 4
  | some .synSuccess | some .synFailure => 3
  | some .synAckSuccess => 2
  | _ => 1

def Datagram.weight (datagram : Datagram) : Nat :=
  exchangeLength datagram.kind?

lemma exchangeLength_pos (kind? : Option FrameKind) : 1 ≤ exchangeLength kind? := by
  unfold exchangeLength
  split <;> omega

lemma exchangeLength_le (kind? : Option FrameKind) : exchangeLength kind? ≤ 4 := by
  unfold exchangeLength
  split <;> omega

/-- What an effect puts on the wire. -/
def effectWeight : Effect → Nat
  | .sent _ bytes true => exchangeLength (announcedKind? bytes)
  | _ => 0

def repeatsLeft (connections : Std.ExtTreeMap ConnectionKey ConnectionRecord) : Nat :=
  total ConnectionRecord.retriesLeft connections.values

lemma announcedKind?_encodeControl (kind : FrameKind) (id : UInt32) :
    announcedKind? (encodeControl kind id) = some kind := by
  simp only [announcedKind?, encodeControl, List.head?_cons, Option.bind_some, ofByte_toByte,
    FrameKind.kind?_flags]

lemma effectWeight_control_le (kind : FrameKind) (id : UInt32) (target : Address)
    (accepted : Bool) : effectWeight (.sent target (encodeControl kind id) accepted) ≤
      exchangeLength (some kind) := by
  cases accepted with
  | false => exact Nat.zero_le _
  | true => exact Nat.le_of_eq (by rw [effectWeight, announcedKind?_encodeControl])

lemma effectWeight_le (effect : Effect) : effectWeight effect ≤ 4 := by
  unfold effectWeight
  split
  · exact exchangeLength_le _
  · omega

lemma retriesLeft_receiver {record : ConnectionRecord} (h : record.key.role = .receiver) :
    record.retriesLeft = 0 := by
  simp [ConnectionRecord.retriesLeft, h]

section Engines

variable {engine after : Engine} {effects : List Effect} {occasion : Occasion}
variable (connections : Std.ExtTreeMap ConnectionKey ConnectionRecord)

lemma repeatsLeft_erase_le (key : ConnectionKey) :
    repeatsLeft (connections.erase key) ≤ repeatsLeft connections := by
  have hsum := total_values_erase ConnectionRecord.retriesLeft connections key
  unfold repeatsLeft
  omega

lemma repeatsLeft_erase_of_filed {key : ConnectionKey} {record : ConnectionRecord}
    (h : connections[key]? = some record) :
    repeatsLeft (connections.erase key) + record.retriesLeft = repeatsLeft connections := by
  have hsum := total_values_erase ConnectionRecord.retriesLeft connections key
  rw [h] at hsum
  exact hsum

lemma repeatsLeft_afterTransmit_le (connection : ConnectionRecord) (frame : Bytes)
    (accepted : Bool) : repeatsLeft (afterTransmit connections connection frame accepted) ≤
      repeatsLeft (connections.erase connection.key) + connection.retriesLeft := by
  cases accepted with
  | false => exact Nat.le_add_right _ _
  | true =>
    have hinsert := total_values_insert ConnectionRecord.retriesLeft connections connection.key
      { connection with lastSent := some frame }
    have herase := total_values_erase ConnectionRecord.retriesLeft connections connection.key
    have hsame : ConnectionRecord.retriesLeft { connection with lastSent := some frame } =
        connection.retriesLeft := rfl
    simp only [repeatsLeft, afterTransmit, if_true]
    omega

lemma repeatsLeft_afterTransmit_of_zero {connection : ConnectionRecord}
    (h : connection.retriesLeft = 0) (frame : Bytes) (accepted : Bool) :
    repeatsLeft (afterTransmit connections connection frame accepted) ≤
      repeatsLeft connections := by
  have hle := repeatsLeft_afterTransmit_le connections connection frame accepted
  have herase := repeatsLeft_erase_le connections connection.key
  omega

/-- Every record is filed under its own key, and no sender's count of failures can overflow. -/
structure IsCountable (engine : Engine) : Prop where
  filed : WellFiled engine.store
  senders : ∃ bound : UInt32, bound < 4294967295 ∧ SendersWithin bound engine.store.connections

lemma RetryMove.weight {connection : ConnectionRecord} (hc : IsCountable engine)
    (hfiled : engine.store.connections[connection.key]? = some connection)
    (h : RetryMove engine occasion connection after effects) :
    total effectWeight effects + 2 * repeatsLeft after.store.connections ≤
      2 * repeatsLeft engine.store.connections + 2 := by
  cases h with
  | givenUp filed =>
    have herase := repeatsLeft_erase_le engine.store.connections connection.key
    rw [filed, total_nil]
    omega
  | @repeated _ _ frame role status buffered written within filed =>
    have hold := repeatsLeft_erase_of_filed _ hfiled
    have hnew := repeatsLeft_afterTransmit_le engine.store.connections
      { connection with failures := connection.failures + 1, lastInteraction := occasion.now }
      frame (occasion.accepts connection.key.peer frame)
    have hsent := effectWeight_le
      (.sent connection.key.peer frame (occasion.accepts connection.key.peer frame))
    have hcost : ConnectionRecord.retriesLeft { connection with
        failures := connection.failures + 1, lastInteraction := occasion.now } + 1 =
          connection.retriesLeft := by
      obtain ⟨bound, hcountable, hsenders⟩ := hc.senders
      have hroom := (hsenders _ _ hfiled role).failures
      have hcount := toNat_succ_of_lt (UInt32.lt_of_le_of_lt hroom hcountable)
      have hwithin := UInt32.le_iff_toNat_le.1 within
      simp only [ConnectionRecord.retriesLeft, role, status, and_self, if_true]
      omega
    dsimp only at hnew
    rw [filed, total_cons, total_nil]
    omega

/-- An answer that begins a shorter exchange, with no more retries than before. -/
lemma weight_of_answer {datagram : Bytes} {kind answer : FrameKind} {id : UInt32}
    (hkind : announcedKind? datagram = some kind)
    (hshorter : exchangeLength (some answer) + 1 ≤ exchangeLength (some kind))
    (hrecords : repeatsLeft after.store.connections ≤ repeatsLeft engine.store.connections)
    (target : Address) (accepted : Bool) :
    effectWeight (.sent target (encodeControl answer id) accepted) +
        2 * repeatsLeft after.store.connections + 1 ≤
      exchangeLength (announcedKind? datagram) + 2 * repeatsLeft engine.store.connections := by
  have hanswer := effectWeight_control_le answer id target accepted
  rw [hkind]
  omega

/-- The retries of senders do not depend on what is sent for a receiver. -/
lemma repeatsLeft_of_receiver {connection : ConnectionRecord} {frame : Bytes} {accepted : Bool}
    (hrole : connection.key.role = .receiver)
    (h : after.store.connections =
      afterTransmit engine.store.connections connection frame accepted) :
    repeatsLeft after.store.connections ≤ repeatsLeft engine.store.connections := by
  rw [h]
  exact repeatsLeft_afterTransmit_of_zero _ (retriesLeft_receiver hrole) _ _

theorem ReceiveMove.weight {source : Address} {datagram : Bytes} (hc : IsCountable engine)
    (h : ReceiveMove engine occasion source datagram after effects) :
    total effectWeight effects + 2 * repeatsLeft after.store.connections + 1 ≤
      exchangeLength (announcedKind? datagram) + 2 * repeatsLeft engine.store.connections := by
  have hpos := exchangeLength_pos (announcedKind? datagram)
  have hf := hc.filed.connection
  cases h with
  | ignored same =>
    rw [same, total_nil]
    omega
  | plain decoded kind fresh same =>
    rw [same]
    simp only [total_cons, total_nil, effectWeight]
    omega
  | rejected invalid record waiting filed =>
    have hkey := (record.key hf).1
    have hsyn : announcedKind? datagram = some .syn := by
      rcases invalid with ⟨header, expected, actual, hdecode, hkind, -⟩ | ⟨frame, hreads, -⟩
      · rw [announcedKind?_of_mismatch hdecode, hkind]
      · rw [announcedKind?_of_decode hreads.decoded, hreads.kind]
    refine weight_of_answer hsyn (by decide) ?_ _ _
    rw [filed]
    split
    · refine repeatsLeft_afterTransmit_of_zero _ (retriesLeft_receiver ?_) _ _
      simp [hkey]
    · exact repeatsLeft_erase_le _ _
  | confirmed reads record opened filed =>
    have hkey := (hf _ _ record).1
    have hsyn := (announcedKind?_of_decode reads.decoded).trans (congrArg some reads.kind)
    exact weight_of_answer hsyn (by decide) (repeatsLeft_of_receiver (by simp [hkey]) filed) _ _
  | accepted reads record waiting fresh filed =>
    have hkey := (record.key hf).1
    have hsyn := (announcedKind?_of_decode reads.decoded).trans (congrArg some reads.kind)
    exact weight_of_answer hsyn (by decide) (repeatsLeft_of_receiver (by simp [hkey]) filed) _ _
  | acknowledged reads record status filed =>
    have hsuccess := (announcedKind?_of_decode reads.decoded).trans (congrArg some reads.kind)
    refine weight_of_answer hsuccess (by decide) ?_ _ _
    rw [filed]
    exact repeatsLeft_afterTransmit_of_zero _ (by simp [ConnectionRecord.retriesLeft]) _ _
  | retried reads record retry =>
    have hkey := (hf _ _ record).1
    have hretry := retry.weight hc (by rw [hkey]; exact record)
    rw [announcedKind?_of_decode reads.decoded, reads.kind]
    simp only [exchangeLength]
    omega
  | closed reads filed =>
    have hseen := (announcedKind?_of_decode reads.decoded).trans (congrArg some reads.kind)
    refine weight_of_answer hseen (by decide) ?_ _ _
    rw [filed]
    exact repeatsLeft_erase_le _ _
  | @finished id frame connection reads record status filed =>
    have hrecords := repeatsLeft_erase_le engine.store.connections ⟨source, id, .sender⟩
    rw [filed, total_nil]
    omega

end Engines

/-- The loop that delivers the next datagram until there is none comes to an end after some rounds,
in some of which a host was found. -/
inductive DeliversUntilQuiet : Simulation → (rounds delivered : Nat) → Simulation → Prop where
  | quiet {simulation : Simulation} (empty : simulation.network.inFlight = []) :
      DeliversUntilQuiet simulation 0 0 simulation
  | next {simulation between after : Simulation} {isKnown : Bool} {rounds delivered : Nat}
      (front : simulation.deliverNext? = some (between, isKnown))
      (rest : DeliversUntilQuiet between rounds delivered after) :
      DeliversUntilQuiet simulation (rounds + 1)
        (if isKnown then delivered + 1 else delivered) after

def remaining (simulation : Simulation) : Nat :=
  total Datagram.weight simulation.network.inFlight + 2 * simulation.retriesLeft

section Deliveries

variable {simulation after : Simulation}

namespace DeliversUntilQuiet

variable {rounds delivered : Nat}

lemma inFlight (h : DeliversUntilQuiet simulation rounds delivered after) :
    after.network.inFlight = [] := by
  induction h with
  | quiet empty => exact empty
  | next _ _ ih => exact ih

end DeliversUntilQuiet

end Deliveries

section Reachable

variable {simulation : Simulation}

end Reachable

end ReliableDatagrams.Proofs
