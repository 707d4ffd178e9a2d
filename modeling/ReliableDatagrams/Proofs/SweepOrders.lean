import ReliableDatagrams.Proofs.SweepOutcomes

/-!
# The order of a sweep

In which order a sweep comes to the peers, and then to the handshakes, is up to the maps that they
are filed in. Every order takes each record through the same: it stays, is repeated once, or goes to
the pool once; and to each peer the same frames are written, with the same numbers in some order.
`SweepsOnce` says what a sweep comes to, and `SameSweep` how two orders may differ.
-/

namespace ReliableDatagrams.Proofs

/-- The first number that a sweep can take for a frame to a peer. -/
def firstNumber (engine : Engine) (now : Nat) (peer : Address) : UInt16 :=
  ((sweptOf engine now peer).map PeerRecord.nextTimestamp).getD 0

/-- A sweep takes every record through what is due for it. A frame is repeated for each handshake
that is overdue, in the order of the visits, and the frames to a peer have consecutive numbers. -/
structure SweepsOnce (engine : Engine) (now : Nat) (keys : List ConnectionKey)
    (frames : ConnectionKey → Bytes) (after : Engine) (effects : List Effect) : Prop where
  config : after.config = engine.config
  messageIds : after.messageIds = engine.messageIds
  handshakes : ∀ key,
    VisitedOnce now (frames key) engine.store.connections[key]? after.store.connections[key]?
  handed : effects = (keys.filter (isOverdueAt engine now)).map fun key =>
    .sent key.peer (frames key) true
  stamps : ∀ peer, stampsTo peer effects = (List.range (repeatsTo engine now peer keys)).map
    fun i => stampOf (firstNumber engine now peer + .ofNat i)
  peers : ∀ peer, WritesTo engine.store now peer (repeatsTo engine now peer keys)
    (sweptOf engine now peer) after.store.peers[peer]?
  pool : Pools engine.store now (fun _ => True) after.store

/-- The record of a handshake, but for the frame that it keeps. -/
def withoutFrame (record : ConnectionRecord) : ConnectionRecord :=
  { record with lastSent := none }

def withoutSerial (record : PeerRecord) : PeerRecord :=
  { record with serial := 0 }

/-- Two outcomes of a sweep are the same, but for the numbers in repeated frames and the serial
numbers of new records. -/
structure SameSweep (engine : Engine) (now : Nat) (first second : Engine × List Effect) : Prop where
  config : first.1.config = second.1.config
  messageIds : first.1.messageIds = second.1.messageIds
  handshakes : ∀ key : ConnectionKey, (first.1.store.connections[key]?).map withoutFrame =
    (second.1.store.connections[key]?).map withoutFrame
  settled : ∀ key, isOverdueAt engine now key = false →
    first.1.store.connections[key]? = second.1.store.connections[key]?
  peers : ∀ peer : Address, (first.1.store.peers[peer]?).map withoutSerial =
    (second.1.store.peers[peer]?).map withoutSerial
  known : ∀ peer, sweptOf engine now peer ≠ none →
    first.1.store.peers[peer]? = second.1.store.peers[peer]?
  pool : first.1.store.pending = second.1.store.pending
  repeats : ∀ peer id,
    first.2.countP (isSynFor peer id) = second.2.countP (isSynFor peer id)
  stamps : ∀ peer, stampsTo peer first.2 = stampsTo peer second.2

section Orders

variable {Sent : Address → UInt32 → FieldMap → Prop} {engine : Engine} (occasion : Occasion)
variable {addresses : List Address} {keys : List ConnectionKey}

end Orders

section Twice

variable {Sent : Address → UInt32 → FieldMap → Prop} {engine : Engine} {now : Nat}

lemma VisitedOnce.unique {frame other : Bytes} {old found again : Option ConnectionRecord}
    (h : VisitedOnce now frame old found) (hother : VisitedOnce now other old again) :
    found.map withoutFrame = again.map withoutFrame ∧
      ((old.any fun record => decide (IsOverdue now record)) = false → found = again) := by
  cases h with
  | absent =>
    cases hother
    exact ⟨rfl, fun _ => rfl⟩
  | awake early =>
    cases hother with
    | awake => exact ⟨rfl, fun _ => rfl⟩
    | again overdue buffered written => exact absurd early (Nat.not_lt.2 overdue.idle)
    | givenUp idle last => exact absurd early (Nat.not_lt.2 idle)
  | again overdue buffered written =>
    cases hother with
    | awake early => exact absurd early (Nat.not_lt.2 overdue.idle)
    | again => exact ⟨rfl, fun hnever => absurd overdue (of_decide_eq_false hnever)⟩
    | givenUp idle last => exact absurd overdue last
  | givenUp idle last =>
    cases hother with
    | awake early => exact absurd early (Nat.not_lt.2 idle)
    | again overdue buffered written => exact absurd overdue last
    | givenUp => exact ⟨rfl, fun _ => rfl⟩

lemma WritesTo.unique {store : Store} {peer : Address} {count : Nat}
    {known found again : Option PeerRecord} (h : WritesTo store now peer count known found)
    (hother : WritesTo store now peer count known again) :
    found.map withoutSerial = again.map withoutSerial ∧ (known ≠ none → found = again) := by
  rcases Nat.eq_zero_or_pos count with hzero | hsome
  · rw [h.unwritten hzero, hother.unwritten hzero]
    exact ⟨rfl, fun _ => rfl⟩
  · obtain ⟨serial, -, rfl⟩ := h.written hsome
    obtain ⟨other, -, rfl⟩ := hother.written hsome
    cases known with
    | none => exact ⟨rfl, fun hnone => absurd rfl hnone⟩
    | some record => exact ⟨rfl, fun _ => rfl⟩

lemma Pools.unique {store first second : Store} {visited : RecordKey → Prop}
    (h : Pools store now visited first) (hother : Pools store now visited second) :
    first.pending = second.pending := by
  have hentries : first.pending.entries = second.pending.entries := by
    ext serial : 1
    by_cases hremoved : ∃ key record, visited key ∧ filed? store key = some record ∧
        SweepRemoves now record ∧ record.serial = serial
    · obtain ⟨key, record, hkey, hfiled, hremoved, rfl⟩ := hremoved
      rw [h.pooled key hkey record hfiled hremoved, hother.pooled key hkey record hfiled hremoved]
    · have hnone : ∀ key, visited key → ∀ record, filed? store key = some record →
          SweepRemoves now record → record.serial ≠ serial :=
        fun key hkey record hfiled hgone hserial =>
          hremoved ⟨key, record, hkey, hfiled, hgone, hserial⟩
      rw [h.others serial hnone, hother.others serial hnone]
  cases hfirst : first.pending
  cases hsecond : second.pending
  rw [hfirst, hsecond] at hentries
  exact congrArg PendingPool.mk hentries

variable {keys : List ConnectionKey} {frames : ConnectionKey → Bytes} {after : Engine}
variable {effects : List Effect}

lemma SweepsOnce.synId? (h : SweepsOnce engine now keys frames after effects)
    (hw : WellFiled engine.store) (hs : SendersKeep Sent engine.store.connections)
    {key : ConnectionKey} (hkey : isOverdueAt engine now key = true) :
    key.role = .sender ∧ Proofs.synId? (frames key) = some key.messageId := by
  have hvisited := h.handshakes key
  obtain ⟨record, hfiled, hoverdue⟩ := (Option.any_eq_true _ _).1 hkey
  obtain rfl := (hw.connection _ _ hfiled).1
  have hoverdue := of_decide_eq_true hoverdue
  obtain ⟨fields, syn, hsyn, hfirst⟩ := hoverdue.buffered hs hfiled
  obtain ⟨frame, hreads, -⟩ := hfirst.readsMessage
  rw [hfiled] at hvisited
  generalize after.store.connections[record.key]? = found at hvisited
  cases hvisited with
  | awake early => exact absurd early (Nat.not_lt.2 hoverdue.idle)
  | again overdue buffered written =>
    cases hsyn.symm.trans buffered
    exact ⟨overdue.role, written.synId? (synId?_of_reads hreads)⟩
  | givenUp idle last => exact absurd hoverdue last

lemma SweepsOnce.countP_isSynFor (h : SweepsOnce engine now keys frames after effects)
    (hw : WellFiled engine.store) (hs : SendersKeep Sent engine.store.connections)
    (peer : Address) (id : UInt32) : effects.countP (isSynFor peer id) =
      (keys.filter (isOverdueAt engine now)).countP fun key =>
        decide (key.peer = peer ∧ key.messageId = id) := by
  rw [h.handed, List.countP_map]
  refine List.countP_congr fun key hkey => ?_
  have hid := (h.synId? hw hs (List.mem_filter.1 hkey).2).2
  simp only [Function.comp_apply, isSynFor, hid, Option.some.injEq]

lemma SweepsOnce.same (h : SweepsOnce engine now keys frames after effects)
    (hw : WellFiled engine.store) (hs : SendersKeep Sent engine.store.connections)
    {others : List ConnectionKey} {again : ConnectionKey → Bytes} {later : Engine}
    {more : List Effect} (hother : SweepsOnce engine now others again later more)
    (hperm : keys.Perm others) : SameSweep engine now (after, effects) (later, more) := by
  have hcount : ∀ peer, repeatsTo engine now peer keys = repeatsTo engine now peer others :=
    fun peer => hperm.countP_eq _
  have hpeers : ∀ peer : Address, (after.store.peers[peer]?).map withoutSerial =
      (later.store.peers[peer]?).map withoutSerial ∧
        (sweptOf engine now peer ≠ none → after.store.peers[peer]? = later.store.peers[peer]?) := by
    intro peer
    have hwrites := h.peers peer
    rw [hcount] at hwrites
    exact hwrites.unique (hother.peers peer)
  constructor
  · exact h.config.trans hother.config.symm
  · exact h.messageIds.trans hother.messageIds.symm
  · exact fun key => ((h.handshakes key).unique (hother.handshakes key)).1
  · exact fun key => ((h.handshakes key).unique (hother.handshakes key)).2
  · exact fun peer => (hpeers peer).1
  · exact fun peer => (hpeers peer).2
  · exact h.pool.unique hother.pool
  · intro peer id
    dsimp only
    rw [h.countP_isSynFor hw hs, hother.countP_isSynFor hw hs]
    exact (hperm.filter _).countP_eq _
  · intro peer
    dsimp only
    rw [h.stamps, hother.stamps, hcount]

end Twice

end ReliableDatagrams.Proofs
