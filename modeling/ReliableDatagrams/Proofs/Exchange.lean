import Mathlib.Logic.Function.Basic
import ReliableDatagrams.Proofs.Transit

/-!
# Two hosts and what is in transit between them

While two hosts send messages to each other and nothing is lost, their records are those of the
messages in transit, ids do not clash, and the frames on their way carry timestamps that will all be
found fresh, in their order, up to the one that was drawn last. Sending a message and the arrival of
the frame in front of the queue preserve this.
-/

namespace ReliableDatagrams.Proofs

/-- A message that was sent, with the id that it got. -/
structure Posting where
  source : Address
  target : Address
  id : Option UInt32
  fields : FieldMap
deriving DecidableEq

/-- The message is sent from one of two hosts to the other. -/
def Ends (a b source target : Address) : Prop :=
  source = a ∧ target = b ∨ source = b ∧ target = a

def idsOf (host : Address) (postings : List Posting) : List UInt32 :=
  postings.filterMap fun posting => if posting.source = host then posting.id else none

/-- The timestamps of the first frames that are on their way from a host. -/
def stampsFrom (host : Address) (transits : List Transit) : List (Option UInt16) :=
  transits.filterMap fun transit => if transit.source = host then transit.stamp? else none

/-- What is tracked after first frames with some timestamps came in, if all of them are fresh. -/
def trackAll : Option UInt16 → List (Option UInt16) → Option (Option UInt16)
  | tracked, [] => some tracked
  | tracked, timestamp :: rest =>
    if isFreshAfter tracked timestamp then trackAll timestamp rest else none

/-- What is tracked once the last frame before the next timestamp has come in. -/
def caughtUp (next : UInt16) : Option UInt16 :=
  if next = 0 then none else some (next - 1)

structure Coherent (a b : Address) (firstIds : Address → MessageIds) (engines : Address → Engine)
    (postings : List Posting) (transits : List Transit) : Prop where
  filed : ∀ host, host = a ∨ host = b → WellFiled (engines host).store
  ends : ∀ transit ∈ transits, Ends a b transit.source transit.target
  known : ∀ transit ∈ transits, ∀ source id, transit.handshake? = some (source, id) →
    id ∈ idsOf source postings
  distinct : (transits.filterMap Transit.handshake?).Nodup
  counter : ∀ host, host = a ∨ host = b →
    (engines host).messageIds = afterDraws (idsOf host postings).length (firstIds host)
  ids : ∀ host, host = a ∨ host = b →
    idsOf host postings = MessageIds.drawMany (idsOf host postings).length (firstIds host)
  status : ∀ host, host = a ∨ host = b → ∀ key status,
    statusAt (engines host) key = some status ↔
      ∃ transit ∈ transits, transit.status? host key = some status
  stamps : ∀ source target, Ends a b source target →
    trackAll (trackedTimestamp (engines target) source) (stampsFrom source transits) =
      some (caughtUp (outgoingTimestamp (engines source) target))

section Ends

variable {a b source target : Address}

lemma Ends.swap (h : Ends a b source target) : Ends a b target source := by
  rcases h with ⟨rfl, rfl⟩ | ⟨rfl, rfl⟩
  · exact Or.inr ⟨rfl, rfl⟩
  · exact Or.inl ⟨rfl, rfl⟩

lemma Ends.left (h : Ends a b source target) : source = a ∨ source = b := by
  rcases h with ⟨hsource, -⟩ | ⟨hsource, -⟩
  · exact Or.inl hsource
  · exact Or.inr hsource

lemma Ends.ne (hab : a ≠ b) (h : Ends a b source target) : source ≠ target := by
  rcases h with ⟨rfl, rfl⟩ | ⟨rfl, rfl⟩
  · exact hab
  · exact hab.symm

lemma Ends.eq_of_target {other : Address} (hab : a ≠ b) (h : Ends a b source target)
    (h' : Ends a b other target) : source = other := by
  rcases h with ⟨rfl, rfl⟩ | ⟨rfl, rfl⟩ <;> rcases h' with ⟨rfl, hother⟩ | ⟨rfl, hother⟩
  · rfl
  · exact absurd hother hab.symm
  · exact absurd hother hab
  · rfl

lemma Ends.origin {transit : Transit} (h : Ends a b transit.source transit.target) :
    Ends a b transit.origin transit.goal := by
  cases transit with
  | plain | syn | synAckSuccess => exact h
  | synSuccess | ack => exact h.swap

end Ends

lemma trackAll_append (tracked : Option UInt16) (stamps : List (Option UInt16))
    (timestamp : Option UInt16) :
    trackAll tracked (stamps ++ [timestamp]) =
      (trackAll tracked stamps).bind fun last =>
        if isFreshAfter last timestamp then some timestamp else none := by
  induction stamps generalizing tracked with
  | nil => rfl
  | cons first rest ih =>
    rw [List.cons_append, trackAll, trackAll]
    split
    · exact ih first
    · rfl

lemma toNat_sub_one {next : UInt16} (h : next ≠ 0) : (next - 1).toNat = next.toNat - 1 := by
  have hpos : next.toNat ≠ 0 := fun h0 => h (UInt16.toNat_inj.1 h0)
  have hone : (1 : UInt16) ≤ next := UInt16.le_iff_toNat_le.2 (Nat.one_le_iff_ne_zero.2 hpos)
  rw [UInt16.toNat_sub_of_le _ _ hone]
  rfl

/-- The timestamp that is drawn next is fresh for a peer that has caught up, and the peer has caught
up again when it has come in. -/
lemma isFreshAfter_caughtUp (next : UInt16) :
    isFreshAfter (caughtUp next) (if next = wraparoundTimestamp then none else some next) = true := by
  by_cases hwrap : next = wraparoundTimestamp
  · rw [if_pos hwrap]
    rfl
  · rw [if_neg hwrap]
    by_cases hzero : next = 0
    · rw [caughtUp, if_pos hzero]
      rfl
    · have hlt : next - 1 < next := by
        rw [UInt16.lt_iff_toNat_lt, toNat_sub_one hzero]
        have hpos : next.toNat ≠ 0 := fun h0 => hzero (UInt16.toNat_inj.1 h0)
        omega
      rw [caughtUp, if_neg hzero]
      simpa [isFreshAfter] using hlt

lemma caughtUp_succ (next : UInt16) :
    (if next = wraparoundTimestamp then none else some next) = caughtUp (next + 1) := by
  by_cases hwrap : next = wraparoundTimestamp
  · rw [if_pos hwrap, hwrap]
    rfl
  · have hsucc : next + 1 ≠ 0 := by
      intro hzero
      apply hwrap
      have hback : next + 1 - 1 = 0 - 1 := by rw [hzero]
      rw [UInt16.add_sub_cancel] at hback
      exact hback
    rw [if_neg hwrap, caughtUp, if_neg hsucc, UInt16.add_sub_cancel]

section Steps

variable {a b : Address} {firstIds : Address → MessageIds} {engines : Address → Engine}
variable {postings : List Posting} {transit : Transit} {rest : List Transit}

lemma handshake?_ne_of_distinct (h : ((transit :: rest).filterMap Transit.handshake?).Nodup)
    {handshake : Address × UInt32} (hfirst : transit.handshake? = some handshake) {other : Transit}
    (hother : other ∈ rest) : other.handshake? ≠ some handshake := by
  intro hsame
  rw [List.filterMap_cons_some hfirst, List.nodup_cons] at h
  exact h.1 (List.mem_filterMap.2 ⟨other, hother, hsame⟩)

lemma Coherent.goal (h : Coherent a b firstIds engines postings (transit :: rest)) :
    Ends a b transit.origin transit.goal :=
  (h.ends transit List.mem_cons_self).origin

/-- The record at the goal of a frame is the one that belongs to it. -/
lemma Coherent.statusAt_goal (h : Coherent a b firstIds engines postings (transit :: rest))
    {key : ConnectionKey} (hkey : transit.goalKey? = some key) :
    statusAt (engines transit.goal) key = transit.status? transit.goal key := by
  have hstatus := h.status transit.goal h.goal.swap.left key
  cases hown : transit.status? transit.goal key with
  | some status => exact (hstatus status).2 ⟨transit, List.mem_cons_self, hown⟩
  | none =>
    cases hat : statusAt (engines transit.goal) key with
    | none => rfl
    | some status =>
      obtain ⟨other, hother, hbelongs⟩ := (hstatus status).1 hat
      rcases List.mem_cons.1 hother with rfl | hrest
      · rw [hown] at hbelongs
        cases hbelongs
      · exact absurd (Transit.handshake?_of_status? hbelongs)
          (handshake?_ne_of_distinct h.distinct (Transit.handshake?_of_goalKey? hkey) hrest)

lemma stampsFrom_cons_of_stamp? {timestamp : Option UInt16}
    (h : transit.stamp? = some timestamp) :
    stampsFrom transit.origin (transit :: rest) = timestamp :: stampsFrom transit.origin rest := by
  unfold stampsFrom
  rw [List.filterMap_cons_some]
  rw [if_pos (Transit.source_eq_origin h), h]

lemma stampsFrom_cons_of_ne {host : Address}
    (h : ∀ timestamp, transit.stamp? = some timestamp → transit.source ≠ host) :
    stampsFrom host (transit :: rest) = stampsFrom host rest := by
  unfold stampsFrom
  rw [List.filterMap_cons_none]
  split
  · rename_i hhost
    cases hstamp : transit.stamp? with
    | none => rfl
    | some timestamp => exact absurd hhost (h timestamp hstamp)
  · rfl

/-- The frame in front is fresh, and leaves those behind it fresh. -/
lemma Coherent.isFresh (h : Coherent a b firstIds engines postings (transit :: rest))
    {timestamp : Option UInt16} (hstamp : transit.stamp? = some timestamp) :
    isFreshAfter (trackedTimestamp (engines transit.goal) transit.origin) timestamp = true ∧
      trackAll timestamp (stampsFrom transit.origin rest) =
        some (caughtUp (outgoingTimestamp (engines transit.origin) transit.goal)) := by
  have htrack := h.stamps _ _ h.goal
  rw [stampsFrom_cons_of_stamp? hstamp, trackAll] at htrack
  split at htrack
  · rename_i hfresh
    exact ⟨hfresh, htrack⟩
  · cases htrack

lemma stampsFrom_next? (host : Address) :
    stampsFrom host (rest ++ transit.next?.toList) = stampsFrom host rest := by
  cases hnext : transit.next? with
  | none => rw [Option.toList_none, List.append_nil]
  | some next =>
    have hstamp := (Transit.handshake?_of_next? hnext).2.2.2.1
    simp [stampsFrom, hstamp]

lemma nodup_handshakes_next? (h : ((transit :: rest).filterMap Transit.handshake?).Nodup) :
    ((rest ++ transit.next?.toList).filterMap Transit.handshake?).Nodup := by
  cases hnext : transit.next? with
  | none =>
    rw [Option.toList_none, List.append_nil]
    exact (List.Sublist.filterMap _ (List.sublist_cons_self _ _)).nodup h
  | some next =>
    have hsame := (Transit.handshake?_of_next? hnext).1
    have hperm : (rest ++ [next]).Perm (next :: rest) := List.perm_append_singleton next rest
    rw [Option.toList_some, (hperm.filterMap _).nodup_iff]
    simpa only [List.filterMap_cons, hsame] using h

lemma mem_advance {other : Transit} (h : other ∈ rest ++ transit.next?.toList) :
    ∃ earlier ∈ transit :: rest, other.handshake? = earlier.handshake? ∧
      other.source = earlier.source ∧ other.target = earlier.target := by
  rcases List.mem_append.1 h with hrest | hnext
  · exact ⟨other, List.mem_cons_of_mem _ hrest, rfl, rfl, rfl⟩
  · have hsome : transit.next? = some other := by simpa using hnext
    obtain ⟨hhandshake, hsource, htarget, -⟩ := Transit.handshake?_of_next? hsome
    exact ⟨transit, List.mem_cons_self, hhandshake, hsource, htarget⟩

lemma exists_advance {P : Transit → Option HandshakeStatus} {status : HandshakeStatus} :
    (∃ other ∈ rest ++ transit.next?.toList, P other = some status) ↔
      (∃ other ∈ rest, P other = some status) ∨ transit.next?.bind P = some status := by
  constructor
  · rintro ⟨other, hother, hstatus⟩
    rcases List.mem_append.1 hother with hrest | hnext
    · exact Or.inl ⟨other, hrest, hstatus⟩
    · have hsome : transit.next? = some other := by simpa using hnext
      exact Or.inr (by rw [hsome, Option.bind_some, hstatus])
  · rintro (⟨other, hrest, hstatus⟩ | hnext)
    · exact ⟨other, List.mem_append_left _ hrest, hstatus⟩
    · obtain ⟨next, hsome, hstatus⟩ := Option.bind_eq_some_iff.1 hnext
      exact ⟨next, List.mem_append_right _ (by simp [hsome]), hstatus⟩

lemma Coherent.advance_status (h : Coherent a b firstIds engines postings (transit :: rest))
    {after : Engine} {effects : List Effect}
    (hadvances : Advances transit (engines transit.goal) after effects) {host : Address}
    (hhost : host = a ∨ host = b) (key : ConnectionKey) (status : HandshakeStatus) :
    statusAt (Function.update engines transit.goal after host) key = some status ↔
      ∃ other ∈ rest ++ transit.next?.toList, other.status? host key = some status := by
  rw [exists_advance]
  by_cases hchanged : host = transit.goal ∧ transit.goalKey? = some key
  · obtain ⟨rfl, hkey⟩ := hchanged
    rw [Function.update_self, hadvances.status, if_pos hkey]
    refine ⟨Or.inr, ?_⟩
    rintro (⟨other, hother, hstatus⟩ | hnext)
    · exact absurd (Transit.handshake?_of_status? hstatus)
        (handshake?_ne_of_distinct h.distinct (Transit.handshake?_of_goalKey? hkey) hother)
    · exact hnext
  · have hsame : statusAt (Function.update engines transit.goal after host) key =
        statusAt (engines host) key := by
      by_cases hgoal : host = transit.goal
      · have hkey : ¬ transit.goalKey? = some key := fun hkey => hchanged ⟨hgoal, hkey⟩
        rw [hgoal, Function.update_self, hadvances.status, if_neg hkey]
      · rw [Function.update_of_ne hgoal]
    rw [hsame, h.status host hhost, Transit.status?_next? hchanged, or_comm]
    simp only [List.mem_cons, exists_eq_or_imp]

lemma Coherent.advance_stamps (hab : a ≠ b)
    (h : Coherent a b firstIds engines postings (transit :: rest)) {after : Engine}
    {effects : List Effect} (hadvances : Advances transit (engines transit.goal) after effects)
    {source target : Address} (hpair : Ends a b source target) :
    trackAll (trackedTimestamp (Function.update engines transit.goal after target) source)
        (stampsFrom source (rest ++ transit.next?.toList)) =
      some (caughtUp
        (outgoingTimestamp (Function.update engines transit.goal after source) target)) := by
  have hends := h.goal
  have houtgoing : outgoingTimestamp (Function.update engines transit.goal after source) target =
      outgoingTimestamp (engines source) target := by
    by_cases hgoal : source = transit.goal
    · rw [hgoal, Function.update_self, hadvances.timestamps.outgoing]
    · rw [Function.update_of_ne hgoal]
  rw [stampsFrom_next?, houtgoing]
  by_cases hgoal : target = transit.goal
  · -- the frame comes from the source, and only what is tracked for that may have changed
    have horigin : source = transit.origin := Ends.eq_of_target hab hpair (hgoal ▸ hends)
    rw [hgoal, horigin, Function.update_self, hadvances.timestamps.tracked, if_pos rfl]
    cases hstamp : transit.stamp? with
    | some timestamp => exact (h.isFresh hstamp).2
    | none =>
      have hsame := @stampsFrom_cons_of_ne transit rest transit.origin (by rw [hstamp]; nofun)
      rw [Option.getD_none, ← hsame]
      exact h.stamps _ _ hends
  · -- the frame goes the other way
    have hother : source ≠ transit.origin := by
      intro horigin
      exact hgoal (Ends.eq_of_target hab hpair.swap (horigin ▸ hends.swap))
    have hsame : stampsFrom source (transit :: rest) = stampsFrom source rest := by
      apply stampsFrom_cons_of_ne
      intro timestamp hstamp hsource
      exact hother (hsource.symm.trans (Transit.source_eq_origin hstamp))
    rw [Function.update_of_ne hgoal, ← hsame]
    exact h.stamps source target hpair

lemma Coherent.advance (hab : a ≠ b)
    (h : Coherent a b firstIds engines postings (transit :: rest)) {after : Engine}
    {effects : List Effect} (hadvances : Advances transit (engines transit.goal) after effects) :
    Coherent a b firstIds (Function.update engines transit.goal after) postings
      (rest ++ transit.next?.toList) := by
  have hends := h.goal
  constructor
  · intro host hhost
    by_cases hgoal : host = transit.goal
    · rw [hgoal, Function.update_self]
      exact hadvances.filed
    · rw [Function.update_of_ne hgoal]
      exact h.filed host hhost
  · intro other hother
    obtain ⟨earlier, hearlier, -, hsource, htarget⟩ := mem_advance hother
    rw [hsource, htarget]
    exact h.ends earlier hearlier
  · intro other hother source id hid
    obtain ⟨earlier, hearlier, hsame, -⟩ := mem_advance hother
    exact h.known earlier hearlier source id (hsame ▸ hid)
  · exact nodup_handshakes_next? h.distinct
  · intro host hhost
    by_cases hgoal : host = transit.goal
    · rw [hgoal, Function.update_self, hadvances.ids, ← hgoal]
      exact h.counter host hhost
    · rw [Function.update_of_ne hgoal]
      exact h.counter host hhost
  · exact h.ids
  · intro host hhost key status
    exact h.advance_status hadvances hhost key status
  · intro source target hpair
    exact h.advance_stamps hab hadvances hpair

variable {transits : List Transit} {source target : Address} {fields : FieldMap}
variable {id : Option UInt32}

lemma idsOf_append (host : Address) (posting : Posting) :
    idsOf host (postings ++ [posting]) = idsOf host postings ++
      (if posting.source = host then posting.id else none).toList := by
  unfold idsOf
  rw [List.filterMap_append]
  cases h : (if posting.source = host then posting.id else none) <;> simp [h]

lemma first_source (source target : Address) (fields : FieldMap) (timestamp : UInt16)
    (id : Option UInt32) :
    (Transit.first source target fields timestamp id).source = source ∧
      (Transit.first source target fields timestamp id).target = target ∧
      (Transit.first source target fields timestamp id).handshake? =
        id.map fun id => (source, id) := by
  cases id <;> exact ⟨rfl, rfl, rfl⟩

lemma first_status?_of_ne {host : Address} (h : host ≠ source) (timestamp : UInt16)
    (key : ConnectionKey) :
    (Transit.first source target fields timestamp id).status? host key = none := by
  cases id with
  | none => rfl
  | some id =>
    have hkey : ¬ (host = source ∧ key = ⟨target, id, .sender⟩) := fun hkey => h hkey.1
    simp only [Transit.first, Transit.status?, if_neg hkey]

/-- The ids after a message was sent are again those that were drawn. -/
lemma Coherent.ids_depart (h : Coherent a b firstIds engines postings transits)
    (hpair : Ends a b source target) {after : Engine}
    (hids : id = none ∧ after.messageIds = (engines source).messageIds ∨
      id = some (engines source).messageIds.draw.1 ∧
        after.messageIds = (engines source).messageIds.draw.2) :
    after.messageIds =
        afterDraws (idsOf source postings ++ id.toList).length (firstIds source) ∧
      idsOf source postings ++ id.toList =
        MessageIds.drawMany (idsOf source postings ++ id.toList).length (firstIds source) := by
  have hcounter := h.counter source hpair.left
  have hdrawn := h.ids source hpair.left
  rcases hids with ⟨rfl, hkept⟩ | ⟨rfl, hmoved⟩
  · rw [Option.toList_none, List.append_nil]
    exact ⟨hkept.trans hcounter, hdrawn⟩
  · rw [Option.toList_some, List.length_append, List.length_singleton, afterDraws_succ,
      drawMany_succ, hmoved, hcounter]
    exact ⟨rfl, by rw [← hdrawn]⟩

lemma Coherent.handshake?_ne (h : Coherent a b firstIds engines postings transits)
    {source : Address} {new : UInt32}
    (hnodup : (idsOf source postings ++ [new]).Nodup) {transit : Transit}
    (hmem : transit ∈ transits) : transit.handshake? ≠ some (source, new) := by
  intro hsame
  have hknown := h.known transit hmem source new hsame
  rw [List.nodup_append] at hnodup
  exact hnodup.2.2 new hknown new (List.mem_singleton_self _) rfl

lemma Coherent.depart_status (h : Coherent a b firstIds engines postings transits)
    (hnodup : (idsOf source postings ++ id.toList).Nodup)
    {after : Engine} {effects : List Effect}
    (hdeparts : Departs source target fields id (engines source) after effects) {host : Address}
    (hhost : host = a ∨ host = b) (key : ConnectionKey) (status : HandshakeStatus) :
    statusAt (Function.update engines source after host) key = some status ↔
      ∃ other ∈ transits ++
          [Transit.first source target fields (outgoingTimestamp (engines source) target) id],
        other.status? host key = some status := by
  have hsplit : (∃ other ∈ transits ++
        [Transit.first source target fields (outgoingTimestamp (engines source) target) id],
      other.status? host key = some status) ↔
      statusAt (engines host) key = some status ∨
        (Transit.first source target fields (outgoingTimestamp (engines source) target)
          id).status? host key = some status := by
    rw [h.status host hhost]
    simp only [List.mem_append, List.mem_singleton, or_and_right, exists_or, exists_eq_left]
  rw [hsplit]
  by_cases hsource : host = source
  · subst hsource
    rw [Function.update_self, hdeparts.status]
    cases hfirst : (Transit.first host target fields (outgoingTimestamp (engines host) target)
      id).status? host key with
    | none => simp
    | some own =>
      -- no other record can be under the key of a message that is new
      have hnew : statusAt (engines host) key ≠ some status := by
        intro hat
        obtain ⟨other, hother, hbelongs⟩ := (h.status host hhost key status).1 hat
        have hhandshake := Transit.handshake?_of_status? hfirst
        rw [(first_source _ _ _ _ _).2.2] at hhandshake
        obtain ⟨new, rfl, hpairing⟩ := Option.map_eq_some_iff.1 hhandshake
        have hclash := Transit.handshake?_of_status? hbelongs
        rw [← hpairing] at hclash
        exact h.handshake?_ne hnodup hother hclash
      rw [Option.some_or]
      exact ⟨Or.inr, fun hor => hor.resolve_left hnew⟩
  · rw [Function.update_of_ne hsource, first_status?_of_ne hsource]
    simp

lemma stampsFrom_depart (host : Address) {timestamp : UInt16} {stamp : Option UInt16}
    (hstamp : (Transit.first source target fields timestamp id).stamp? = some stamp) :
    stampsFrom host (transits ++ [Transit.first source target fields timestamp id]) =
      if host = source then stampsFrom host transits ++ [stamp] else stampsFrom host transits := by
  unfold stampsFrom
  rw [List.filterMap_append, List.filterMap_cons, (first_source _ _ _ _ _).1, hstamp]
  by_cases hhost : host = source
  · rw [if_pos hhost.symm, if_pos hhost]
    rfl
  · rw [if_neg fun h => hhost h.symm, if_neg hhost]
    exact List.append_nil _

lemma Coherent.depart_stamps (hab : a ≠ b) (h : Coherent a b firstIds engines postings transits)
    (hpair : Ends a b source target) {after : Engine} {effects : List Effect}
    (hdeparts : Departs source target fields id (engines source) after effects)
    (htimes : ∀ other, trackedTimestamp after other = trackedTimestamp (engines source) other ∧
      outgoingTimestamp after other =
        if target = other then outgoingTimestamp (engines source) target + 1
        else outgoingTimestamp (engines source) other)
    {sender receiver : Address} (hends : Ends a b sender receiver) :
    trackAll (trackedTimestamp (Function.update engines source after receiver) sender)
        (stampsFrom sender (transits ++
          [Transit.first source target fields (outgoingTimestamp (engines source) target) id])) =
      some (caughtUp
        (outgoingTimestamp (Function.update engines source after sender) receiver)) := by
  have hstamps := h.stamps sender receiver hends
  rw [stampsFrom_depart sender hdeparts.stamp]
  by_cases hsender : sender = source
  · subst hsender
    have hreceiver : target = receiver := Ends.eq_of_target hab hpair.swap hends.swap
    subst hreceiver
    rw [if_pos rfl, Function.update_self, (htimes _).2, if_pos rfl,
      Function.update_of_ne (hpair.ne hab).symm, trackAll_append, hstamps, Option.bind_some,
      if_pos (isFreshAfter_caughtUp _), caughtUp_succ]
  · have hreceiver : receiver = source := by
      by_contra hreceiver
      rcases hpair.left with rfl | rfl <;> rcases hends with ⟨rfl, rfl⟩ | ⟨rfl, rfl⟩ <;>
        first | exact hsender rfl | exact hreceiver rfl
    subst hreceiver
    rw [if_neg hsender, Function.update_self, (htimes _).1, Function.update_of_ne hsender]
    exact hstamps

lemma idsOf_depart (host : Address) :
    idsOf host (postings ++ [⟨source, target, id, fields⟩]) =
      if host = source then idsOf host postings ++ id.toList else idsOf host postings := by
  rw [idsOf_append]
  by_cases hhost : host = source
  · rw [if_pos hhost.symm, if_pos hhost]
  · rw [if_neg fun h => hhost h.symm, if_neg hhost, Option.toList_none, List.append_nil]

lemma Coherent.depart_known (h : Coherent a b firstIds engines postings transits)
    {timestamp : UInt16} {transit : Transit}
    (htransit : transit ∈ transits ++ [Transit.first source target fields timestamp id])
    {sender : Address} {known : UInt32} (hknown : transit.handshake? = some (sender, known)) :
    known ∈ idsOf sender (postings ++ [⟨source, target, id, fields⟩]) := by
  rw [idsOf_depart]
  rcases List.mem_append.1 htransit with hold | hnew
  · have hmem := h.known transit hold sender known hknown
    split
    · exact List.mem_append_left _ hmem
    · exact hmem
  · rw [List.mem_singleton.1 hnew, (first_source _ _ _ _ _).2.2] at hknown
    obtain ⟨new, hsome, hpairing⟩ := Option.map_eq_some_iff.1 hknown
    cases hpairing
    rw [if_pos rfl, hsome]
    exact List.mem_append_right _ (List.mem_singleton_self _)

lemma Coherent.depart_distinct (h : Coherent a b firstIds engines postings transits)
    (hnodup : (idsOf source postings ++ id.toList).Nodup) (timestamp : UInt16) :
    ((transits ++ [Transit.first source target fields timestamp id]).filterMap
      Transit.handshake?).Nodup := by
  have hhandshake := (first_source source target fields timestamp id).2.2
  rw [List.filterMap_append, List.nodup_append]
  refine ⟨h.distinct, ?_, ?_⟩
  · cases id <;> simp [hhandshake]
  · intro handshake hold other hnew hsame
    obtain ⟨transit, htransit, hold⟩ := List.mem_filterMap.1 hold
    obtain ⟨first, hmem, hnew⟩ := List.mem_filterMap.1 hnew
    rw [List.mem_singleton.1 hmem, hhandshake] at hnew
    obtain ⟨new, rfl, hpairing⟩ := Option.map_eq_some_iff.1 hnew
    rw [hsame, ← hpairing] at hold
    exact h.handshake?_ne hnodup htransit hold

lemma Coherent.depart (hab : a ≠ b) (h : Coherent a b firstIds engines postings transits)
    (hpair : Ends a b source target)
    (hcount : (idsOf source postings ++ id.toList).length ≤ idCycle) {after : Engine}
    {effects : List Effect}
    (hdeparts : Departs source target fields id (engines source) after effects)
    (htimes : ∀ other, trackedTimestamp after other = trackedTimestamp (engines source) other ∧
      outgoingTimestamp after other =
        if target = other then outgoingTimestamp (engines source) target + 1
        else outgoingTimestamp (engines source) other) :
    Coherent a b firstIds (Function.update engines source after)
      (postings ++ [⟨source, target, id, fields⟩])
      (transits ++
        [Transit.first source target fields (outgoingTimestamp (engines source) target) id]) := by
  obtain ⟨hcounter, hids⟩ := h.ids_depart hpair hdeparts.ids
  have hnodup : (idsOf source postings ++ id.toList).Nodup := by
    rw [hids]
    exact nodup_drawMany _ hcount
  constructor
  · intro host hhost
    by_cases hsource : host = source
    · rw [hsource, Function.update_self]
      exact hdeparts.filed
    · rw [Function.update_of_ne hsource]
      exact h.filed host hhost
  · intro transit htransit
    rcases List.mem_append.1 htransit with hold | hnew
    · exact h.ends transit hold
    · obtain ⟨hfirst, hfirst', -⟩ := first_source source target fields
        (outgoingTimestamp (engines source) target) id
      rw [List.mem_singleton.1 hnew, hfirst, hfirst']
      exact hpair
  · exact fun transit htransit sender known hknown => h.depart_known htransit hknown
  · exact h.depart_distinct hnodup _
  · intro host hhost
    rw [idsOf_depart]
    by_cases hsource : host = source
    · rw [if_pos hsource, hsource, Function.update_self]
      exact hcounter
    · rw [if_neg hsource, Function.update_of_ne hsource]
      exact h.counter host hhost
  · intro host hhost
    rw [idsOf_depart]
    by_cases hsource : host = source
    · rw [if_pos hsource, hsource]
      exact hids
    · rw [if_neg hsource]
      exact h.ids host hhost
  · intro host hhost key status
    exact h.depart_status hnodup hdeparts hhost key status
  · intro sender receiver hends
    exact h.depart_stamps hab hpair hdeparts htimes hends

end Steps

end ReliableDatagrams.Proofs
