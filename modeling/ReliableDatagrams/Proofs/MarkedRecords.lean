import Mathlib.Data.List.Induction
import ReliableDatagrams.Proofs.StoreSessions

/-!
# Records that are marked where they are filed

A record that is deleted leaves its table in the step that marks it. Whoever holds a record can mark
it directly as well, and then it stays where it is. Such a record is not handed out by the steps that
only look for one. Those that make a record where there is none find the key taken, and hand it out
(`marked_handed_out_iff`).
-/

namespace ReliableDatagrams.Proofs

/-- A step makes the record that it asks for, if there is none. -/
def makesMissing : StoreStep → Bool
  | .peer _ _ | .connectionOrInsert _ _ => true
  | _ => false

/-- A step of a run has marked a record directly, which was filed at that time. -/
def MarkedWhileFiled (start : StoreSession) (steps : List StoreStep) (handle : Handle) : Prop :=
  ∃ before name after record, steps = before ++ .operate name .markBeingDeleted :: after ∧
    (sessionAfter start before).record? name = some record ∧
    filed? (sessionAfter start before).store handle.key = some record ∧ record.handle = handle

lemma sessionAfter_append (session : StoreSession) (before after : List StoreStep) :
    sessionAfter session (before ++ after) = sessionAfter (sessionAfter session before) after :=
  List.foldl_append

lemma MarkedWhileFiled.append {start : StoreSession} {steps : List StoreStep} {handle : Handle}
    (h : MarkedWhileFiled start steps handle) (more : List StoreStep) :
    MarkedWhileFiled start (steps ++ more) handle := by
  obtain ⟨before, name, after, record, rfl, hrest⟩ := h
  exact ⟨before, name, after ++ more, record, by simp, hrest⟩

section Marks

variable {session : StoreSession}

/-- An operation on a record that is filed changes it there, and no other one. -/
lemma filed?_operate (hs : IsSound session) {name : String} {old : Record}
    (hnamed : session.record? name = some old) (operation : RecordOperation) (key : RecordKey) :
    filed? (session.perform (.operate name operation)).1.store key =
      if filed? session.store key = some old then some (old.perform session.now operation).1
      else filed? session.store key := by
  have hsame := sameRecord_perform session.now old operation
  simp only [StoreSession.perform, hnamed]
  generalize (old.perform session.now operation).1 = record at hsame ⊢
  unfold StoreSession.writeBack
  rcases hs.isIn_or_own hnamed with hown | ⟨hin, handle, hstored⟩
  · have hunfiled : filed? session.store key ≠ some old := fun hfiled =>
      hs.own_unfiled hown key (filedSerial?_eq_some hfiled)
    rw [hown, if_neg hunfiled]
  · rw [hstored]
    cases hin with
    | filed there =>
      have hcurrent : filedSerial? session.store record.key = some record.serial := by
        rw [hsame.key, hsame.serial, filedSerial?_eq_some there]
      have hkey : record.key = key ↔ filed? session.store key = some old := by
        constructor
        · rintro rfl
          rw [hsame.key, there]
        · intro hfiled
          rw [hsame.key, hs.store.keys key old hfiled]
      rw [(replace_refiles hcurrent).1.filed, if_congr hkey rfl rfl]
    | pending there own =>
      have hunfiled : filed? session.store key ≠ some old := fun hfiled =>
        hs.store.filedSerial?_of_pending there key (filedSerial?_eq_some hfiled)
      have hunfiledSerial : filedSerial? session.store record.key ≠ some record.serial := by
        rw [hsame.serial]
        exact hs.store.filedSerial?_of_pending there record.key
      dsimp only
      rw [replace_pending hunfiledSerial, if_neg hunfiled]
      cases key <;> rfl

/-- A record that is filed and marked after a step was so before it, or the step has marked it. -/
lemma marked_before_or_now (hs : IsSound session) (step : StoreStep) {key : RecordKey}
    {record : Record} (hfiled : filed? (session.perform step).1.store key = some record)
    (hmarked : record.isBeingDeleted = true) :
    (∃ old, filed? session.store key = some old ∧ old.isBeingDeleted = true ∧
        old.handle = record.handle) ∨
      ∃ name old, step = .operate name .markBeingDeleted ∧ session.record? name = some old ∧
        filed? session.store key = some old ∧ old.handle = record.handle := by
  have hsame : ∀ {name operation old}, SameRecord operation old record →
      step = .operate name operation → session.record? name = some old →
      filed? session.store key = some old → (∃ old, filed? session.store key = some old ∧
          old.isBeingDeleted = true ∧ old.handle = record.handle) ∨
        ∃ name old, step = .operate name .markBeingDeleted ∧ session.record? name = some old ∧
          filed? session.store key = some old ∧ old.handle = record.handle := by
    intro name operation old hsame hstep hnamed hold
    have hhandle : old.handle = record.handle := by
      rw [Record.handle, Record.handle, hsame.key, hsame.serial]
    rcases hsame.marked with hkept | ⟨rfl, -⟩
    · exact Or.inl ⟨old, hold, hkept ▸ hmarked, hhandle⟩
    · exact Or.inr ⟨name, old, hstep, hnamed, hold, hhandle⟩
  have hmove := perform_move hs step
  generalize hlater : (session.perform step).1.store = later at hfiled hmove
  cases hmove with
  | kept | counted | freed | changedPending => exact Or.inl ⟨record, hfiled, hmarked, rfl⟩
  | removed named there removes =>
    exact Or.inl ⟨record, removes.earlier hfiled, hmarked, rfl⟩
  | opened absent serial unmarked refiled next =>
    rcases refiled.eq_or_earlier hfiled with ⟨-, rfl⟩ | hearlier
    · rw [unmarked] at hmarked
      cases hmarked
    · exact Or.inl ⟨record, hearlier, hmarked, rfl⟩
  | @changed name operation =>
    cases hnamed : session.record? name with
    | none =>
      rw [← hlater] at hfiled
      simp only [StoreSession.perform, hnamed] at hfiled
      exact Or.inl ⟨record, hfiled, hmarked, rfl⟩
    | some old =>
      rw [← hlater, filed?_operate hs hnamed] at hfiled
      split at hfiled
      · rename_i hold
        cases hfiled
        exact hsame (sameRecord_perform session.now old operation) rfl hnamed hold
      · exact Or.inl ⟨record, hfiled, hmarked, rfl⟩

lemma marked_after (hs : IsSound session) (step : StoreStep) {key : RecordKey} {serial : Nat}
    (hused : serial < session.store.nextSerial)
    (hmarked : ∀ record, filed? session.store key = some record → record.serial = serial →
      record.isBeingDeleted = true) {record : Record}
    (hfiled : filed? (session.perform step).1.store key = some record)
    (hserial : record.serial = serial) : record.isBeingDeleted = true := by
  have hmove := perform_move hs step
  generalize (session.perform step).1.store = later at hfiled hmove
  cases hmove with
  | kept | counted | freed | changedPending => exact hmarked record hfiled hserial
  | removed named there removes => exact hmarked record (removes.earlier hfiled) hserial
  | opened absent own unmarked refiled next =>
    rcases refiled.eq_or_earlier hfiled with ⟨-, rfl⟩ | hearlier
    · rw [← hserial, own] at hused
      exact absurd hused (Nat.lt_irrefl _)
    · exact hmarked record hearlier hserial
  | changed name there same refiled next =>
    rcases refiled.eq_or_earlier hfiled with ⟨rfl, rfl⟩ | hearlier
    · have hold := hmarked _ there (same.serial.symm.trans hserial)
      rcases same.marked with hkept | ⟨-, hnow⟩
      · exact hkept.trans hold
      · exact hnow
    · exact hmarked record hearlier hserial

end Marks

section Runs

variable {start : StoreSession} {steps : List StoreStep}

lemma StoreMove.nextSerial_le {session : StoreSession} {step : StoreStep} {later : Store}
    (h : StoreMove session step later) : session.store.nextSerial ≤ later.nextSerial := by
  cases h with
  | kept | changedPending | freed => exact Nat.le_refl _
  | counted => exact Nat.le_succ _
  | opened absent serial unmarked refiled next => exact next ▸ Nat.le_succ _
  | changed name there same refiled next => exact next ▸ Nat.le_refl _
  | removed named there removes => exact removes.nextSerial ▸ Nat.le_refl _

/-- What is marked once stays marked for the rest of a run, wherever it is still filed. -/
lemma marked_run (hs : IsSound start) {key : RecordKey} {serial : Nat}
    (hused : serial < start.store.nextSerial)
    (hmarked : ∀ record, filed? start.store key = some record → record.serial = serial →
      record.isBeingDeleted = true) {record : Record}
    (hfiled : filed? (sessionAfter start steps).store key = some record)
    (hserial : record.serial = serial) : record.isBeingDeleted = true := by
  induction steps generalizing start with
  | nil => exact hmarked record hfiled hserial
  | cons step rest ih =>
    refine ih (hs.perform step) ?_ ?_ hfiled
    · exact Nat.lt_of_lt_of_le hused (perform_move hs step).nextSerial_le
    · exact fun later hlater hsame => marked_after hs step hused hmarked hlater hsame

/-- A filed record is marked if and only if it was marked directly while it was filed. -/
lemma isBeingDeleted_iff (hs : IsSound start)
    (hunmarked : ∀ key record, filed? start.store key = some record →
      record.isBeingDeleted = false) {key : RecordKey} {record : Record}
    (hfiled : filed? (sessionAfter start steps).store key = some record) :
    record.isBeingDeleted = true ↔ MarkedWhileFiled start steps record.handle := by
  constructor
  · intro hmarked
    induction steps using List.reverseRecOn generalizing record with
    | nil =>
      rw [hunmarked key record hfiled] at hmarked
      cases hmarked
    | append_singleton steps step ih =>
      have hsound := hs.run steps
      rw [sessionAfter_append] at hfiled
      rcases marked_before_or_now hsound step hfiled hmarked with
        ⟨old, hold, hearlier, hsame⟩ | ⟨name, old, rfl, hnamed, hold, hsame⟩
      · exact hsame ▸ (ih hold hearlier).append [step]
      · have hkey := hsound.store.keys key old hold
        refine ⟨steps, name, [], old, rfl, hnamed, ?_, hsame⟩
        rw [← hsame, Record.handle, hkey, hold]
  · rintro ⟨before, name, after, old, rfl, hnamed, hold, hsame⟩
    have hsound := hs.run before
    have hkey := (hs.run _).store.keys key record hfiled
    have hthere : filed? (sessionAfter start before).store key = some old := by
      rwa [Record.handle, hkey] at hold
    have hused := hsound.store.serials.used key old.serial (filedSerial?_eq_some hthere)
    rw [sessionAfter_append] at hfiled
    refine marked_run (hsound.perform (.operate name .markBeingDeleted)) ?_ ?_ hfiled
      (congrArg Handle.serial hsame).symm
    · exact Nat.lt_of_lt_of_le hused (perform_move hsound _).nextSerial_le
    · intro later hlater _
      rw [filed?_operate hsound hnamed, if_pos hthere] at hlater
      cases hlater
      cases old <;> rfl

end Runs

section Lookups

variable {session : StoreSession}

/-- A step that makes missing records takes what is filed, marked or not, and one that it makes is not
marked. The other steps pass over what is marked. -/
lemma gets_marked_iff {lookup : StoreStep} {key : RecordKey}
    (hlookup : fetchedKey? lookup = some key) :
    (∃ record, (session.perform lookup).2.2 = some record ∧ record.isBeingDeleted = true) ↔
      makesMissing lookup = true ∧
        ∃ record, filed? session.store key = some record ∧ record.isBeingDeleted = true := by
  cases lookup with
  | peer address name =>
    cases hlookup
    cases hpeer : session.store.peers[address]? with
    | none => simp [StoreSession.perform, Store.peer, filed?, hpeer, Store.newPeer,
        Record.isBeingDeleted]
    | some peer => simp [StoreSession.perform, Store.peer, filed?, hpeer, makesMissing]
  | connectionOrInsert key name =>
    cases hlookup
    cases hconnection : session.store.connections[key]? with
    | none => simp [StoreSession.perform, Store.connectionOrInsert, filed?, hconnection,
        Store.newConnection, Record.isBeingDeleted]
    | some connection => simp [StoreSession.perform, Store.connectionOrInsert, filed?, hconnection,
        makesMissing]
  | existingPeer address name =>
    simp only [makesMissing, Bool.false_eq_true, false_and, iff_false, StoreSession.perform]
    rintro ⟨record, hgot, hmarked⟩
    cases hpeer : session.store.peer? address with
    | none => simp [hpeer] at hgot
    | some peer =>
      rw [hpeer] at hgot
      cases hgot
      have hkept := (Option.filter_eq_some_iff.1 hpeer).2
      rw [show peer.isBeingDeleted = true from hmarked] at hkept
      cases hkept
  | connection key name =>
    simp only [makesMissing, Bool.false_eq_true, false_and, iff_false, StoreSession.perform]
    rintro ⟨record, hgot, hmarked⟩
    cases hconnection : session.store.connection? key with
    | none => simp [hconnection] at hgot
    | some connection =>
      rw [hconnection] at hgot
      cases hgot
      have hkept := (Option.filter_eq_some_iff.1 hconnection).2
      rw [show connection.isBeingDeleted = true from hmarked] at hkept
      cases hkept
  | foreign | release | same | mark | sweep | snapshot | sleep | operate => cases hlookup

end Lookups

/-- After any steps, a step that asks for the record of a peer or of a handshake gets one that is marked
as being deleted if and only if it is of the kind that makes missing records, and the record that is
filed under the key was marked directly while it was filed there. -/
theorem marked_handed_out_iff (config : Config) (steps : List StoreStep) {lookup : StoreStep}
    {key : RecordKey} (hlookup : fetchedKey? lookup = some key) :
    (∃ record, ((sessionAfter (storeSession config) steps).perform lookup).2.2 = some record ∧
        record.isBeingDeleted = true) ↔
      makesMissing lookup = true ∧
        ∃ record, filed? (sessionAfter (storeSession config) steps).store key = some record ∧
          MarkedWhileFiled (storeSession config) steps record.handle := by
  have hempty : ∀ key record, filed? (storeSession config).store key = some record →
      record.isBeingDeleted = false := by
    intro key record hrecord
    cases key <;> simp [storeSession, filed?] at hrecord
  rw [gets_marked_iff hlookup]
  refine and_congr_right fun _ => exists_congr fun record => and_congr_right fun hfiled => ?_
  exact isBeingDeleted_iff (isSound_storeSession config) hempty hfiled

/-- A handshake's record is marked directly, and another handshake's is deleted by the store. Only the
first one is handed out again. -/
theorem marked_handed_out_of_direct_mark :
    let config : Config := { selfAddress := .loopback 9001 }
    let marked : ConnectionKey := ⟨.loopback 9002, 5, .receiver⟩
    let deleted : ConnectionKey := ⟨.loopback 9002, 5, .sender⟩
    let steps : List StoreStep := [.connectionOrInsert marked (some "a"),
      .connectionOrInsert deleted (some "b"), .operate "a" .markBeingDeleted, .mark "b",
      .sleep 5000]
    let session := sessionAfter (storeSession config) steps
    let got (lookup : StoreStep) := ∃ record, (session.perform lookup).2.2 = some record ∧
      record.isBeingDeleted = true
    fetchedKey? (.connectionOrInsert marked none) = some (.connection marked) ∧
      got (.connectionOrInsert marked none) ∧ ¬ got (.connectionOrInsert deleted none) := by
  intro config marked deleted steps session got
  refine ⟨rfl, (marked_handed_out_iff config steps rfl).2 ⟨rfl, ?_⟩, ?_⟩
  · have hfiled : filed? session.store (.connection marked) = some (.connection
        { (Store.newConnection { config } 0 marked) with isBeingDeleted := true }) := by
      decide +kernel
    exact ⟨_, hfiled, [.connectionOrInsert marked (some "a"),
      .connectionOrInsert deleted (some "b")], "a", [.mark "b", .sleep 5000],
      .connection (Store.newConnection { config } 0 marked), rfl, by decide +kernel,
      by decide +kernel, rfl⟩
  · rintro ⟨record, hgot, hmarked⟩
    have hunmarked : ∀ record, (session.perform (.connectionOrInsert deleted none)).2.2 =
        some record → record.isBeingDeleted = false := by
      decide +kernel
    rw [hunmarked record hgot] at hmarked
    cases hmarked

/-- A peer's record is marked directly. The step that only looks for it finds none, and the one that
would make it hands out the record that is marked; and so for the record of a handshake. -/
theorem marked_handed_out :
    let config : Config := { selfAddress := .loopback 9001 }
    let peer : Address := .loopback 9002
    let key : ConnectionKey := ⟨peer, 5, .receiver⟩
    let steps : List StoreStep := [.peer peer (some "peer"), .operate "peer" .markBeingDeleted,
      .connectionOrInsert key (some "handshake"), .operate "handshake" .markBeingDeleted]
    let session := sessionAfter (storeSession config) steps
    (session.perform (.existingPeer peer none)).2.2 = none ∧
      ((session.perform (.peer peer none)).2.2.map Record.isBeingDeleted) = some true ∧
      (session.perform (.connection key none)).2.2 = none ∧
      ((session.perform (.connectionOrInsert key none)).2.2.map Record.isBeingDeleted) =
        some true := by
  decide +kernel

end ReliableDatagrams.Proofs
