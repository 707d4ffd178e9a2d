import ReliableDatagrams.Proofs.MessageIdDraws
import ReliableDatagrams.Proofs.StoreChanges

/-!
# Runs of a single engine

A run of one engine against whatever there is around it: its application sends, any bytes come in
from anywhere, its workers sweep at any time, and its socket refuses what it likes. The history of a
run notes what the engine did and how many ids it drew.

A sweep visits one record after the other. What a run preserves is therefore shown for moves, each of
which is one call, one datagram or one visit: `History.step_induction` and `History.run_induction`.
-/

namespace ReliableDatagrams.Proofs

/-- What happens to an engine. -/
inductive EngineStep where
  | send (occasion : Occasion) (target : Address) (fields : FieldMap) (delivery : Delivery)
  | work (occasion : Occasion) (task : EngineTask)

/-- An engine, with all that it has done. -/
structure History where
  engine : Engine
  effects : List Effect := []
  idsDrawn : Nat := 0

namespace History

def starting (config : Config) (firstId : UInt32) : History where
  engine := Engine.starting config firstId

def note (history : History) (after : Engine) (effects : List Effect) : History where
  engine := after
  effects := history.effects ++ effects
  idsDrawn := history.idsDrawn + if after.messageIds = history.engine.messageIds then 0 else 1

def step (history : History) : EngineStep → History
  | .send occasion target fields delivery =>
    let (engine, effects, _) := history.engine.send occasion target fields delivery
    history.note engine effects
  | .work occasion task =>
    let (engine, effects) := history.engine.run occasion task
    history.note engine effects

def run (history : History) (steps : List EngineStep) : History :=
  steps.foldl step history

lemma note_nil (history : History) : history.note history.engine [] = history := by
  simp [note]

/-- Several visits of a sweep count as one. -/
lemma note_note (history : History) {between : Engine} (after : Engine)
    (effects more : List Effect) (hids : between.messageIds = history.engine.messageIds) :
    (history.note between effects).note after more = history.note after (effects ++ more) := by
  simp [note, hids]

lemma run_append (history : History) (before after : List EngineStep) :
    history.run (before ++ after) = (history.run before).run after :=
  List.foldl_append

lemma run_concat (history : History) (steps : List EngineStep) (step : EngineStep) :
    history.run (steps ++ [step]) = (history.run steps).step step :=
  run_append history steps [step]

end History

/-- What an engine does at one go. -/
inductive EngineMove (engine : Engine) : Engine → List Effect → Prop where
  | sent (occasion : Occasion) (target : Address) (fields : FieldMap) (delivery : Delivery) :
      EngineMove engine (engine.send occasion target fields delivery).1
        (engine.send occasion target fields delivery).2.1
  | received (occasion : Occasion) (source : Address) (datagram : Bytes) :
      EngineMove engine (engine.receive occasion source datagram).1
        (engine.receive occasion source datagram).2
  | visitedPeer (occasion : Occasion) (address : Address) :
      EngineMove engine (engine.sweepPeer occasion address).1
        (engine.sweepPeer occasion address).2
  | visitedConnection (occasion : Occasion) (key : ConnectionKey) :
      EngineMove engine (engine.sweepConnection occasion key).1
        (engine.sweepConnection occasion key).2
  | freed (now : Nat) : EngineMove engine (engine.deleteSweep now) []

section Moves

variable {engine after : Engine} {effects : List Effect}

lemma EngineMove.wellFiled (hw : WellFiled engine.store) (h : EngineMove engine after effects) :
    WellFiled after.store := by
  cases h with
  | sent occasion target fields delivery => exact hw.send occasion target fields delivery
  | received occasion source datagram => exact hw.receive occasion source datagram
  | visitedPeer occasion address => exact hw.sweepPeer occasion address
  | visitedConnection occasion key => exact hw.sweepConnection occasion key
  | freed now => exact ⟨hw.peer, hw.connection⟩

lemma EngineMove.config (hw : WellFiled engine.store) (h : EngineMove engine after effects) :
    after.config = engine.config := by
  cases h with
  | sent occasion target fields delivery =>
    exact config_reworks (reworks_send occasion hw target fields delivery)
  | received occasion source datagram =>
    exact config_reworks (reworks_receive occasion hw source datagram)
  | visitedPeer occasion address => exact config_reworks (reworks_sweepPeer occasion address)
  | visitedConnection occasion key =>
    exact config_reworks (reworks_sweepConnection occasion hw key)
  | freed now => rfl

lemma SendMove.messageIds {occasion : Occasion} {target : Address} {fields : FieldMap}
    {result : Except SendError (Option UInt32)}
    (h : SendMove engine occasion target fields after effects result) :
    after.messageIds = engine.messageIds ∨ after.messageIds = engine.messageIds.draw.2 := by
  cases h with
  | failed ids same => exact ids
  | plain drawn unforced written ids same => exact Or.inl ids
  | first drawn written record ids filed => exact Or.inr ids

lemma EngineMove.messageIds (hw : WellFiled engine.store) (h : EngineMove engine after effects) :
    after.messageIds = engine.messageIds ∨ after.messageIds = engine.messageIds.draw.2 := by
  cases h with
  | sent occasion target fields delivery =>
    exact (send_move occasion hw target fields delivery).messageIds
  | received occasion source datagram => exact Or.inl (messageIds_receive occasion _ _)
  | visitedPeer occasion address => exact Or.inl (messageIds_sweepPeer occasion _)
  | visitedConnection occasion key => exact Or.inl (messageIds_sweepConnection occasion _)
  | freed now => exact Or.inl rfl

end Moves

namespace History

/-- The counter of ids stands where the draws have brought it. -/
def CountsIds (firstId : UInt32) (history : History) : Prop :=
  history.engine.messageIds = afterDraws history.idsDrawn ⟨firstId⟩

lemma countsIds_starting (config : Config) (firstId : UInt32) :
    CountsIds firstId (starting config firstId) := rfl

variable {history : History}

lemma CountsIds.note {firstId : UInt32} (h : CountsIds firstId history) {after : Engine}
    {effects : List Effect} (hids : after.messageIds = history.engine.messageIds ∨
      after.messageIds = history.engine.messageIds.draw.2) :
    CountsIds firstId (history.note after effects) := by
  unfold CountsIds History.note at *
  rcases hids with hsame | hdrawn
  · rw [if_pos hsame, hsame]
    exact h
  · have hother : after.messageIds ≠ history.engine.messageIds := by
      rw [hdrawn]
      exact draw_ne_self _
    rw [if_neg hother, hdrawn, afterDraws_succ, ← h]

lemma CountsIds.draw_notMem {firstId : UInt32} (h : CountsIds firstId history)
    (hfew : history.idsDrawn < idCycle) :
    history.engine.messageIds.draw.1 ∉ MessageIds.drawMany history.idsDrawn ⟨firstId⟩ := by
  intro hmem
  have hnodup := @nodup_drawMany (history.idsDrawn + 1) ⟨firstId⟩ hfew
  rw [drawMany_succ, List.nodup_append] at hnodup
  refine hnodup.2.2 _ hmem _ (List.mem_singleton_self _) ?_
  rw [h]

lemma CountsIds.draw_mem_note {firstId : UInt32} (h : CountsIds firstId history) {after : Engine}
    (effects : List Effect) (hdrawn : after.messageIds = history.engine.messageIds.draw.2) :
    history.engine.messageIds.draw.1 ∈
      MessageIds.drawMany (history.note after effects).idsDrawn ⟨firstId⟩ := by
  have hother : after.messageIds ≠ history.engine.messageIds := by
    rw [hdrawn]
    exact draw_ne_self _
  simp only [History.note, if_neg hother, drawMany_succ]
  rw [h]
  exact List.mem_append_right _ (List.mem_singleton_self _)

lemma idsDrawn_note_le (history : History) (after : Engine) (effects : List Effect) :
    history.idsDrawn ≤ (history.note after effects).idsDrawn :=
  Nat.le_add_right _ _

lemma mem_drawMany_note {firstId id : UInt32} (history : History) (after : Engine)
    (effects : List Effect) (h : id ∈ MessageIds.drawMany history.idsDrawn ⟨firstId⟩) :
    id ∈ MessageIds.drawMany (history.note after effects).idsDrawn ⟨firstId⟩ := by
  unfold note
  dsimp only
  split
  · exact h
  · rw [drawMany_succ]
    exact List.mem_append_left _ h

section Induction

variable {Inv : History → Prop}
variable (hmove : ∀ {history : History} {after : Engine} {effects : List Effect},
  WellFiled history.engine.store → Inv history → EngineMove history.engine after effects →
    Inv (history.note after effects))

include hmove in
lemma visitAll_induction {κ : Type} {visit : Engine → κ → Engine × List Effect}
    (hvisit : ∀ engine key, EngineMove engine (visit engine key).1 (visit engine key).2)
    (hids : ∀ engine key, (visit engine key).1.messageIds = engine.messageIds)
    (keys : List κ) (history : History) (hw : WellFiled history.engine.store) (h : Inv history) :
    (WellFiled (history.engine.visitAll visit keys).1.store ∧
      Inv (history.note (history.engine.visitAll visit keys).1
        (history.engine.visitAll visit keys).2)) ∧
      (history.engine.visitAll visit keys).1.messageIds = history.engine.messageIds := by
  induction keys generalizing history with
  | nil => exact ⟨⟨hw, (note_nil history).symm ▸ h⟩, rfl⟩
  | cons key rest ih =>
    have hfirst := hvisit history.engine key
    have hsame := hids history.engine key
    obtain ⟨⟨hwell, hinv⟩, hlast⟩ :=
      ih (history.note _ _) (hfirst.wellFiled hw) (hmove hw h hfirst)
    refine ⟨⟨hwell, ?_⟩, hlast.trans hsame⟩
    rw [note_note _ _ _ _ hsame] at hinv
    exact hinv

include hmove in
theorem step_induction (hw : WellFiled history.engine.store) (h : Inv history)
    (step : EngineStep) :
    WellFiled (history.step step).engine.store ∧ Inv (history.step step) := by
  cases step with
  | send occasion target fields delivery =>
    have hsent := @EngineMove.sent history.engine occasion target fields delivery
    exact ⟨hsent.wellFiled hw, hmove hw h hsent⟩
  | work occasion task =>
    cases task with
    | receive source datagram =>
      have hreceived := @EngineMove.received history.engine occasion source datagram
      exact ⟨hreceived.wellFiled hw, hmove hw h hreceived⟩
    | deleteSweep =>
      have hfreed := @EngineMove.freed history.engine occasion.now
      exact ⟨hfreed.wellFiled hw, hmove hw h hfreed⟩
    | timeoutSweep =>
      obtain ⟨⟨hpeers, hbetween⟩, hsame⟩ := visitAll_induction hmove
        (fun engine address => @EngineMove.visitedPeer engine occasion address)
        (fun engine address => messageIds_sweepPeer occasion address)
        history.engine.store.peers.keys history hw h
      obtain ⟨⟨hwell, hinv⟩, -⟩ := visitAll_induction hmove
        (fun engine key => @EngineMove.visitedConnection engine occasion key)
        (fun engine key => messageIds_sweepConnection occasion key)
        (history.engine.visitAll (Engine.sweepPeer occasion)
          history.engine.store.peers.keys).1.store.connections.keys _ hpeers hbetween
      rw [note_note _ _ _ _ hsame] at hinv
      exact ⟨hwell, hinv⟩

include hmove in
theorem run_induction (hw : WellFiled history.engine.store) (h : Inv history)
    (steps : List EngineStep) :
    WellFiled (history.run steps).engine.store ∧ Inv (history.run steps) := by
  induction steps generalizing history with
  | nil => exact ⟨hw, h⟩
  | cons step rest ih =>
    obtain ⟨hwell, hinv⟩ := step_induction hmove hw h step
    exact ih hwell hinv

end Induction

/-- A started engine keeps its configuration, files its records under their own keys, and draws its
ids one after the other. -/
lemma wellFiled_run (config : Config) (firstId : UInt32) (steps : List EngineStep) :
    WellFiled ((starting config firstId).run steps).engine.store ∧
      ((starting config firstId).run steps).engine.config = config ∧
      CountsIds firstId ((starting config firstId).run steps) :=
  @run_induction _
    (fun history => history.engine.config = config ∧ CountsIds firstId history)
    (fun hw h hmove => ⟨(hmove.config hw).trans h.1, h.2.note (hmove.messageIds hw)⟩)
    (wellFiled_starting config firstId) ⟨rfl, countsIds_starting config firstId⟩ steps

end History

end ReliableDatagrams.Proofs
