import Mathlib.Tactic.Common
import ReliableDatagrams.Engine.Sweep

/-!
# What operations of an engine change

The operations that handlers are made of, seen through the parts of an engine that matter to its
protocol: the records of handshakes, the records of peers, the counter of message ids and the
configuration. Handing a frame to the socket for a handshake files its record or removes it, all
other operations on peers leave the handshakes alone.
-/

namespace ReliableDatagrams.Proofs

section Maps

variable {κ α : Type} [Ord κ] [Std.TransOrd κ] [Std.LawfulEqOrd κ] [DecidableEq κ]

lemma getElem?_insert_eq (map : Std.ExtTreeMap κ α) (key other : κ) (value : α) :
    (map.insert key value)[other]? = if key = other then some value else map[other]? := by
  rw [Std.ExtTreeMap.getElem?_insert]
  by_cases h : key = other <;> simp [h]

lemma getElem?_erase_eq (map : Std.ExtTreeMap κ α) (key other : κ) :
    (map.erase key)[other]? = if key = other then none else map[other]? := by
  rw [Std.ExtTreeMap.getElem?_erase]
  by_cases h : key = other <;> simp [h]

lemma insert_insert_eq (map : Std.ExtTreeMap κ α) (key : κ) (old new : α) :
    (map.insert key old).insert key new = map.insert key new := by
  ext other : 1
  simp only [getElem?_insert_eq]
  split <;> rfl

lemma erase_insert_eq (map : Std.ExtTreeMap κ α) (key : κ) (value : α) :
    (map.insert key value).erase key = map.erase key := by
  ext other : 1
  simp only [getElem?_erase_eq, getElem?_insert_eq]
  split <;> rfl

lemma insert_eq_self (map : Std.ExtTreeMap κ α) (key : κ) (value : α)
    (h : map[key]? = some value) : map.insert key value = map := by
  ext other : 1
  rw [getElem?_insert_eq]
  split
  · rename_i hkey
    rw [← hkey, h]
  · rfl

lemma erase_eq_self (map : Std.ExtTreeMap κ α) (key : κ) (h : map[key]? = none) :
    map.erase key = map := by
  ext other : 1
  rw [getElem?_erase_eq]
  split
  · rename_i hkey
    rw [← hkey, h]
  · rfl

end Maps

def PeersFiled (peers : Std.ExtTreeMap Address PeerRecord) : Prop :=
  ∀ (address : Address) (record : PeerRecord), peers[address]? = some record →
    record.address = address ∧ record.isBeingDeleted = false

def ConnectionsFiled (connections : Std.ExtTreeMap ConnectionKey ConnectionRecord) : Prop :=
  ∀ (key : ConnectionKey) (record : ConnectionRecord), connections[key]? = some record →
    record.key = key ∧ record.isBeingDeleted = false

/-- Every record is filed under its own key, and none that is filed is being deleted. -/
structure WellFiled (store : Store) : Prop where
  peer : PeersFiled store.peers
  connection : ConnectionsFiled store.connections

lemma wellFiled_starting (config : Config) (firstId : UInt32) :
    WellFiled (Engine.starting config firstId).store := by
  constructor
  · intro address record hrecord
    simp [Engine.starting] at hrecord
  · intro key record hrecord
    simp [Engine.starting] at hrecord

/-- The record of a peer, or the one that first contact would create. -/
def peerOrNew (store : Store) (now : Nat) (address : Address) : PeerRecord :=
  (store.peers[address]?).getD (store.newPeer now address)

/-- The record of a handshake, or the one that would be created for it. -/
def connectionOrNew (store : Store) (now : Nat) (key : ConnectionKey) : ConnectionRecord :=
  (store.connections[key]?).getD (store.newConnection now key)

lemma connectionOrNew_key {store : Store} (hw : WellFiled store) (now : Nat)
    (key : ConnectionKey) : (connectionOrNew store now key).key = key := by
  unfold connectionOrNew
  cases h : store.connections[key]? with
  | none => rfl
  | some record => exact (hw.connection key record h).1

lemma peerOrNew_filed {store : Store} (hw : PeersFiled store.peers) (now : Nat)
    (address : Address) : (peerOrNew store now address).address = address ∧
      (peerOrNew store now address).isBeingDeleted = false := by
  unfold peerOrNew
  cases h : store.peers[address]? with
  | none => exact ⟨rfl, rfl⟩
  | some record => exact hw address record h

lemma connection?_eq {store : Store} (hw : WellFiled store) (key : ConnectionKey) :
    store.connection? key = store.connections[key]? := by
  unfold Store.connection?
  cases h : store.connections[key]? with
  | none => rfl
  | some record => simp [Option.filter, (hw.connection key record h).2]

section Peers

variable (engine : Engine) (now : Nat) (address : Address)

lemma snd_peer (store : Store) : (store.peer now address).2 = peerOrNew store now address := by
  unfold Store.peer peerOrNew
  split <;> simp_all

lemma connections_peer (store : Store) :
    (store.peer now address).1.connections = store.connections := by
  unfold Store.peer
  split <;> rfl

lemma config_peer (store : Store) : (store.peer now address).1.config = store.config := by
  unfold Store.peer
  split <;> rfl

lemma pending_peer (store : Store) : (store.peer now address).1.pending = store.pending := by
  unfold Store.peer
  split <;> rfl

variable {α : Type} (change : PeerRecord → PeerRecord × α)

@[simp] lemma connections_withPeer :
    (engine.withPeer now address change).1.store.connections = engine.store.connections :=
  connections_peer now address engine.store

@[simp] lemma config_withPeer :
    (engine.withPeer now address change).1.store.config = engine.store.config :=
  config_peer now address engine.store

@[simp] lemma pending_withPeer :
    (engine.withPeer now address change).1.store.pending = engine.store.pending :=
  pending_peer now address engine.store

lemma snd_withPeer :
    (engine.withPeer now address change).2 =
      (change (peerOrNew engine.store now address)).2 := by
  rw [← snd_peer]
  rfl

/-- A change that keeps the address replaces the record of the peer, or files its first one. -/
lemma peers_withPeer (h : (change (peerOrNew engine.store now address)).1.address = address) :
    (engine.withPeer now address change).1.store.peers =
      engine.store.peers.insert address (change (peerOrNew engine.store now address)).1 := by
  have hput : (engine.withPeer now address change).1.store.peers =
      (engine.store.peer now address).1.peers.insert
        (change (peerOrNew engine.store now address)).1.address
        (change (peerOrNew engine.store now address)).1 := by
    rw [← snd_peer]
    rfl
  rw [hput, h, Store.peer]
  split
  · rfl
  · exact insert_insert_eq _ _ _ _

end Peers

lemma PeersFiled.insert {peers : Std.ExtTreeMap Address PeerRecord} (h : PeersFiled peers)
    {record : PeerRecord} (hrecord : record.isBeingDeleted = false) :
    PeersFiled (peers.insert record.address record) := by
  intro address other hother
  rw [getElem?_insert_eq] at hother
  split at hother
  · rename_i haddress
    obtain rfl : record = other := Option.some.inj hother
    exact ⟨haddress, hrecord⟩
  · exact h address other hother

lemma PeersFiled.erase {peers : Std.ExtTreeMap Address PeerRecord} (h : PeersFiled peers)
    (address : Address) : PeersFiled (peers.erase address) := by
  intro other record hrecord
  rw [getElem?_erase_eq] at hrecord
  split at hrecord
  · simp at hrecord
  · exact h other record hrecord

lemma ConnectionsFiled.insert {connections : Std.ExtTreeMap ConnectionKey ConnectionRecord}
    (h : ConnectionsFiled connections) {record : ConnectionRecord}
    (hrecord : record.isBeingDeleted = false) :
    ConnectionsFiled (connections.insert record.key record) := by
  intro key other hother
  rw [getElem?_insert_eq] at hother
  split at hother
  · rename_i hkey
    obtain rfl : record = other := Option.some.inj hother
    exact ⟨hkey, hrecord⟩
  · exact h key other hother

lemma ConnectionsFiled.erase {connections : Std.ExtTreeMap ConnectionKey ConnectionRecord}
    (h : ConnectionsFiled connections) (key : ConnectionKey) :
    ConnectionsFiled (connections.erase key) := by
  intro other record hrecord
  rw [getElem?_erase_eq] at hrecord
  split at hrecord
  · simp at hrecord
  · exact h other record hrecord

lemma PeersFiled.withPeer {engine : Engine} (hw : PeersFiled engine.store.peers) (now : Nat)
    (address : Address) {α : Type} (change : PeerRecord → PeerRecord × α)
    (haddress : ∀ record, (change record).1.address = record.address)
    (hdeleted : ∀ record, (change record).1.isBeingDeleted = record.isBeingDeleted) :
    PeersFiled (engine.withPeer now address change).1.store.peers := by
  have hnew := peerOrNew_filed hw now address
  rw [peers_withPeer _ _ _ _ ((haddress _).trans hnew.1)]
  have hinsert := hw.insert ((hdeleted _).trans hnew.2)
  rw [haddress, hnew.1] at hinsert
  exact hinsert

section Handshakes

variable (engine : Engine) (occasion : Occasion) (connection : ConnectionRecord)

@[simp] lemma connections_putConnection :
    (engine.putConnection connection).store.connections =
      engine.store.connections.insert connection.key connection := rfl

@[simp] lemma peers_putConnection :
    (engine.putConnection connection).store.peers = engine.store.peers := rfl

/-- A record that is filed under its key leaves the store, one that is not is left alone. -/
lemma connections_retire (now : Nat) :
    (engine.retire now connection).store.connections =
      if (engine.store.connections[connection.key]?).map ConnectionRecord.serial =
          some connection.serial then
        engine.store.connections.erase connection.key
      else engine.store.connections := by
  simp only [Engine.retire, Store.markForDeletion, Record.handle, Record.key, Record.serial]
  cases h : engine.store.connections[connection.key]? with
  | none => simp
  | some filed => by_cases hs : filed.serial = connection.serial <;> simp [hs]

lemma connections_retirePeer (store : Store) (now : Nat) (peer : PeerRecord) :
    (store.markForDeletion now (Record.peer peer).handle).connections = store.connections := by
  simp only [Store.markForDeletion, Record.handle, Record.key, Record.serial]
  cases store.peers[peer.address]? with
  | none => rfl
  | some filed => by_cases hs : filed.serial = peer.serial <;> simp [hs]

@[simp] lemma peers_retire (now : Nat) :
    (engine.retire now connection).store.peers = engine.store.peers := by
  simp only [Engine.retire, Store.markForDeletion, Record.handle, Record.key, Record.serial]
  cases engine.store.connections[connection.key]? with
  | none => rfl
  | some filed => by_cases hs : filed.serial = connection.serial <;> simp [hs]

/-- A record of a peer that was filed a moment ago leaves the store. -/
lemma peers_retire_putPeer (store : Store) (now : Nat) (peer : PeerRecord) :
    ((store.putPeer peer).markForDeletion now (Record.peer peer).handle).peers =
      store.peers.erase peer.address := by
  have hfiled : (store.putPeer peer).peers[peer.address]? = some peer :=
    Std.ExtTreeMap.getElem?_insert_self
  simp only [Store.markForDeletion, Record.handle, Record.key, Record.serial, hfiled, if_true]
  exact erase_insert_eq _ _ _

/-- Retiring a record just after one of the same incarnation was filed removes it. -/
lemma connections_retire_of_filed {filed : ConnectionRecord} (now : Nat)
    (h : engine.store.connections[connection.key]? = some filed)
    (hs : filed.serial = connection.serial) :
    (engine.retire now connection).store.connections =
      engine.store.connections.erase connection.key := by
  rw [connections_retire, h, Option.map_some, hs, if_pos rfl]

lemma connections_retire_putConnection (now : Nat) :
    ((engine.putConnection connection).retire now connection).store.connections =
      engine.store.connections.erase connection.key := by
  rw [connections_retire_of_filed _ _ _ (Std.ExtTreeMap.getElem?_insert_self) rfl]
  exact erase_insert_eq _ _ _

/-- The records of handshakes after a frame was handed to the socket for one of them. -/
def afterTransmit (connections : Std.ExtTreeMap ConnectionKey ConnectionRecord)
    (connection : ConnectionRecord) (frame : Bytes) (accepted : Bool) :
    Std.ExtTreeMap ConnectionKey ConnectionRecord :=
  if accepted then connections.insert connection.key { connection with lastSent := some frame }
  else connections.erase connection.key

@[simp] lemma connections_transmit (frame : Bytes) :
    (engine.transmit occasion connection frame).1.store.connections =
      afterTransmit engine.store.connections connection frame
        (occasion.accepts connection.key.peer frame) := by
  simp only [Engine.transmit, afterTransmit]
  cases occasion.accepts connection.key.peer frame with
  | true => simp
  | false =>
    simp only [Bool.false_eq_true, if_false]
    rw [connections_retire_of_filed _ _ _ (Std.ExtTreeMap.getElem?_insert_self) rfl]
    exact erase_insert_eq _ _ _

@[simp] lemma peers_transmit (frame : Bytes) :
    (engine.transmit occasion connection frame).1.store.peers = engine.store.peers := by
  simp only [Engine.transmit]
  cases occasion.accepts connection.key.peer frame <;> simp

@[simp] lemma messageIds_transmit (frame : Bytes) :
    (engine.transmit occasion connection frame).1.messageIds = engine.messageIds := by
  simp only [Engine.transmit]
  cases occasion.accepts connection.key.peer frame <;> rfl

@[simp] lemma effects_transmit (frame : Bytes) :
    (engine.transmit occasion connection frame).2 =
      [.sent connection.key.peer frame (occasion.accepts connection.key.peer frame)] := rfl

lemma ConnectionsFiled.afterTransmit {connections : Std.ExtTreeMap ConnectionKey ConnectionRecord}
    (h : ConnectionsFiled connections) (hrecord : connection.isBeingDeleted = false)
    (frame : Bytes) (accepted : Bool) :
    ConnectionsFiled (afterTransmit connections connection frame accepted) := by
  cases accepted with
  | true =>
    have hsent : { connection with lastSent := some frame }.isBeingDeleted = false := hrecord
    exact h.insert hsent
  | false => exact h.erase _

lemma connections_retire_transmit (frame : Bytes) (now : Nat) :
    ((engine.transmit occasion connection frame).1.retire now connection).store.connections =
      engine.store.connections.erase connection.key := by
  rw [connections_retire, connections_transmit]
  cases occasion.accepts connection.key.peer frame with
  | true =>
    simp only [afterTransmit, if_true, Std.ExtTreeMap.getElem?_insert_self, Option.map_some,
      erase_insert_eq]
  | false =>
    simp [afterTransmit]

end Handshakes

def AllRecords (P : ConnectionRecord → Prop)
    (connections : Std.ExtTreeMap ConnectionKey ConnectionRecord) : Prop :=
  ∀ (key : ConnectionKey) (record : ConnectionRecord), connections[key]? = some record → P record

section Properties

variable {P : ConnectionRecord → Prop}
variable {connections : Std.ExtTreeMap ConnectionKey ConnectionRecord}

lemma AllRecords.mono {Q : ConnectionRecord → Prop} (h : AllRecords P connections)
    (hPQ : ∀ record, P record → Q record) : AllRecords Q connections := by
  intro key record hrecord
  exact hPQ record (h key record hrecord)

lemma AllRecords.erase (h : AllRecords P connections) (key : ConnectionKey) :
    AllRecords P (connections.erase key) := by
  intro other record hrecord
  rw [getElem?_erase_eq] at hrecord
  split at hrecord
  · simp at hrecord
  · exact h other record hrecord

lemma AllRecords.afterTransmit (h : AllRecords P connections) {connection : ConnectionRecord}
    {frame : Bytes} {accepted : Bool}
    (hsent : accepted = true → P { connection with lastSent := some frame }) :
    AllRecords P (afterTransmit connections connection frame accepted) := by
  cases accepted with
  | false => exact h.erase connection.key
  | true =>
    intro key record hrecord
    have hinsert : (connections.insert connection.key
        { connection with lastSent := some frame })[key]? = some record := hrecord
    rw [getElem?_insert_eq] at hinsert
    split at hinsert
    · rw [← Option.some.inj hinsert]
      exact hsent rfl
    · exact h key record hinsert

end Properties

lemma afterTransmit_insert (connections : Std.ExtTreeMap ConnectionKey ConnectionRecord)
    (connection old : ConnectionRecord) (frame : Bytes) (accepted : Bool) :
    afterTransmit (connections.insert connection.key old) connection frame accepted =
      afterTransmit connections connection frame accepted := by
  simp only [afterTransmit, insert_insert_eq, erase_insert_eq]

section Opening

variable (store : Store) (now : Nat) (key : ConnectionKey)

lemma snd_connectionOrInsert :
    (store.connectionOrInsert now key).2.1 = connectionOrNew store now key := by
  unfold Store.connectionOrInsert connectionOrNew
  split <;> simp_all

@[simp] lemma peers_connectionOrInsert :
    (store.connectionOrInsert now key).1.peers = store.peers := by
  unfold Store.connectionOrInsert
  split <;> rfl

@[simp] lemma pending_connectionOrInsert :
    (store.connectionOrInsert now key).1.pending = store.pending := by
  unfold Store.connectionOrInsert
  split <;> rfl

lemma connections_connectionOrInsert_of_filed {record : ConnectionRecord}
    (h : store.connections[key]? = some record) :
    (store.connectionOrInsert now key).1 = store := by
  unfold Store.connectionOrInsert
  rw [h]

lemma getElem?_connectionOrInsert :
    (store.connectionOrInsert now key).1.connections[key]? =
      some (connectionOrNew store now key) := by
  unfold Store.connectionOrInsert connectionOrNew
  split
  · rename_i record hrecord
    simp [hrecord]
  · rename_i hnone
    rw [hnone]
    exact Std.ExtTreeMap.getElem?_insert_self

lemma connectionOrNew_of_status {store : Store}
    (h : .synAckSent ≤ (connectionOrNew store now key).status) :
    store.connections[key]? = some (connectionOrNew store now key) := by
  unfold connectionOrNew at h ⊢
  cases hrecord : store.connections[key]? with
  | none =>
    have hnew : ¬ HandshakeStatus.synAckSent ≤ .initial := by decide
    rw [hrecord] at h
    exact absurd h hnew
  | some record => rfl

/-- What is transmitted for a handshake decides its record, whether it was opened just before or
not. -/
lemma afterTransmit_connectionOrInsert {record : ConnectionRecord} (hkey : record.key = key)
    (frame : Bytes) (accepted : Bool) :
    afterTransmit (store.connectionOrInsert now key).1.connections record frame accepted =
      afterTransmit store.connections record frame accepted := by
  unfold Store.connectionOrInsert
  split
  · rfl
  · have hnew : (store.newConnection now key).key = record.key := hkey.symm
    simp only [afterTransmit, Store.putConnection, hnew, insert_insert_eq, erase_insert_eq]

lemma erase_connectionOrInsert :
    (store.connectionOrInsert now key).1.connections.erase key = store.connections.erase key := by
  unfold Store.connectionOrInsert
  split
  · rfl
  · exact erase_insert_eq _ _ _

end Opening

end ReliableDatagrams.Proofs
