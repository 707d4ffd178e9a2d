import ReliableDatagrams.Record.Operation
import ReliableDatagrams.Store.Basic
import ReliableDatagrams.Table

/-!
# Sessions with held records

A session works on a store, or on a bare pool of pending deletions, and holds records under names
across its steps. A held record is referenced until its name is released or given to another record.
-/

namespace ReliableDatagrams

/-- What a name stands for: a record of the store, or one that the session has to itself. -/
inductive Held where
  | stored (handle : Handle)
  | own (record : Record)
deriving DecidableEq, Repr, Inhabited

namespace Held

def serial : Held → Nat
  | stored handle => handle.serial
  | own record => record.serial

end Held

/-- How to make a record that belongs to no store. -/
structure RecordSpec where
  key : RecordKey
  timeout : Nat := 10000
  bound : UInt32 := 5
deriving DecidableEq, Repr, Inhabited

def RecordSpec.create (spec : RecordSpec) (now serial : Nat) : Record :=
  match spec.key with
  | .peer address =>
    .peer { serial, address, timeout := spec.timeout, maxTimeouts := spec.bound,
            lastInteraction := now }
  | .connection key =>
    .connection { serial, key, timeout := spec.timeout, failureBound := spec.bound,
                  lastInteraction := now }

/-- A store, the time, and the records that are held by name. -/
structure StoreSession where
  store : Store
  now : Nat := 0
  held : Table String Held := {}
deriving Repr, Inhabited

/-- A step of a session. A record that a step gets is held if the step names it. -/
inductive StoreStep where
  | peer (address : Address) (name : Option String)
  | existingPeer (address : Address) (name : Option String)
  | connection (key : ConnectionKey) (name : Option String)
  | connectionOrInsert (key : ConnectionKey) (name : Option String)
  | foreign (spec : RecordSpec) (name : Option String)
  | release (name : String)
  | same (a b : String)
  | mark (name : String)
  | sweep (gracePeriod : Nat)
  | snapshot
  | sleep (duration : Nat)
  | operate (name : String) (operation : RecordOperation)
deriving Repr

/-- What a step answers. -/
inductive StoreAnswer where
  | done
  | flag (value : Bool)
  | count (value : Nat)
  | texts (values : List String)
  | operation (answer : RecordAnswer) (record : Record)
  | unknownName
deriving Repr

namespace StoreSession

def hold (session : StoreSession) (name : Option String) (held : Held) : StoreSession :=
  match name with
  | none => session
  | some name => { session with held := session.held.insert name held }

/-- Some name stands for the record with a serial number. -/
def isHeld (session : StoreSession) (serial : Nat) : Bool :=
  session.held.values.any fun held => held.serial = serial

def record? (session : StoreSession) (name : String) : Option Record :=
  match session.held.get? name with
  | some (.stored handle) => session.store.find? handle
  | some (.own record) => some record
  | none => none

def writeBack (session : StoreSession) (name : String) (record : Record) : StoreSession :=
  match session.held.get? name with
  | some (.own _) => { session with held := session.held.insert name (.own record) }
  | _ => { session with store := session.store.replace record }

/-- Performs a step. The answer comes with the record that the step got, if it got one. -/
def perform (session : StoreSession) :
    StoreStep → StoreSession × StoreAnswer × Option Record
  | .peer address name =>
    let (store, peer) := session.store.peer session.now address
    let record := Record.peer peer
    ({ session with store }.hold name (.stored record.handle), .done, some record)
  | .existingPeer address name =>
    match session.store.peer? address with
    | none => (session, .flag false, none)
    | some peer =>
      let record := Record.peer peer
      (session.hold name (.stored record.handle), .flag true, some record)
  | .connection key name =>
    match session.store.connection? key with
    | none => (session, .flag false, none)
    | some connection =>
      let record := Record.connection connection
      (session.hold name (.stored record.handle), .flag true, some record)
  | .connectionOrInsert key name =>
    let (store, connection, created) := session.store.connectionOrInsert session.now key
    let record := Record.connection connection
    ({ session with store }.hold name (.stored record.handle), .flag created, some record)
  | .foreign spec name =>
    let record := spec.create session.now session.store.nextSerial
    let store := { session.store with nextSerial := session.store.nextSerial + 1 }
    ({ session with store }.hold name (.own record), .done, some record)
  | .release name =>
    ({ session with held := session.held.erase name }, .flag (session.held.contains name), none)
  | .same a b =>
    match session.held.get? a, session.held.get? b with
    | some a, some b => (session, .flag (a.serial == b.serial), none)
    | _, _ => (session, .unknownName, none)
  | .mark name =>
    match session.record? name with
    | none => (session, .unknownName, none)
    | some record =>
      let store := session.store.markForDeletion session.now record.handle
      ({ session with store }, .done, none)
  | .sweep gracePeriod =>
    let (store, freed) := session.store.sweepDeleted session.now gracePeriod session.isHeld
    ({ session with store }, .count freed, none)
  | .snapshot =>
    let texts := session.store.snapshot.map fun record => record.key.text
    (session, .texts (texts.mergeSort (· ≤ ·)), none)
  | .sleep duration => ({ session with now := session.now + duration }, .done, none)
  | .operate name operation =>
    match session.record? name with
    | none => (session, .unknownName, none)
    | some record =>
      let (record, answer) := record.perform session.now operation
      (session.writeBack name record, .operation answer record, none)

end StoreSession

/-- A pool of pending deletions, the time, and the records that are held by name. -/
structure PendingSession where
  pool : PendingPool := {}
  now : Nat := 0
  held : Table String Record := {}
  nextSerial : Nat := 0
deriving Repr, Inhabited

/-- A step of a session with a bare pool. -/
inductive PendingStep where
  | create (name : String) (spec : RecordSpec)
  | add (name : String)
  | addNew (spec : RecordSpec)
  | release (name : String)
  | sweep (gracePeriod : Nat)
  | sleep (duration : Nat)
deriving Repr

namespace PendingSession

def isHeld (session : PendingSession) (serial : Nat) : Bool :=
  session.held.values.any fun record => record.serial = serial

def perform (session : PendingSession) : PendingStep → PendingSession × StoreAnswer
  | .create name spec =>
    let record := spec.create session.now session.nextSerial
    ({ session with
        held := session.held.insert name record
        nextSerial := session.nextSerial + 1 }, .done)
  | .add name =>
    match session.held.get? name with
    | none => (session, .unknownName)
    | some record => ({ session with pool := session.pool.add session.now record }, .done)
  | .addNew spec =>
    let record := spec.create session.now session.nextSerial
    ({ session with
        pool := session.pool.add session.now record
        nextSerial := session.nextSerial + 1 }, .done)
  | .release name =>
    ({ session with held := session.held.erase name }, .flag (session.held.contains name))
  | .sweep gracePeriod =>
    let (pool, freed) := session.pool.sweep session.now gracePeriod session.isHeld
    ({ session with pool }, .count freed)
  | .sleep duration => ({ session with now := session.now + duration }, .done)

end PendingSession

end ReliableDatagrams
