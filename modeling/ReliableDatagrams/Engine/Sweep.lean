import ReliableDatagrams.Engine.Receive

/-!
# Sweeps

From time to time an engine looks for records that were idle for their full timeout, and frees the
records that were deleted some time ago. `Engine.run` is what its workers do.
-/

namespace ReliableDatagrams

/-- What a worker of an engine is given to do. -/
inductive EngineTask where
  | receive (source : Address) (datagram : Bytes)
  | timeoutSweep
  | deleteSweep
deriving DecidableEq, Repr, Inhabited

namespace Engine

def sweepPeer (occasion : Occasion) (engine : Engine) (address : Address) :
    Engine × List Effect :=
  match engine.store.peer? address with
  | none => (engine, [])
  | some peer =>
    if peer.idleTime occasion.now < peer.timeout then (engine, [])
    else
      let (peer, action) := peer.resetOrExpire occasion.now
      let store := engine.store.putPeer peer
      let store :=
        if action = .expire then store.markForDeletion occasion.now (Record.peer peer).handle
        else store
      ({ engine with store }, [])

/-- Checks a handshake: its first frame is repeated, or it is given up. -/
def sweepConnection (occasion : Occasion) (engine : Engine) (key : ConnectionKey) :
    Engine × List Effect :=
  match engine.store.connection? key with
  | none => (engine, [])
  | some connection =>
    if connection.idleTime occasion.now < connection.timeout then (engine, [])
    else
      let (connection, action) := connection.resetOrExpire occasion.now
      let engine := engine.putConnection connection
      match action with
      | .resend syn => engine.resendSyn occasion connection syn
      | _ => (engine.retire occasion.now connection, [])

/-- Checks all records for timeouts, those of peers first. -/
def timeoutSweep (engine : Engine) (occasion : Occasion) : Engine × List Effect :=
  let (engine, effects) := engine.visitAll (sweepPeer occasion) engine.store.peers.keys
  let (engine, more) := engine.visitAll (sweepConnection occasion) engine.store.connections.keys
  (engine, effects ++ more)

/-- Frees the deleted records whose grace period is over. -/
def deleteSweep (engine : Engine) (now : Nat) : Engine :=
  let (store, _) := engine.store.sweepDeleted now engine.config.deleteGracePeriod fun _ => false
  { engine with store }

def run (engine : Engine) (occasion : Occasion) : EngineTask → Engine × List Effect
  | .receive source datagram => engine.receive occasion source datagram
  | .timeoutSweep => engine.timeoutSweep occasion
  | .deleteSweep => (engine.deleteSweep occasion.now, [])

end Engine

end ReliableDatagrams
