import ReliableDatagrams.Address.Basic
import ReliableDatagrams.Frame.Basic

/-!
# Configuration of an engine

All durations are in milliseconds.
-/

namespace ReliableDatagrams

structure Config where
  /-- The address that the engine sends from. -/
  selfAddress : Address
  /-- The number of workers for received datagrams and fired timers. -/
  workerCount : Nat := 4
  /-- The granularity of the scheduler. -/
  schedulerTick : Nat := 50
  /-- The time between two checks of the records for timeouts. -/
  timeoutSweepInterval : Nat := 100
  /-- The time between two attempts to free deleted records. -/
  deleteSweepInterval : Nat := 1000
  /-- The least time for which a deleted record stays around. -/
  deleteGracePeriod : Nat := 2000
  /-- A peer that was silent for this long has its timestamps forgotten. -/
  peerTimeout : Nat := 10000
  /-- A peer that timed out this often in a row is evicted. -/
  peerMaxTimeouts : UInt32 := 12
  /-- The time after which a step of a handshake is repeated or given up. -/
  connectionTimeout : Nat := 1000
  /-- How often the first frame of a handshake is repeated. -/
  senderFailureBound : UInt32 := 5
  /-- How many rejected first frames a receiver puts up with. -/
  receiverFailureBound : UInt32 := 2
  /-- The size of the largest datagram that is sent. -/
  maxDatagramSize : Nat := 65507
deriving DecidableEq, Repr, Inhabited

/-- Why a configuration is refused. -/
inductive ConfigError where
  | noWorkers
  | zeroTick
  | sweepBelowTick
  | zeroTimeout
  | noEviction
  | datagramTooSmall
deriving DecidableEq, Repr

namespace ConfigError

def message : ConfigError → String
  | noWorkers => "worker count must be at least 1"
  | zeroTick => "scheduler tick must be positive"
  | sweepBelowTick => "sweep intervals must not be shorter than the scheduler tick"
  | zeroTimeout => "timeouts must be positive"
  | noEviction => "peer eviction requires at least one timeout"
  | datagramTooSmall => "max datagram size is too small to hold a frame"

end ConfigError

namespace Config

/-- Few workers, and sweeps so rare that they do not happen by themselves in a short test. -/
def forTests (selfAddress : Address) : Config :=
  { selfAddress
    workerCount := 2
    timeoutSweepInterval := 3600000
    deleteSweepInterval := 3600000 }

/-- The first rule that the configuration breaks, in the order of `ConfigError`. -/
def validate (config : Config) : Except ConfigError Unit :=
  if config.workerCount = 0 then .error .noWorkers
  else if config.schedulerTick = 0 then .error .zeroTick
  else if config.timeoutSweepInterval < config.schedulerTick ∨
      config.deleteSweepInterval < config.schedulerTick then .error .sweepBelowTick
  else if config.peerTimeout = 0 ∨ config.connectionTimeout = 0 then .error .zeroTimeout
  else if config.peerMaxTimeouts = 0 then .error .noEviction
  else if config.maxDatagramSize < minFrameSize then .error .datagramTooSmall
  else .ok ()

end Config

end ReliableDatagrams
