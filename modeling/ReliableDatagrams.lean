import ReliableDatagrams.Address.Basic
import ReliableDatagrams.Address.Text
import ReliableDatagrams.Config
import ReliableDatagrams.Engine.Basic
import ReliableDatagrams.Engine.Receive
import ReliableDatagrams.Engine.Send
import ReliableDatagrams.Engine.Sweep
import ReliableDatagrams.Execution.Executor
import ReliableDatagrams.Execution.Job
import ReliableDatagrams.Execution.PoolSession
import ReliableDatagrams.Execution.Scheduler
import ReliableDatagrams.Execution.SchedulerSession
import ReliableDatagrams.Execution.WorkerPool
import ReliableDatagrams.Field.Binary32
import ReliableDatagrams.Field.Kind
import ReliableDatagrams.Field.Map
import ReliableDatagrams.Field.Values
import ReliableDatagrams.Frame.Basic
import ReliableDatagrams.Frame.Decode
import ReliableDatagrams.Frame.Encode
import ReliableDatagrams.Frame.Field
import ReliableDatagrams.Frame.Flags
import ReliableDatagrams.MessageId
import ReliableDatagrams.Record.Basic
import ReliableDatagrams.Record.Connection
import ReliableDatagrams.Record.Expiry
import ReliableDatagrams.Record.Operation
import ReliableDatagrams.Record.Peer
import ReliableDatagrams.Simulation.Basic
import ReliableDatagrams.Simulation.Delivery
import ReliableDatagrams.Simulation.Network
import ReliableDatagrams.Simulation.Session
import ReliableDatagrams.Store.Basic
import ReliableDatagrams.Store.Pending
import ReliableDatagrams.Store.Session
import ReliableDatagrams.Table
import ReliableDatagrams.Text.Quoted
import ReliableDatagrams.Text.Unprintable
import ReliableDatagrams.Wire.Bytes
import ReliableDatagrams.Wire.Hex
import ReliableDatagrams.Wire.Narrow
import ReliableDatagrams.Proofs.FieldCodec
import ReliableDatagrams.Proofs.FrameRoundTrip
import ReliableDatagrams.Proofs.HandshakeMoves
import ReliableDatagrams.Proofs.FiledRecords
import ReliableDatagrams.Proofs.Fleet
import ReliableDatagrams.Proofs.Soundness
import ReliableDatagrams.Proofs.Acknowledgement
import ReliableDatagrams.Proofs.Answers
import ReliableDatagrams.Proofs.Redelivery
import ReliableDatagrams.Proofs.Exchange
import ReliableDatagrams.Proofs.Completion
import ReliableDatagrams.Proofs.StoreChanges
import ReliableDatagrams.Proofs.EngineRuns
import ReliableDatagrams.Proofs.Retransmission
import ReliableDatagrams.Proofs.Totals
import ReliableDatagrams.Proofs.Quiescence
import ReliableDatagrams.Proofs.Restamping
import ReliableDatagrams.Proofs.TimestampMoves
import ReliableDatagrams.Proofs.OrderedFleet
import ReliableDatagrams.Proofs.Staleness
import ReliableDatagrams.Proofs.OneMessage
import ReliableDatagrams.Proofs.Repetition
import ReliableDatagrams.Proofs.OnceDelivered
import ReliableDatagrams.Proofs.BoundedLoss
import ReliableDatagrams.Proofs.ReplayRejection
import ReliableDatagrams.Proofs.Provenance
import ReliableDatagrams.Proofs.StoreEdits
import ReliableDatagrams.Proofs.HandlerEdits
import ReliableDatagrams.Proofs.HandshakeAutomaton
import ReliableDatagrams.Proofs.OneDelivery
import ReliableDatagrams.Proofs.FirstFrames
import ReliableDatagrams.Proofs.PeerSlices
import ReliableDatagrams.Proofs.PeerIsolation
import ReliableDatagrams.Proofs.StoreSessions
import ReliableDatagrams.Proofs.StorePartition
import ReliableDatagrams.Proofs.DeferredDeletion
import ReliableDatagrams.Proofs.FrameGrammar
import ReliableDatagrams.Proofs.DataFrames
import ReliableDatagrams.Proofs.WriteErrors
import ReliableDatagrams.Proofs.NormalForms
import ReliableDatagrams.Proofs.DamagedBytes
import ReliableDatagrams.Proofs.SelfDelimitingFields
import ReliableDatagrams.Proofs.GatheredFields
import ReliableDatagrams.Proofs.WrittenSizes
import ReliableDatagrams.Proofs.MessageIdRounds
import ReliableDatagrams.Proofs.ServedInOrder
import ReliableDatagrams.Proofs.RecordAges
import ReliableDatagrams.Proofs.Draining
import ReliableDatagrams.Proofs.QuietSweeps
import ReliableDatagrams.Proofs.MissedRestarts
import ReliableDatagrams.Proofs.PoolShutdown
import ReliableDatagrams.Proofs.ExecutorRuns
import ReliableDatagrams.Proofs.FiringTimes
import ReliableDatagrams.Proofs.SchedulerShutDown
import ReliableDatagrams.Proofs.PendingJobs
import ReliableDatagrams.Proofs.SwallowedResets
import ReliableDatagrams.Proofs.IgnoredResets
import ReliableDatagrams.Proofs.Repeatability
import ReliableDatagrams.Proofs.SweepVisits
import ReliableDatagrams.Proofs.SweepOutcomes
import ReliableDatagrams.Proofs.SweepOrders
import ReliableDatagrams.Proofs.PeerSteps
import ReliableDatagrams.Proofs.PeerEviction
import ReliableDatagrams.Proofs.MarkedRecords
import ReliableDatagrams.Proofs.AnswerDiscipline
import ReliableDatagrams.Proofs.NumberedFrames
import ReliableDatagrams.Proofs.RejectedFrames
