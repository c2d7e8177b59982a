import BoardEval.Engine.Any
import BoardEval.Exchange.Evaluation
import BoardEval.Exchange.Network
import BoardEval.Exchange.Settings
import BoardEval.Position
import BoardEval.Probe
import BoardEval.Service.Session
import BoardEval.Proofs.Cells
import BoardEval.Proofs.Checks
import BoardEval.Proofs.Layouts
import BoardEval.Proofs.Copies
import BoardEval.Proofs.Turns
import BoardEval.Proofs.Rows
import BoardEval.Proofs.Pools
import BoardEval.Proofs.Packing
import BoardEval.Proofs.Decoding
import BoardEval.Proofs.Forwards
import BoardEval.Proofs.Batches
import BoardEval.Proofs.Meaning
import BoardEval.Proofs.History
import BoardEval.Proofs.Batching
import BoardEval.Proofs.LiveHeads
import BoardEval.Proofs.Guards
import BoardEval.Proofs.GuardedBatches
import BoardEval.Proofs.GuardedDecoding
import BoardEval.Proofs.Calls
import BoardEval.Proofs.Contract
import BoardEval.Proofs.Padding
import BoardEval.Proofs.Serving
import BoardEval.Proofs.Threads
import BoardEval.Proofs.Interleaving
import BoardEval.Proofs.Sessions
import BoardEval.Proofs.Equivariance
import BoardEval.Proofs.Lifecycles
import BoardEval.Proofs.Teardown
import BoardEval.Proofs.SlotRegistry
import BoardEval.Proofs.Shutdown
import BoardEval.Proofs.Rounding
import BoardEval.Proofs.Blending
import BoardEval.Proofs.SlotReuse
import BoardEval.Proofs.Metering
import BoardEval.Proofs.ContextCalls
import BoardEval.Proofs.ServingLoops
import BoardEval.Proofs.Positions
import BoardEval.Proofs.Reports
import BoardEval.Proofs.Networks
import BoardEval.Proofs.Engines
import BoardEval.Proofs.ChannelOrder
import BoardEval.Proofs.Leases
import BoardEval.Proofs.Startups
import BoardEval.Proofs.Configurations
import BoardEval.Proofs.Corners
import BoardEval.Proofs.Inverses
import BoardEval.Proofs.IndexMaps
import BoardEval.Proofs.Deliveries
import BoardEval.Proofs.HeadShapes
import BoardEval.Proofs.PoolRows
import BoardEval.Proofs.Nearest
import BoardEval.Proofs.Interpolation
import BoardEval.Proofs.Optimism
import BoardEval.Proofs.Deadlines
import BoardEval.Proofs.HalfPrecision
