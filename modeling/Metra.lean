import Metra.Interleave.Protocol
import Metra.Interleave.NamedLock
import Metra.Bytes.FileData
import Metra.Paths.UnixPath
import Metra.Api
import Metra.Checkpoint
import Metra.CheckpointFile
import Metra.Receive.Upload
import Metra.Receive.Pipeline
import Metra.Receive.Lane
import Metra.Server.Baseline
import Metra.Server.Completed
import Metra.Server.Exclusion
import Metra.Server.Updates
import Metra.Server.Waiting
import Metra.Server.Destination
import Metra.Server.Honest
import Metra.Server.Replacement
import Metra.Server.Storage
import Metra.Client.Plan
import Metra.Server.Lease
import Metra.Server.Failure
import Metra.Server.Overlap
import Metra.Server.Covered
import Metra.Server.Capacity
import Metra.Server.Stored
import Metra.Server.Accounting
import Metra.Server.Staging
import Metra.Server.Delivery
import Metra.Server.Progress
import Metra.Server.Session
import Metra.Server.Lanes
import Metra.Server.Steady
import Metra.Server.Synced
import Metra.Server.LastLane
import Metra.Server.Striped
import Metra.Client.Ack
import Metra.Keyed.Best
import Metra.Keyed.Table
import Metra.Client.PolicyFile
import Metra.Client.PolicyRace
import Metra.Server.OpenAck
import Metra.Client.OpenAck
import Metra.Receive.Recorder
import Metra.Receive.Recorded
import Metra.Receive.AtOnce
import Metra.Interleave.Solo
import Metra.Server.Accepted
import Metra.Server.OpenChecks
import Metra.Server.Refusal
import Metra.Client.SendPipeline
import Metra.Client.SendPipelined
import Metra.Client.SendProgress
import Metra.Client.SendTransfer
import Metra.Client.SendNonces
import Metra.Client.LaneTuning
import Metra.Client.Float
import Metra.Client.SendReport
import Metra.Client.Benchmark
import Metra.Text.Str
import Metra.Keyed.Layers
import Metra.Client.Metrarc
import Metra.Client.ConfigLayers
import Metra.Server.QuicMetrics
import Metra.EndToEnd.Lane
import Metra.EndToEnd.Session
import Metra.Server.Settled
import Metra.Server.Restart
import Metra.Server.Truthful
import Metra.Server.PowerLoss
import Metra.Text.Decimal
import Metra.Client.Selection
import Metra.Client.RuntimeTuning
import Metra.Client.LoadTuning
import Metra.Client.Matrix
import Metra.Client.Send
import Metra.EndToEnd.LoadFiles
import Metra.Server.SingleLane
import Metra.Server.Resumed
import Metra.EndToEnd.Resume
import Metra.EndToEnd.Send
