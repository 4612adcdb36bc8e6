import ChunkStore.FileSystem.Disk
import ChunkStore.FileSystem.Memory
import ChunkStore.FileSystem.Snapshot
import ChunkStore.Job.PlainStrategies
import ChunkStore.Job.StandIns
import ChunkStore.Main
import ChunkStore.Proofs.BuildLayout
import ChunkStore.Proofs.BuildManifests
import ChunkStore.Proofs.BuildStages
import ChunkStore.Proofs.Confinement
import ChunkStore.Proofs.Reproducibility
import ChunkStore.Proofs.Tampering
import ChunkStore.Session
import ChunkStore.Proofs.ListingOrder
import ChunkStore.Proofs.RootedRuns
import ChunkStore.Proofs.InputSafety
import ChunkStore.Proofs.RecordReading
import ChunkStore.Proofs.ChunkIndex
import ChunkStore.Proofs.ChunkPlans
import ChunkStore.Proofs.PartitionLayout
import ChunkStore.Proofs.EngineFailures
import ChunkStore.Proofs.NodeAggregation
import ChunkStore.Proofs.NameOrder
import ChunkStore.Proofs.Tiers
import ChunkStore.Proofs.SizedInputs
import ChunkStore.Proofs.TextInputs
import ChunkStore.Proofs.ReadSchedules
import ChunkStore.Proofs.PlanPrediction
import ChunkStore.Proofs.BufferSizes
import ChunkStore.Proofs.FileViews
import ChunkStore.Proofs.VerificationStatus
import ChunkStore.Proofs.Creation
import ChunkStore.Proofs.Rounding
import ChunkStore.Proofs.WholeSizes
