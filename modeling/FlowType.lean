import FlowType.AckSoundness
import FlowType.AttachExisting
import FlowType.BindingRuns
import FlowType.Broker
import FlowType.CancelFinality
import FlowType.CandidateEndpoints
import FlowType.CommitRecovery
import FlowType.Completion
import FlowType.ConnectionLimiter
import FlowType.ControlRuns
import FlowType.CrashRecovery
import FlowType.DraftRuns
import FlowType.FileSends
import FlowType.ForceFinish
import FlowType.ImageSlot
import FlowType.IpcFraming
import FlowType.IpcSizes
import FlowType.ManifestConstruction
import FlowType.ManifestDownload
import FlowType.MappingResolves
import FlowType.NameReservation
import FlowType.OrphanSessions
import FlowType.OutboundAgreement
import FlowType.PairedPhoneStore
import FlowType.PairingRotation
import FlowType.PhoneDeduplication
import FlowType.PhysicalInput
import FlowType.QueueBinding
import FlowType.QueueKeepsLatest
import FlowType.RangedDownload
import FlowType.SequenceDiscipline
import FlowType.SharedRoot
import FlowType.StaleEvents
import FlowType.StartOnce
import FlowType.SupersededConnections
import FlowType.SwitchRequests
import FlowType.SyncedRuns
import FlowType.TargetProbes
import FlowType.Tickets
import FlowType.TipModel
import FlowType.TokenLengths
import FlowType.TransferWorkers
import FlowType.UnpairedPhones
import FlowType.UpdateGate
import FlowType.UpdateManager
import FlowType.UpdateWorker
import FlowType.UploadRetries
import FlowType.UserEdits
