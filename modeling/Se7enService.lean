import Se7enService.Faulty
import Se7enService.Error
import Se7enService.ServiceFile
import Se7enService.ServiceFileRuns
import Se7enService.Json
import Se7enService.KeyedList
import Se7enService.RegistryFile
import Se7enService.Roots
import Se7enService.RegistryScopes
import Se7enService.ServiceState
import Se7enService.Journal
import Se7enService.Disk
import Se7enService.FileSet
import Se7enService.Transaction
import Se7enService.JournalBytes
import Se7enService.TransactionFrame
import Se7enService.EntryUndo
import Se7enService.CrashAtomic
import Se7enService.PrepareSpec
import Se7enService.ServiceJobs
import Se7enService.ServiceTidy
import Se7enService.ServiceRuns
import Se7enService.FileSetAtomicity
import Se7enService.Generations
import Se7enService.Trust
import Se7enService.RegistrySet
import Se7enService.RegistryTransaction
import Se7enService.RegistryRollback
import Se7enService.RegistryRecovery
import Se7enService.RegistryApply
import Se7enService.RegistryAtomicity
import Se7enService.RegistryGenerations
import Se7enService.Requests
import Se7enService.ProcessRequest
import Se7enService.RequestEffects
import Se7enService.Daemon
import Se7enService.DaemonSteps
import Se7enService.Authorization
import Se7enService.OneTransaction
import Se7enService.ServiceUpgrade
import Se7enService.UpgradeTrace
import Se7enService.RegisteredRoots
import Se7enService.KeyringFloor
import Se7enService.Registration
import Se7enService.FailedPrepare
import Se7enService.PipeServer
import Se7enService.PipeRuns
import Se7enService.JournalBound
import Se7enService.ServeLoop
import Se7enService.SigningMessage
import Se7enService.JobId
import Se7enService.RelativePath
import Se7enService.LauncherPayloads
import Se7enService.RegistryRoundTrip
import Se7enService.Volume
import Se7enService.ReservedCleanup
import Se7enService.CleanupFrame
import Se7enService.RegistryConfinement
import Se7enService.Installer
import Se7enService.InstallerFrame
import Se7enService.UninstallState
import Se7enService.CommitAnswer
import Se7enService.SignedContents
import Se7enService.ReleaseOrder
import Se7enService.PreviousBinary
import Se7enService.ServiceLog
import Se7enService.DirectorySecurity
import Se7enService.AccessCheck
import Se7enService.UpgradeDocuments
import Se7enService.Agreement
import Se7enService.TransactionPlatform
import Se7enService.PlatformAgreement
import Se7enService.StepPair
import Se7enService.DirectUpdate
import Se7enService.DirectMoves
import Se7enService.DirectAtomicity
import Se7enService.DirectHelper
import Se7enService.DirectPrepare
import Se7enService.DirectRuns
import Se7enService.DirectRelease
