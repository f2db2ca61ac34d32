import Mossward.L1Encoding.VersionOrder
import Mossward.L1Encoding.Cpe
import Mossward.L2Store.IntegrityHistory
import Mossward.L2Store.AssetMerge
import Mossward.L2Store.RelayAuthorizations
import Mossward.L3Protocol.LocalAdministrator
import Mossward.L3Protocol.CompletionRetry
import Mossward.L3Protocol.BoundedRetries
import Mossward.L3Protocol.Coverage
import Mossward.L3Protocol.ResultProjection
import Mossward.L3Protocol.ScanRelease
import Mossward.L3Protocol.AnalystWork
import Mossward.L4App.CveMatching
import Mossward.L4App.ReplayLedger
import Mossward.L4App.OutboxDelivery
import Mossward.L5Concurrency.TerminalStatus
import Mossward.L5Concurrency.Execution
import Mossward.L5Concurrency.LeaseRenewal
import Mossward.L5Concurrency.SecondFactor
import Mossward.L5Concurrency.LoginBlock
import Mossward.L5Concurrency.LoginFaults
import Mossward.L6Scheduler.RetryDelay
import Mossward.L6Scheduler.MaintenanceWindow
import Mossward.L6Scheduler.Restart
import Mossward.L4App.UpdateCrash
import Mossward.L4App.UpdateRetry
import Mossward.L3Protocol.WorkerCapacity
import Mossward.L4App.OidcLogin
import Mossward.L4App.KeyRotation
import Mossward.L4App.AgentModules
import Mossward.L4App.CheckCatalog
import Mossward.L4App.Backup
import Mossward.L4App.ListeningInventory
import Mossward.L4App.CopyOrder
import Mossward.L4App.ScanScope
import Mossward.L4App.ThreatMatching
import Mossward.L4App.RelayDelivery
import Mossward.L4App.RelayFailover
