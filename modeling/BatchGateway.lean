import BatchGateway.SingleFinalization
import BatchGateway.ClaimRaces
import BatchGateway.LockOrder
import BatchGateway.Reconciliation
import BatchGateway.StatusRaces
import BatchGateway.CrashSafety
import BatchGateway.LedgerThreads
import BatchGateway.Reservations
import BatchGateway.FairShare
import BatchGateway.OutputBound
import BatchGateway.Results
import BatchGateway.PassOutcome
import BatchGateway.EventTraces
import BatchGateway.LdapAuth
import BatchGateway.PortalAccounts
import BatchGateway.Consumption
import BatchGateway.Failover
import BatchGateway.LlamaClient
import BatchGateway.Submission
import BatchGateway.FileSessions
import BatchGateway.Timestamps
import BatchGateway.FileOwnership
import BatchGateway.TenantIsolation
import BatchGateway.CliGrants
import BatchGateway.Provisioning
import BatchGateway.ApiKeys
import BatchGateway.DirectoryLogin
import BatchGateway.ClaimPass
import BatchGateway.InputGrammar
import BatchGateway.InputFailures
import BatchGateway.LoginLimits
import BatchGateway.DispatchAverages
import BatchGateway.NodeHealth
import BatchGateway.UsernameGate
import BatchGateway.SubmissionLimits
import BatchGateway.QueueEta
import BatchGateway.ResultPurge
import BatchGateway.Timeline
import BatchGateway.Draining
import BatchGateway.BoundedWaiting
import BatchGateway.AuditTrail
import BatchGateway.RetentionPass
import BatchGateway.PortalSessions
import BatchGateway.DurableFiles
import BatchGateway.Polling
import BatchGateway.Noninterference
import BatchGateway.AccessControl
import BatchGateway.ServerRefinement
import BatchGateway.QueueProgress
import BatchGateway.PassFiles
import BatchGateway.Delivery
