import CompareVI.Branches.Classify
import CompareVI.Branches.RequiredChecks
import CompareVI.Cli.LoopArgs
import CompareVI.Cli.ArgTokenLaw
import CompareVI.Delivery.BranchSync
import CompareVI.Delivery.Clearance
import CompareVI.Delivery.Merged
import CompareVI.Delivery.Readiness
import CompareVI.Delivery.Retry
import CompareVI.Framework.JsString
import CompareVI.Framework.Run
import CompareVI.History.Categories
import CompareVI.History.FlagBundle
import CompareVI.History.HandOver
import CompareVI.Invoker.Protocol
import CompareVI.Issues.DryRun
import CompareVI.Lease.ExecutionCell
import CompareVI.Lease.LinkedLane
import CompareVI.Lease.Premium
import CompareVI.Lease.RecordFiles
import CompareVI.Lease.SessionLock
import CompareVI.Lease.WriterLease
import CompareVI.LocalCollab.Daemon
import CompareVI.LocalCollab.Hooks
import CompareVI.Merge.CurrentHead
import CompareVI.Merge.ReviewGateLaw
import CompareVI.Policy.BranchProtection
import CompareVI.Policy.Enforcement
import CompareVI.Queue.Burst
import CompareVI.Queue.RetryWindow
import CompareVI.Queue.TopoOrder
import CompareVI.Runtime.Overlap
import CompareVI.Standing.CacheCoherence
import CompareVI.Standing.Handoff
import CompareVI.Standing.QueueEmpty
import CompareVI.Workflows.ProbeGating
import CompareVI.Workflows.StepFrame
import CompareVI.Integrity.Coverage
import CompareVI.Release.RollbackLaw
import CompareVI.Remotes.RemoteUrl
import CompareVI.Lanes.Program
import CompareVI.Lanes.Release
import CompareVI.SafeGit.RepairOrder
import CompareVI.SafeGit.Safety
import CompareVI.SafeGit.Telemetry
import CompareVI.Ledger.Append
import CompareVI.Policy.AuthFallback
import CompareVI.Marketplace.Ranking
import CompareVI.Cost.Conservation
import CompareVI.Cost.UsageContinuity
import CompareVI.Cost.UsageCsv
import CompareVI.Lease.LockWindow
import CompareVI.Runtime.ObserverStop
import CompareVI.CompareLoop.Reservoir
import CompareVI.Incident.Fingerprint
import CompareVI.Ledger.RedactionLaw
import CompareVI.CompareLoop.Accounting
import CompareVI.CompareLoop.Interval
import CompareVI.Slo.Governor
import CompareVI.Slo.WorkflowRuns
import CompareVI.Cleanup.OnceGuard
import CompareVI.Delivery.WorkerSlots
import CompareVI.LocalCollab.KpiLaw
import CompareVI.Bridge.OutputLaw
import CompareVI.Bridge.CompareItems
