import PortableRuntime.Python.Equality
import PortableRuntime.Stores.Journal
import PortableRuntime.Stores.RecordLifecycle
import PortableRuntime.Stores.PromotionGate
import PortableRuntime.Stores.KnowledgeVersions
import PortableRuntime.Stores.FencingSoundness
import PortableRuntime.Stores.TerminalPairs
import PortableRuntime.Stores.PrecommitOrphans
import PortableRuntime.Core.Budgets
import PortableRuntime.Core.CircuitBreaker
import PortableRuntime.Core.PolicyAlgebra
import PortableRuntime.Core.AssessmentRefresh
import PortableRuntime.Core.LeaseClaims
import PortableRuntime.Core.Registry
import PortableRuntime.Responsibility.ContextSnapshot
import PortableRuntime.Controller.Handoff
import PortableRuntime.Controller.Readback
import PortableRuntime.Governance.Projection
import PortableRuntime.Governance.Revalidation
import PortableRuntime.Governance.DispatchCommit
import PortableRuntime.Stores.GraphInvariant
import PortableRuntime.Stores.RoundTrip
import PortableRuntime.Stores.BundleRoundTrip
import PortableRuntime.Stores.Minting
import PortableRuntime.Stores.SqliteThreads
import PortableRuntime.Stores.TransactionRollback
import PortableRuntime.Stores.VerifiedCommit
import PortableRuntime.Stores.RevisionAtomicity
import PortableRuntime.Workflows.Invoke
import PortableRuntime.Workflows.OneShot
import PortableRuntime.Workflows.RunMachine
import PortableRuntime.Workflows.RecoveryReplay
import PortableRuntime.Workflows.ReconciliationConsumer
import PortableRuntime.Governance.EventOpening
import PortableRuntime.Experience.UseAdmission
import PortableRuntime.Experience.StorageOrder
import PortableRuntime.Experience.Composition
import PortableRuntime.Library.Pooling
import PortableRuntime.Core.QualificationOrder
import PortableRuntime.Core.PatternOrder
import PortableRuntime.Stores.AttemptRuns
import PortableRuntime.Stores.CompareAndSwap
import PortableRuntime.Workflows.ProcedureGates
import PortableRuntime.Core.Router
import PortableRuntime.Stores.QualificationTransition
import PortableRuntime.Protocol.LineageWalk
import PortableRuntime.Protocol.Restarting
import PortableRuntime.Responsibility.Wakeups
import PortableRuntime.Workflows.StartRun
import PortableRuntime.Records.ReopenExact
import PortableRuntime.Workflows.SpecificationFaithful
import PortableRuntime.Library.Window
import PortableRuntime.Triggers.Idempotency
import PortableRuntime.Triggers.AlertRuns
import PortableRuntime.Interfaces.Transport
import PortableRuntime.Observation.AuditedWithdrawal
import PortableRuntime.Governance.HistoryEpoch
import PortableRuntime.Governance.Adapters
