import Shea.Computation.Program
import Shea.Computation.Faults
import Shea.Computation.Table
import Shea.Computation.History
import Shea.Computation.Counting
import Shea.Computation.Codes
import Shea.Computation.Ranking
import Shea.Computation.Masking
import Shea.Computation.Markup
import Shea.Computation.Logged
import Shea.Computation.Calendar
import Shea.Model.Values
import Shea.Model.Contracts
import Shea.Model.AppContracts
import Shea.Model.World
import Shea.Model.Repositories
import Shea.Model.Reconcile
import Shea.Model.Identity
import Shea.Model.VerifyEngine
import Shea.Model.Supervisor
import Shea.Model.Orchestrator
import Shea.Model.Security
import Shea.Model.Tools
import Shea.Model.Sandbox
import Shea.Model.Execution
import Shea.Model.Decision
import Shea.Model.Verification
import Shea.Model.Recovery
import Shea.Model.Planning
import Shea.Model.PlanRunner
import Shea.Model.Startup
import Shea.Model.Interaction
import Shea.Model.Sample
import Shea.Model.Config
import Shea.Model.Providers
import Shea.Model.EventBus
import Shea.Model.ReentrantBus
import Shea.Model.Memory
import Shea.Model.ContextAssembler
import Shea.Model.Migrations
import Shea.Model.JsonReader
import Shea.Model.ChatHistory
import Shea.Model.ModelOutput
import Shea.Model.AuditChain
import Shea.Model.Metadata
import Shea.Model.Credentials
import Shea.Model.Network
import Shea.Analysis.UnitOfWork
import Shea.Analysis.TaskStates
import Shea.Analysis.Rejections
import Shea.Analysis.SharedUnitOfWork
import Shea.Analysis.Reconciliation
import Shea.Analysis.Ledger
import Shea.Analysis.SupervisorSteps
import Shea.Analysis.ReceiptProtocol
import Shea.Analysis.Reservation
import Shea.Analysis.ServiceCalls
import Shea.Analysis.Operations
import Shea.Analysis.IdempotencyKeys
import Shea.Analysis.Atomicity
import Shea.Analysis.RecoveryStart
import Shea.Analysis.RunnerCalls
import Shea.Analysis.PlanRuns
import Shea.Analysis.StepOrder
import Shea.Analysis.PlanStore
import Shea.Analysis.PlanRecords
import Shea.Analysis.PlanCompletion
import Shea.Analysis.PlanHistories
import Shea.Analysis.RunOrder
import Shea.Analysis.StepRequests
import Shea.Analysis.OneShot
import Shea.Analysis.JsonTexts
import Shea.Analysis.ToolCalls
import Shea.Analysis.ToolOutcomes
import Shea.Analysis.Bindings
import Shea.Analysis.ToolRejections
import Shea.Analysis.HandlerCalls
import Shea.Analysis.HandlerEntries
import Shea.Analysis.Compensations
import Shea.Analysis.CredentialScopes
import Shea.Analysis.ExtensionLoading
import Shea.Analysis.FilesystemScope
import Shea.Analysis.Mismatches
import Shea.Analysis.ContentBinding
import Shea.Analysis.Invariants
import Shea.Analysis.Registers
import Shea.Analysis.Finalization
import Shea.Analysis.Classification
import Shea.Analysis.Successes
import Shea.Analysis.RecoveryCalls
import Shea.Analysis.FailedTasks
import Shea.Analysis.BlockedTasks
import Shea.Analysis.StrandedTasks
import Shea.Analysis.StartupReceipts
import Shea.Analysis.DecisionGate
import Shea.Analysis.Confirmations
import Shea.Analysis.BoundedRecovery
import Shea.Analysis.Configuration
import Shea.Analysis.GraphOrder
import Shea.Analysis.VerifiedOutcomes
import Shea.Analysis.SchemaSoundness
import Shea.Analysis.ProviderRouting
import Shea.Analysis.ProviderHealth
import Shea.Analysis.Subscriptions
import Shea.Analysis.EventDelivery
import Shea.Analysis.MemoryRetrieval
import Shea.Analysis.MemoryProposals
import Shea.Analysis.Expiry
import Shea.Analysis.MemoryPrompts
import Shea.Analysis.MigrationRuns
import Shea.Analysis.JsonRoundTrip
import Shea.Analysis.JsonExtraction
import Shea.Analysis.RowRefinement
import Shea.Analysis.ChatHistory
import Shea.Analysis.TamperEvidence
import Shea.Analysis.AuditCompleteness
import Shea.Analysis.Permits
import Shea.Analysis.PathScope
import Shea.Analysis.GateCoverage
import Shea.Analysis.NetworkHops
import Shea.Analysis.Destinations
import Shea.Analysis.PromptBlocks
import Shea.Analysis.StructuralRedaction
import Shea.Analysis.MetadataRedaction
import Shea.Analysis.StoredSecrets
import Shea.Analysis.RedactionCache
