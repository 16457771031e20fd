import SentryGate.Theory.Machine
import SentryGate.Theory.Calendar
import SentryGate.Theory.Text
import SentryGate.Theory.Decimal
import SentryGate.Theory.Bytes
import SentryGate.Theory.Json
import SentryGate.Theory.Table
import SentryGate.Theory.Counting
import SentryGate.Theory.Linearize
import SentryGate.Theory.Fill
import SentryGate.Theory.Strings
import SentryGate.Theory.Dialogue
import SentryGate.Theory.Crew
import SentryGate.Theory.Permits
import SentryGate.Theory.Critical
import SentryGate.Theory.JsonText
import SentryGate.Theory.JsonWrite
import SentryGate.Theory.Pool
import SentryGate.Theory.Backoff
import SentryGate.Contracts
import SentryGate.Policy.Schema
import SentryGate.Policy.Build
import SentryGate.Policy.Loader
import SentryGate.Policy.StatusCalls
import SentryGate.Policy.ReloadCalls
import SentryGate.Policy.ReloadLoop
import SentryGate.Decision.Claim
import SentryGate.Decision.Store
import SentryGate.Decision.ClaimStore
import SentryGate.Decision.Idempotence
import SentryGate.Decision.Evaluate
import SentryGate.Decision.Ingress
import SentryGate.Decision.Rule
import SentryGate.Audit.Statements
import SentryGate.Audit.Sqlite
import SentryGate.Audit.Timestamp
import SentryGate.Audit.AuditLog
import SentryGate.Audit.Lifecycle
import SentryGate.Audit.Equivalence
import SentryGate.Audit.Concurrent
import SentryGate.Audit.Repeats
import SentryGate.Audit.Conflicts
import SentryGate.Workflows.Activities
import SentryGate.Workflows.Saga
import SentryGate.Workflows.System
import SentryGate.Workflows.Simulated
import SentryGate.Workflows.Fence
import SentryGate.Workflows.Threads
import SentryGate.Workflows.History
import SentryGate.Workflows.Ownership
import SentryGate.Workflows.Authorized
import SentryGate.Workflows.Identifiers
import SentryGate.Workflows.Rejection
import SentryGate.Workflows.Agreement
import SentryGate.Workflows.Truthful
import SentryGate.Workflows.Compensation
import SentryGate.Workflows.Schedule
import SentryGate.Workflows.Release
import SentryGate.Workflows.AuditRows
import SentryGate.Workflows.AuditTrail
import SentryGate.Workflows.Course
import SentryGate.Workflows.Effects
import SentryGate.Workflows.FencedCall
import SentryGate.Workflows.Reconciliation
import SentryGate.Workflows.Results
import SentryGate.Workflows.Views
import SentryGate.Workflows.Undisturbed
import SentryGate.Proxy.Intercept
import SentryGate.Proxy.ProposalText
import SentryGate.Proxy.Server
import SentryGate.Proxy.Gateway
import SentryGate.Proxy.EndToEnd
import SentryGate.Proxy.Envelopes
import SentryGate.Auth.AgentKeys
