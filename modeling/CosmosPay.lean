import CosmosPay.Awaiting.Program
import CosmosPay.Awaiting.Pool
import CosmosPay.Awaiting.Counting
import CosmosPay.Awaiting.Execution
import CosmosPay.Awaiting.Pairing
import CosmosPay.Tables.Table
import CosmosPay.Tables.Tally
import CosmosPay.Tables.Pages
import CosmosPay.Text.Numeral
import CosmosPay.Text.Numbers
import CosmosPay.Text.Calendar
import CosmosPay.Text.Gregorian
import CosmosPay.Text.Trim
import CosmosPay.Text.Json
import CosmosPay.Text.Urlencoded
import CosmosPay.Schema
import CosmosPay.Gateway
import CosmosPay.Store
import CosmosPay.Calls
import CosmosPay.World
import CosmosPay.StellarVerifier
import CosmosPay.PaymentIntents
import CosmosPay.StellarObserver
import CosmosPay.Webhooks
import CosmosPay.Catalog
import CosmosPay.Analytics
import CosmosPay.Service
import CosmosPay.Guards
import CosmosPay.Evolution
import CosmosPay.Answers
import CosmosPay.Contracts.Kinds
import CosmosPay.Contracts.Verification
import CosmosPay.Contracts.Transitions
import CosmosPay.Contracts.Announcements
import CosmosPay.Contracts.Creations
import CosmosPay.Contracts.Tenancy
import CosmosPay.Contracts.Addresses
import CosmosPay.Contracts.Deliveries
import CosmosPay.Settlement
import CosmosPay.Sequence
import CosmosPay.Chain
import CosmosPay.Payment
import CosmosPay.Provenance
import CosmosPay.Idempotence
import CosmosPay.Tenants
import CosmosPay.Isolation
import CosmosPay.Memos
import CosmosPay.Expiry
import CosmosPay.Mirror
import CosmosPay.WellFormed
import CosmosPay.Attempts
import CosmosPay.Acknowledgement
import CosmosPay.EndpointChanges
import CosmosPay.Authorization
import CosmosPay.Overview
import CosmosPay.Comparison
import CosmosPay.Secrets
import CosmosPay.Unrelated
import CosmosPay.Atomicity
import CosmosPay.Awaiting.Evaluation
import CosmosPay.Removal
import CosmosPay.Scanning
import CosmosPay.Verdicts
import CosmosPay.Agreement
import CosmosPay.Detection
import CosmosPay.Text.Decimal
import CosmosPay.Text.Notation
import CosmosPay.Amounts
import CosmosPay.Recognition
import CosmosPay.Signature
import CosmosPay.Reconciliation
import CosmosPay.Awaiting.Batches
import CosmosPay.Ticks
import CosmosPay.Reentrancy
import CosmosPay.Awaiting.Strategies
import CosmosPay.Retries
import CosmosPay.Contracts.FanOut
import CosmosPay.FanOut
import CosmosPay.Awaiting.Screening
import CosmosPay.Screened
import CosmosPay.Separation
import CosmosPay.Contracts.Compositions
import CosmosPay.Sep7
import CosmosPay.Payable
import CosmosPay.Contracts.Fallbacks
import CosmosPay.Fallback
import CosmosPay.Contracts.Enrollment
import CosmosPay.Enrollment
import CosmosPay.Contracts.Handovers
import CosmosPay.Crediting
import CosmosPay.Reports
import CosmosPay.Paging
import CosmosPay.Figures
import CosmosPay.Printed
import CosmosPay.Series
import CosmosPay.Assets
import CosmosPay.Networks
import CosmosPay.Sources
import CosmosPay.Statistics
import CosmosPay.AccessLog
import CosmosPay.Awaiting.Draining
import CosmosPay.Completion
import CosmosPay.Contracts.Loops
import CosmosPay.Contracts.Receivers
import CosmosPay.AuditTrail
import CosmosPay.Origins
import CosmosPay.Lineage
import CosmosPay.Awaiting.Rationing
import CosmosPay.Budget
import CosmosPay.Resolution
import CosmosPay.Controllers
import CosmosPay.Contracts.Scopes
import CosmosPay.Admission
import CosmosPay.Contracts.Outcomes
import CosmosPay.Lifecycle
import CosmosPay.Tidings
import CosmosPay.Awaiting.Expenses
import CosmosPay.Lookups
import CosmosPay.Tables.Turns
import CosmosPay.Progress
import CosmosPay.Crowding
import CosmosPay.Awaiting.Heeding
import CosmosPay.Contracts.Envelopes
import CosmosPay.Contracts.Readings
import CosmosPay.Envelopes
import CosmosPay.Horizons
import CosmosPay.DeliveryLog
import CosmosPay.Awaiting.Spawning
import CosmosPay.Contracts.Numberings
import CosmosPay.Notification
