import WebhookDelivery.Run.System
import WebhookDelivery.Run.Int64
import WebhookDelivery.Run.Ownership
import WebhookDelivery.Run.Retry
import WebhookDelivery.Run.Lineage
import WebhookDelivery.Run.Timed
import WebhookDelivery.Run.Ledger
import WebhookDelivery.Run.Progress
import WebhookDelivery.Run.Meter
import WebhookDelivery.Run.Window
import WebhookDelivery.Run.Gate
import WebhookDelivery.Sql.Table
import WebhookDelivery.Sql.Select
import WebhookDelivery.Sql.Paging
import WebhookDelivery.Sql.Group
import WebhookDelivery.Sql.Transaction
import WebhookDelivery.Text.Ascii
import WebhookDelivery.Text.Hex
import WebhookDelivery.Text.Decimal
import WebhookDelivery.Text.Calendar
import WebhookDelivery.Text.Rfc3339
import WebhookDelivery.Text.Url
import WebhookDelivery.Text.Numeral
import WebhookDelivery.Text.Header
import WebhookDelivery.Net.Prefix
import WebhookDelivery.Net.Ip
import WebhookDelivery.K.Model
import WebhookDelivery.K.Db
import WebhookDelivery.K.Worker
import WebhookDelivery.K.Ownership
import WebhookDelivery.K.Claiming
import WebhookDelivery.K.Attempts
import WebhookDelivery.K.Safety
import WebhookDelivery.K.Recovery
import WebhookDelivery.K.Ledger
import WebhookDelivery.K.DeadLetters
import WebhookDelivery.K.Due
import WebhookDelivery.K.Backoff
import WebhookDelivery.K.Destination
import WebhookDelivery.K.Routes
import WebhookDelivery.K.Turns
import WebhookDelivery.K.Stranded
import WebhookDelivery.K.Shutdown
import WebhookDelivery.Q.Model
import WebhookDelivery.Q.Db
import WebhookDelivery.Q.Worker
import WebhookDelivery.Q.Snapshots
import WebhookDelivery.Q.Labels
import WebhookDelivery.Q.Idempotency
import WebhookDelivery.Q.Listing
import WebhookDelivery.Q.Backoff
import WebhookDelivery.Q.Ownership
import WebhookDelivery.Q.Exclusion
import WebhookDelivery.Q.Resend
import WebhookDelivery.Q.Timing
import WebhookDelivery.Q.Attempts
import WebhookDelivery.Q.DeadLetters
import WebhookDelivery.Q.Recovery
import WebhookDelivery.Q.Auth
import WebhookDelivery.Q.Signature
import WebhookDelivery.Q.Ssrf
import WebhookDelivery.Q.Addresses
import WebhookDelivery.Q.RateLimit
import WebhookDelivery.Q.Sliding
import WebhookDelivery.Q.Webhook
import WebhookDelivery.Q.Quota
import WebhookDelivery.Q.Acceptance
import WebhookDelivery.Q.Refusal
import WebhookDelivery.Q.Completeness
import WebhookDelivery.Q.Metrics
import WebhookDelivery.Q.Ledger
import WebhookDelivery.Q.Paging
import WebhookDelivery.Q.Views
import WebhookDelivery.Q.Stats
import WebhookDelivery.Q.Accounting
import WebhookDelivery.Q.Checked
import WebhookDelivery.Q.Replay
import WebhookDelivery.Q.Drain
import WebhookDelivery.Q.Custody
import WebhookDelivery.Q.Shutdown
import WebhookDelivery.Q.Finality
import WebhookDelivery.Q.Connections
import WebhookDelivery.Q.Config
import WebhookDelivery.Q.Clock
import WebhookDelivery.D.Model
import WebhookDelivery.D.Db
import WebhookDelivery.D.Worker
import WebhookDelivery.D.Snapshots
import WebhookDelivery.D.Lineage
import WebhookDelivery.D.Origin
import WebhookDelivery.D.Access
import WebhookDelivery.D.Views
import WebhookDelivery.D.Redeliver
import WebhookDelivery.D.Attempts
import WebhookDelivery.D.Population
import WebhookDelivery.D.Resend
import WebhookDelivery.D.Budget
import WebhookDelivery.D.Atomic
import WebhookDelivery.D.Due
import WebhookDelivery.D.Ssrf
import WebhookDelivery.D.Destination
import WebhookDelivery.D.Hosts
import WebhookDelivery.D.Causes
import WebhookDelivery.D.Checked
import WebhookDelivery.G.Model
import WebhookDelivery.G.Db
import WebhookDelivery.G.Backoff
import WebhookDelivery.G.Routes
import WebhookDelivery.G.Worker
import WebhookDelivery.G.Snapshots
import WebhookDelivery.G.Ownership
import WebhookDelivery.G.Attempts
import WebhookDelivery.G.Requeue
import WebhookDelivery.G.Durability
import WebhookDelivery.G.Ledger
import WebhookDelivery.G.Views
import WebhookDelivery.G.Access
import WebhookDelivery.G.Drain
import WebhookDelivery.G.Ssrf
import WebhookDelivery.G.Destination
import WebhookDelivery.G.Signature
