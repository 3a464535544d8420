import Evalorch.Lifecycle.Results
import Evalorch.Lifecycle.Ownership
import Evalorch.Lifecycle.Draining
import Evalorch.Lifecycle.Attempts
import Evalorch.Lifecycle.Staleness
import Evalorch.Lifecycle.DrainMode
import Evalorch.Lifecycle.Deadlocks
import Evalorch.Lifecycle.Finality
import Evalorch.Lifecycle.Dispatch
import Evalorch.Lifecycle.Capacity
import Evalorch.Lifecycle.Clock
import Evalorch.Lifecycle.Leases
import Evalorch.Lifecycle.Reports
import Evalorch.Lifecycle.ResultPages
import Evalorch.Lifecycle.Outcomes
import Evalorch.Lifecycle.Coherence
import Evalorch.Resolution.Interpretation
import Evalorch.Resolution.Faithfulness
import Evalorch.Resolution.Transparency
import Evalorch.Resolution.Spellings
import Evalorch.Resolution.Paths
import Evalorch.Resolution.Accounting
import Evalorch.Resolution.Selection
import Evalorch.Creation.Idempotency
import Evalorch.Creation.SpanForest
import Evalorch.Resolution.Normalization
import Evalorch.Creation.Replay
import Evalorch.Creation.TicketPages
import Evalorch.Verdicts.Order
import Evalorch.Verdicts.Scoping
import Evalorch.Verdicts.RequiredFields
import Evalorch.Verdicts.Judge
import Evalorch.Verdicts.ToolCalls
import Evalorch.Creation.Overrides
import Evalorch.Creation.Rejection
import Evalorch.Creation.Reloading
import Evalorch.Creation.Confinement
import Evalorch.Redaction.Credentials
import Evalorch.Interleaving.Drain
import Evalorch.Interleaving.Serial
import Evalorch.Interleaving.Race
