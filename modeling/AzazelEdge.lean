import AzazelEdge.Lib.Run
import AzazelEdge.Lib.Json
import AzazelEdge.Lib.Text
import AzazelEdge.Lib.Prog
import AzazelEdge.Release.Ledger
import AzazelEdge.Release.Flow
import AzazelEdge.Release.Replay
import AzazelEdge.Release.Cooldown
import AzazelEdge.Release.Retry
import AzazelEdge.Release.Covered
import AzazelEdge.Release.OneFlow
import AzazelEdge.Release.Allowed
import AzazelEdge.Release.Verified
import AzazelEdge.Release.Transparent
import AzazelEdge.Ingress.Audit
import AzazelEdge.Ingress.Growing
import AzazelEdge.Audit.Ends
import AzazelEdge.Audit.Rotation
import AzazelEdge.Audit.Appended
import AzazelEdge.Alert.Inodes
import AzazelEdge.Decision.Once
import AzazelEdge.Notify.Conserved
import AzazelEdge.Evidence.Readable
import AzazelEdge.Evaluators.NoEvidence
import AzazelEdge.EvidencePlane.Subject
import AzazelEdge.Outcome.Unobserved
import AzazelEdge.Outcome.Followed
import AzazelEdge.Aggregator.Poller
import AzazelEdge.Aggregator.Freshness
import AzazelEdge.TraceAudit.Retained
import AzazelEdge.Triage.Reached
import AzazelEdge.Lib.Tally
import AzazelEdge.Broker.Workers
import AzazelEdge.Broker.Bounded
import AzazelEdge.Migrate.Resumed
import AzazelEdge.Lib.Distinct
import AzazelEdge.Mio.OpaqueId
import AzazelEdge.Mio.Records
import AzazelEdge.Arbiter.Decided
import AzazelEdge.Arbiter.Gate
import AzazelEdge.Arbiter.Explained
import AzazelEdge.Arbiter.Malformed
import AzazelEdge.Evaluators.Incidents
import AzazelEdge.Evaluators.LifeCycle
import AzazelEdge.EvidencePlane.Inventory
import AzazelEdge.EvidencePlane.Fanout
import AzazelEdge.EvidencePlane.Merged
import AzazelEdge.Impact.Client
import AzazelEdge.Impact.Monotone
import AzazelEdge.Ingress.Quota
import AzazelEdge.Notify.Reported
import AzazelEdge.Undelivered.Exact
import AzazelEdge.Undelivered.Skipped
import AzazelEdge.Mio.Lifecycle
import AzazelEdge.Mio.GapSelection
import AzazelEdge.Evaluators.Sequence
import AzazelEdge.Evaluators.Exposure
import AzazelEdge.Outcome.Telemetry
import AzazelEdge.Sot.Exact
import AzazelEdge.Civil.Exact
import AzazelEdge.Audit.ChainHead
import AzazelEdge.Sensors.Debounced
import AzazelEdge.Explanations.Retained
import AzazelEdge.Mio.LiveBinding
import AzazelEdge.Mio.Brokers
