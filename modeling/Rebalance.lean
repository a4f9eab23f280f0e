import Rebalance.Schedule.Graph
import Rebalance.Controller.Staged
import Rebalance.Cluster.Acks
import Rebalance.Placement.Text
import Rebalance.Main
import Rebalance.Proofs.Exact
import Rebalance.Proofs.Binary64
import Rebalance.Proofs.Placement.Assignment
import Rebalance.Proofs.Placement.Encoding
import Rebalance.Proofs.Placement.Cost
import Rebalance.Proofs.Placement.Bound
import Rebalance.Proofs.Schedule.Time
import Rebalance.Proofs.Placement.ClosedForm
import Rebalance.Proofs.Search.Board
import Rebalance.Proofs.Search.Feasible
import Rebalance.Proofs.Search.Optimality
import Rebalance.Proofs.Search.Yardstick
import Rebalance.Proofs.Search.Budget
import Rebalance.Proofs.Search.HomeFirst
import Rebalance.Proofs.Search.Steps
import Rebalance.Proofs.Search.Occupied
import Rebalance.Proofs.Cluster.Serving
import Rebalance.Proofs.Migration.Plan
import Rebalance.Proofs.Controller.Transitions
import Rebalance.Proofs.Controller.Alike
import Rebalance.Proofs.Controller.Requests
import Rebalance.Proofs.Controller.Log
import Rebalance.Proofs.Controller.Sequencing
import Rebalance.Proofs.Migration.Run
import Rebalance.Proofs.Cluster.Overlay
import Rebalance.Proofs.Cluster.Layout
import Rebalance.Proofs.Cluster.Simulated
import Rebalance.Proofs.Cluster.Interleaved
import Rebalance.Proofs.Cluster.Closed
import Rebalance.Proofs.Cluster.Turns
import Rebalance.Proofs.Cluster.System
import Rebalance.Proofs.Cluster.Progress
import Rebalance.Proofs.Cluster.Attribution
import Rebalance.Proofs.Cluster.Reservation
import Rebalance.Proofs.Decimal.Natural
import Rebalance.Proofs.Json.Text
import Rebalance.Proofs.Json.Token
import Rebalance.Proofs.Trace.Format
import Rebalance.Proofs.Trace.Reading
import Rebalance.Proofs.Text.Utf8
import Rebalance.Proofs.Trace.Lines
import Rebalance.Proofs.Trace.RoundTrip
import Rebalance.Proofs.Controller.Deliberation
import Rebalance.Proofs.Controller.Retained
import Rebalance.Proofs.Controller.Indifference
import Rebalance.Proofs.Sample.Median
import Rebalance.Proofs.Sample.Figures
import Rebalance.Proofs.Sample.Filing
import Rebalance.Proofs.Placement.Regrouped
import Rebalance.Proofs.Telemetry.Replay
import Rebalance.Proofs.Controller.Improvement
import Rebalance.Proofs.Migration.Acknowledgements
import Rebalance.Proofs.Controller.Course
import Rebalance.Proofs.Controller.Cooldown
import Rebalance.Proofs.Controller.Accounting
import Rebalance.Proofs.Controller.Abstention
import Rebalance.Proofs.Gate.Rulings
import Rebalance.Proofs.Controller.Starvation
import Rebalance.Proofs.Cluster.Counters
import Rebalance.Proofs.Cluster.Tally
import Rebalance.Proofs.Migration.Allocation
import Rebalance.Proofs.Cluster.Completion
import Rebalance.Proofs.Cluster.Capacity
import Rebalance.Proofs.Workload.Generated
import Rebalance.Proofs.Sample.Penalties
import Rebalance.Proofs.Workload.Classified
import Rebalance.Proofs.Sample.Reconciliation
import Rebalance.Proofs.Sample.Subgroups
import Rebalance.Proofs.Schedule.Links
import Rebalance.Proofs.Schedule.Graph
import Rebalance.Proofs.Telemetry.Ledger
import Rebalance.Proofs.Sample.Slots
import Rebalance.Proofs.Telemetry.Charging
import Rebalance.Proofs.Placement.Moves
import Rebalance.Proofs.Cluster.Changes
import Rebalance.Proofs.Workload.Stream
import Rebalance.Proofs.Workload.Shares
import Rebalance.Proofs.Json.Trailing
import Rebalance.Proofs.Trace.Padding
import Rebalance.Proofs.Json.Grammar
import Rebalance.Proofs.Trace.Fields
import Rebalance.Proofs.Placement.Text
import Rebalance.Proofs.Cluster.Delivery
import Rebalance.Proofs.Sample.Key
