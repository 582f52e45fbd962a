import HarnessSdk.Acceptance.Assured
import HarnessSdk.Acceptance.Certificates
import HarnessSdk.Acceptance.Reviews
import HarnessSdk.Artifacts.Independence
import HarnessSdk.Budgets.Settlements
import HarnessSdk.Capacity.Runs
import HarnessSdk.Catalogue.Reading
import HarnessSdk.Context.Accounting
import HarnessSdk.Context.Assembling
import HarnessSdk.Context.Closure
import HarnessSdk.Context.Groups
import HarnessSdk.Graph.Admitted
import HarnessSdk.Graph.DependencyOrder
import HarnessSdk.Graph.Pool
import HarnessSdk.Index.Chunks
import HarnessSdk.Index.Snapshots
import HarnessSdk.Inputs.Collisions
import HarnessSdk.Knowledge.Assumptions
import HarnessSdk.Knowledge.Paths
import HarnessSdk.Network.ResourceConflicts
import HarnessSdk.Network.Starting
import HarnessSdk.Network.StructuralDiff
import HarnessSdk.Obligations.Openings
import HarnessSdk.Obligations.RoundTrip
import HarnessSdk.Planning.Coverage
import HarnessSdk.Planning.ExportNames
import HarnessSdk.Planning.Refinement
import HarnessSdk.Planning.SharedGoals
import HarnessSdk.Planning.SharedOrders
import HarnessSdk.Registry.Codec
import HarnessSdk.Registry.Withdrawal
import HarnessSdk.Scheduling.Allocator
import HarnessSdk.Scheduling.Backpressure
import HarnessSdk.Sessions.Leases
import HarnessSdk.Workflow.Barriers
import HarnessSdk.Workflow.CycleBudgets
import HarnessSdk.Workflow.DurableRetries
import HarnessSdk.Workflow.LoopBudgets
import HarnessSdk.Workflow.Reducing
import HarnessSdk.Workflow.Resumption
