import NodeFlow.Digraph
import NodeFlow.Main
import NodeFlow.Proofs.Code.Operand
import NodeFlow.Proofs.Code.Passes
import NodeFlow.Proofs.Code.Results
import NodeFlow.Proofs.Code.Writes
import NodeFlow.Proofs.Graph.Canonical
import NodeFlow.Proofs.Graph.Messages
import NodeFlow.Proofs.Graph.Saved
import NodeFlow.Proofs.Graph.Sinks
import NodeFlow.Proofs.Operator.Equality
import NodeFlow.Proofs.Operator.Range
import NodeFlow.Proofs.Operator.Sorting
import NodeFlow.Proofs.Operator.Splitting
import NodeFlow.Proofs.Preview.Listing
import NodeFlow.Proofs.Preview.Warning
import NodeFlow.Proofs.Preview.Watch
import NodeFlow.Proofs.Session.Constant
import NodeFlow.Proofs.Session.Tidy
import NodeFlow.Proofs.Text.Runs
import NodeFlow.Proofs.Value.Leaves
import NodeFlow.Proofs.Value.Reader
import NodeFlow.Proofs.Verdict
import NodeFlow.Text.Fallback
import NodeFlow.Value.Constant
import NodeFlow.Value.Order
