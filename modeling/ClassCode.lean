import ClassCode.Json.Reader
import ClassCode.Literal.Reader
import ClassCode.Operations
import ClassCode.Trace.Probe
import ClassCode.Proofs.Codegen
import ClassCode.Proofs.Literal.RoundTrip
import ClassCode.Proofs.Invocation.Write
import ClassCode.Proofs.Invocation.Calls
import ClassCode.Proofs.Invocation.Reception
import ClassCode.Proofs.Keyed
import ClassCode.Proofs.Ty.Same
import ClassCode.Proofs.Ty.Substitution
import ClassCode.Proofs.ClassGraph.Acyclic
import ClassCode.Proofs.Implementation.Instantiation
import ClassCode.Proofs.Fields.Placement
import ClassCode.Proofs.Fields.Ancestors
import ClassCode.Proofs.Fields.Collected
import ClassCode.Proofs.Fields.Order
import ClassCode.Proofs.Fields.Found
import ClassCode.Proofs.Fields.Selection
import ClassCode.Proofs.Supertypes.Above
import ClassCode.Proofs.Implementation.Agreement
import ClassCode.Proofs.Implementation.Reordering
import ClassCode.Proofs.Implementation.Closed
import ClassCode.Proofs.Trace.Log
import ClassCode.Proofs.Trace.Run
import ClassCode.Proofs.Trace.Chain
import ClassCode.Proofs.Trace.Statistics
import ClassCode.Proofs.Trace.Sets
import ClassCode.Proofs.Trace.Segments
import ClassCode.Proofs.Trace.Transparency
import ClassCode.Proofs.Trace.Operations
import ClassCode.Proofs.Desk.History
import ClassCode.Proofs.Json.Reports
import ClassCode.Proofs.Invocation.Refusal
import ClassCode.Proofs.Invocation.Fulfilment
import ClassCode.Proofs.Invocation.Layouts
import ClassCode.Proofs.Supertypes.Finite
import ClassCode.Proofs.Fields.Circles
import ClassCode.Proofs.Fields.Walk
import ClassCode.Proofs.Ty.Simultaneous
import ClassCode.Proofs.ClassGraph.Congruence
import ClassCode.Proofs.Fields.Subclass
import ClassCode.Proofs.Checker.Order
import ClassCode.Proofs.Implementation.OwnParameters
import ClassCode.Proofs.Literal.Form
import ClassCode.Proofs.UndefinedTypes
