import SqpInequality.Constraint.Description
import SqpInequality.Fault.Message
import SqpInequality.Graph
import SqpInequality.Linear.Stacked
import SqpInequality.Proofs.Binary64.Sign
import SqpInequality.Proofs.Constraint.Distance
import SqpInequality.Proofs.Constraint.DoubleSum
import SqpInequality.Proofs.Constraint.Formula
import SqpInequality.Proofs.Constraint.InPlace
import SqpInequality.Proofs.Constraint.Quadratic
import SqpInequality.Proofs.Constraint.Refusal
import SqpInequality.Proofs.Constraint.Repeat
import SqpInequality.Proofs.Constraint.Symmetry
import SqpInequality.Proofs.Graph.Active
import SqpInequality.Proofs.Graph.Admission
import SqpInequality.Proofs.Graph.Append
import SqpInequality.Proofs.Graph.Export
import SqpInequality.Proofs.Graph.Failures
import SqpInequality.Proofs.Graph.FirstOrder
import SqpInequality.Proofs.Graph.Locality
import SqpInequality.Proofs.Graph.Looser
import SqpInequality.Proofs.Graph.Presence
import SqpInequality.Proofs.Graph.Record
import SqpInequality.Proofs.Graph.Rows
import SqpInequality.Proofs.Graph.ZeroStep
import SqpInequality.Proofs.Guarded.Constraint
import SqpInequality.Proofs.Key.Name
import SqpInequality.Proofs.Key.Symbol
import SqpInequality.Proofs.Kkt.Ending
import SqpInequality.Proofs.Kkt.FirstFailure
import SqpInequality.Proofs.Kkt.Violation
import SqpInequality.Proofs.Linear.Construction
import SqpInequality.Proofs.Linear.Misfit
import SqpInequality.Proofs.Linear.Product
import SqpInequality.Proofs.Linear.Stacked
import SqpInequality.Proofs.Linear.TermByTerm
import SqpInequality.Proofs.Linear.Table
import SqpInequality.Proofs.Point.History
import SqpInequality.Proofs.Point.Visiting
import SqpInequality.Proofs.VectorMap.History
