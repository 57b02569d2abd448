import Depgraph.Protocol.Rearrange
import Depgraph.Operation.ClaimSafety
import Depgraph.Operation.Reservation
import Depgraph.Operation.Exclusion
import Depgraph.Operation.Intent
import Depgraph.Worker.CompactStream
import Depgraph.Protocol.Rejected
import Depgraph.Protocol.SharedEvidence
import Depgraph.Protocol.CrossLanguageGraph
import Depgraph.Policy.BoundaryViolations
import Depgraph.Store.AnalysisAggregate
import Depgraph.Analysis.ExecutionRun
import Depgraph.Protocol.DeltaBaseAccepted
import Depgraph.ContractScan.ProtobufText
import Depgraph.ContractScan.ProtobufScopes
import Depgraph.Protocol.CoverageSums
import Depgraph.Protocol.ConditionEnvironment
import Depgraph.Analysis.Waves
import Depgraph.Analysis.StageCoverage
import Depgraph.Store.RenameAmbiguity
import Depgraph.Query.Cycles
import Depgraph.Impact.MappingExact
import Depgraph.Impact.Root
import Depgraph.Analysis.PackageOrder
import Depgraph.Health.RangedQueue
import Depgraph.Health.GoConditionsExact
import Depgraph.Store.ProfileMatrixStable
import Depgraph.Query.Paginate
import Depgraph.Policy.CombinedCondition
import Depgraph.Policy.Glob
import Depgraph.Query.Lex
import Depgraph.Query.Admission
