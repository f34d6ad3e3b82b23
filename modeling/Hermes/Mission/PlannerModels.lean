import Hermes.Lib.Dict

/-! # The records of the planner -/

namespace Hermes.Planner

inductive TaskCategory where
  | analysis
  | design
  | implementation
  | testing
  | documentation
  | deployment
  | review
  | planning
  | integration
  | optimization
  | security
  | custom
  deriving DecidableEq

def TaskCategory.value : TaskCategory → String
  | .analysis => "analysis"
  | .design => "design"
  | .implementation => "implementation"
  | .testing => "testing"
  | .documentation => "documentation"
  | .deployment => "deployment"
  | .review => "review"
  | .planning => "planning"
  | .integration => "integration"
  | .optimization => "optimization"
  | .security => "security"
  | .custom => "custom"

def TaskCategory.toutes : List TaskCategory :=
  [.analysis, .design, .implementation, .testing, .documentation, .deployment, .review, .planning,
    .integration, .optimization, .security, .custom]

structure TaskBreakdown where
  taskId : String
  title : String
  description : String
  category : TaskCategory := .custom
  dependsOn : List String := []
  expectedOutputs : List String := []
  order : Int := 0
  canParallelize : Bool := true
  deriving DecidableEq

structure PlanningRequest where
  userRequest : String
  objective : String
  specification : String
  githubIssue : String
  deriving DecidableEq

/-- The level is asked of `MissionPriority`, which refuses any other text. -/
structure ComplexityEstimate where
  suggestedPriority : String := "normal"
  deriving DecidableEq

structure ValidationReport where
  issues : List String := []
  totalChecks : Nat := 0
  failedChecks : Nat := 0
  deriving DecidableEq

/-- The part of a result that the checks of the graph and the construction of a mission read. -/
structure PlanningResult where
  taskBreakdowns : List TaskBreakdown
  dependencyGraph : Lib.Dict String (List String)
  complexityEstimates : Lib.Dict String ComplexityEstimate := []
  cles : dependencyGraph.keys.Nodup

end Hermes.Planner
