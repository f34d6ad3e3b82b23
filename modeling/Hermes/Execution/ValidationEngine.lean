import Hermes.Lib.Dict
import Hermes.Execution.Models

/-! # The judgement on a finished task

The criteria of the task are read in order and the first one that decides wins. When none
decides, the presence of a result and of errors does.
-/

namespace Hermes.Execution

open Lib

structure ValidationEngine where
  criteria : Dict String (List String) := []
  deriving DecidableEq

namespace ValidationEngine

def MAX_RETAINED_VALIDATIONS : Nat := 2000

def setCriteria (v : ValidationEngine) (taskId : String) (criteria : List String) :
    ValidationEngine :=
  { criteria := (v.criteria.setLast taskId criteria).keepLast MAX_RETAINED_VALIDATIONS }

def verdictDesCriteres (result : Option String) (errors : List String) :
    List String → Option ValidationOutcome
  | [] => none
  | c :: criteria =>
      if c = "result_present" ∧ result = none then some .fail
      else if c = "no_errors" ∧ errors ≠ [] then some .fail
      else if c = "needs_human_review" ∧ result ≠ none then some .needsReview
      else verdictDesCriteres result errors criteria

def evaluate (result : Option String) (errors : List String) (criteria : List String) :
    ValidationOutcome :=
  match verdictDesCriteres result errors criteria with
  | some verdict => verdict
  | none =>
      match result, errors with
      | some _, [] => .pass
      | some _, _ :: _ => .retry
      | none, [] => .needsReview
      | none, _ :: _ => .fail

def criteresDe (v : ValidationEngine) (taskId : String) : List String :=
  v.criteria.getD taskId ["result_present"]

def validate (v : ValidationEngine) (task : TaskExecution) : ValidationOutcome :=
  evaluate task.result task.errors (v.criteresDe task.taskId)

end ValidationEngine

end Hermes.Execution
