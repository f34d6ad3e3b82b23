import Hermes.Lib.Dict
import Hermes.Execution.Models

/-! # Who does a task

The coordinator counts the tasks each registered agent carries: an assignment adds one to the
agent it chose, a release takes one back from the agent of the task's last assignment.
-/

namespace Hermes.Execution

open Lib

structure Selection where
  agentId : String
  runtimeId : String
  skillIds : List String := []
  toolIds : List String := []
  deriving DecidableEq

structure AgentAssignment where
  taskId : String
  agentId : String
  runtimeId : String
  skillIds : List String
  toolIds : List String
  deriving DecidableEq

structure AgentCoordinator where
  agentLoads : Dict String Nat := []
  assignments : Dict String AgentAssignment := []
  deriving DecidableEq

namespace AgentCoordinator

def MAX_RETAINED_ASSIGNMENTS : Nat := 2000

def registerAgent (c : AgentCoordinator) (agentId : String) : AgentCoordinator :=
  { c with agentLoads := c.agentLoads.setDefault agentId 0 }

def getAgentLoad (c : AgentCoordinator) (agentId : String) : Nat := c.agentLoads.getD agentId 0

def getAssignment (c : AgentCoordinator) (taskId : String) : Option AgentAssignment :=
  c.assignments.get? taskId

def changerCharge (loads : Dict String Nat) (agentId : String) (f : Nat → Nat) :
    Dict String Nat :=
  match loads.get? agentId with
  | none => loads
  | some n => loads.set agentId (f n)

def assign (c : AgentCoordinator) (task : TaskExecution) (choix : Selection) :
    AgentCoordinator × AgentAssignment :=
  let assignment : AgentAssignment :=
    { taskId := task.taskId, agentId := choix.agentId, runtimeId := choix.runtimeId
      skillIds := choix.skillIds, toolIds := choix.toolIds }
  ({ agentLoads := changerCharge c.agentLoads choix.agentId (· + 1)
     assignments :=
       (c.assignments.setLast task.taskId assignment).keepLast MAX_RETAINED_ASSIGNMENTS },
    assignment)

def releaseAgent (c : AgentCoordinator) (taskId : String) : AgentCoordinator :=
  match c.getAssignment taskId with
  | none => c
  | some assignment =>
      { c with agentLoads := changerCharge c.agentLoads assignment.agentId (· - 1) }

theorem get?_changerCharge (loads : Dict String Nat) (agentId : String) (f : Nat → Nat)
    (a : String) :
    (changerCharge loads agentId f).get? a =
      if a = agentId then (loads.get? a).map f else loads.get? a := by
  unfold changerCharge
  split
  · next hnone =>
      split
      · next ha =>
          rw [ha, hnone]
          rfl
      · rfl
  · next n hsome =>
      rw [Dict.get?_set]
      split
      · next ha =>
          rw [ha, hsome]
          rfl
      · rfl

theorem getAssignment_assign (c : AgentCoordinator) (task : TaskExecution) (choix : Selection) :
    (c.assign task choix).1.getAssignment task.taskId = some (c.assign task choix).2 := by
  have hcap : 0 < MAX_RETAINED_ASSIGNMENTS := by decide
  simp only [assign, getAssignment, Dict.get?_keepLast_setLast _ _ _ hcap]

theorem getAgentLoad_releaseAgent_assign (c : AgentCoordinator) (task : TaskExecution)
    (choix : Selection) (a : String) :
    ((c.assign task choix).1.releaseAgent task.taskId).getAgentLoad a = c.getAgentLoad a := by
  have hread : (changerCharge (changerCharge c.agentLoads choix.agentId (· + 1)) choix.agentId
      (· - 1)).get? a = c.agentLoads.get? a := by
    rw [get?_changerCharge, get?_changerCharge]
    split
    · cases c.agentLoads.get? a <;> rfl
    · rfl
  unfold releaseAgent
  rw [getAssignment_assign]
  show ((changerCharge _ _ _).get? a).getD 0 = (c.agentLoads.get? a).getD 0
  exact congrArg (Option.getD · 0) hread

end AgentCoordinator

end Hermes.Execution
