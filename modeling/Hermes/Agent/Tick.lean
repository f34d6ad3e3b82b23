import Hermes.Agent.GraphOperations
import Hermes.Agent.Lifecycle
import Hermes.Agent.Supervisor

/-! # The ticks of the supervisor

A tick goes through the running missions.
-/

namespace Hermes.Agent

open Lib

def ExecutionGraph.marquer (g : ExecutionGraph) (nodeId : String) (status : NodeStatus) :
    Option ExecutionGraph :=
  (g.nodes.get? nodeId).map fun node =>
    { g with
      nodes := g.nodes.set nodeId { node with status := status }
      cles := Dict.nodup_keys_set g.cles nodeId { node with status := status } }

/-- `all(...) if leaves else False`, over the leaves. -/
def ExecutionGraph.termine (g : ExecutionGraph) : Bool :=
  g.getLeaves ≠ [] ∧ g.getLeaves.all fun n => n.status = .completed

namespace Supervisor

open Lifecycle

/-- The supervisor with the manager of its agents. -/
structure Supervision where
  superviseur : MultiAgentSupervisor
  lifecycle : AgentLifecycleManager := {}
  runtimeSelector : Option (String → Option String) := none
  annonces : List (String × SupervisorEvent × String) := []

/-- What a call draws from outside: the order in which it goes through a set, the end of the id of
an agent, and the readings of the clock, by agent. -/
structure Alea where
  parcours : List String → List String
  perm : ∀ l, (parcours l).Perm l
  hex : String → String → String
  horloge : String → Nat → Rat

def parId (tasks : List PlannedTask) : Dict String PlannedTask :=
  tasks.foldl (fun d t => d.set t.id t) []

def Alea.identifiant (alea : Alea) (missionId nodeId : String) : String :=
  missionId ++ "__" ++ nodeId ++ "__" ++ alea.hex missionId nodeId

namespace Supervision

variable (s : Supervision)

def mission (missionId : String) : Option MissionInstance := s.superviseur.missions.get? missionId

def plan (missionId : String) : Option TaskPlanner.TaskPlan :=
  (s.mission missionId).bind MissionInstance.taskPlan

def graphe (missionId : String) : Option ExecutionGraph :=
  (s.plan missionId).map TaskPlanner.TaskPlan.executionGraph

def agent (agentId : String) : Option AgentInstance := s.lifecycle.agents.get? agentId

def agentsDe (missionId : String) : List String :=
  s.superviseur.missionAgents.getD missionId []

def emit (event : SupervisorEvent) (missionId : String) : Supervision :=
  { s with superviseur := s.superviseur.emit event missionId }

def enregistrer (missionId : String) (mission : MissionInstance) : Supervision :=
  { s with superviseur := s.superviseur.enregistrer missionId mission }

/-- `graph._nodes[node_id] = ...` on the graph of the mission. -/
def marquer (missionId nodeId : String) (status : NodeStatus) : Option Supervision :=
  match s.mission missionId with
  | none => none
  | some mission =>
      match mission.taskPlan with
      | none => none
      | some plan =>
          (plan.executionGraph.marquer nodeId status).map fun graph =>
            s.enregistrer missionId
              { mission with taskPlan := some { plan with executionGraph := graph } }

def annoncer (missionId agentId taskId : String) (status : NodeStatus) (event : SupervisorEvent) :
    Supervision :=
  match s.marquer missionId taskId status with
  | none => s
  | some s' =>
      { s'.emit event missionId with annonces := s.annonces ++ [(agentId, event, missionId)] }

def releverAgent (missionId : String) (s : Supervision) (agentId : String) : Supervision :=
  match s.agent agentId with
  | none => s
  | some agent =>
      if agent.context.taskId = "" then s
      else
        match agent.state with
        | .completed =>
            s.annoncer missionId agentId agent.context.taskId .completed .agentCompleted
        | .failed => s.annoncer missionId agentId agent.context.taskId .failed .agentFailed
        | _ => s

def relever (alea : Alea) (missionId : String) : Supervision :=
  (alea.parcours (s.agentsDe missionId)).foldl (releverAgent missionId) s

def predecesseursFaits (graph : ExecutionGraph) (gPlan : GraphExecutionPlan) (nodeId : String) :
    Bool :=
  (gPlan.dependencies.getD nodeId []).all fun dep =>
    match graph.nodes.get? dep with
    | none => false
    | some node => node.status = .completed

def contexte (alea : Alea) (missionId : String) (task : PlannedTask) (nodeId : String) :
    AgentContext where
  id := alea.identifiant missionId nodeId
  missionId := missionId
  taskId := nodeId
  runtimeCapability := task.runtimeCapability
  assignedRuntime := s.runtimeSelector.bind fun select => select task.runtimeCapability

/-- The agent is created, registered and started, and its node marked. -/
def creerAgent (alea : Alea) (missionId : String) (task : PlannedTask) (nodeId : String) :
    Supervision :=
  let agentId := alea.identifiant missionId nodeId
  match s.lifecycle.createAgent (s.contexte alea missionId task nodeId) (alea.horloge agentId 0)
      (alea.horloge agentId 1) with
  | (lifecycle, .error _) => { s with lifecycle := lifecycle }
  | (lifecycle, .ok agent) =>
      match s.superviseur.missionAgents.get? missionId with
      | none => { s with lifecycle := lifecycle }
      | some agents =>
          let superviseur := { s.superviseur with
            missionAgents := s.superviseur.missionAgents.set missionId (agents.insert agent.id) }
          match lifecycle.startAgent agent.id (alea.horloge agentId 2) with
          | (lifecycle, .error _) => { s with superviseur := superviseur, lifecycle := lifecycle }
          | (lifecycle, .ok _) =>
              let s' := { s with superviseur := superviseur, lifecycle := lifecycle }
              match s'.marquer missionId nodeId .running with
              | none => s'
              | some s'' => (s''.emit .agentCreated missionId).emit .taskReady missionId

def lancerTache (alea : Alea) (tasks : Dict String PlannedTask) (gPlan : GraphExecutionPlan)
    (missionId : String) (s : Supervision) (nodeId : String) : Supervision :=
  match s.graphe missionId with
  | none => s
  | some graph =>
      match graph.nodes.get? nodeId with
      | none => s
      | some node =>
          if node.status ≠ .pending then s
          else if predecesseursFaits graph gPlan nodeId then
            match tasks.get? nodeId with
            | none => s
            | some task => s.creerAgent alea missionId task nodeId
          else s

def lancer (alea : Alea) (tasks : Dict String PlannedTask) (gPlan : GraphExecutionPlan)
    (missionId : String) : Supervision :=
  (gPlan.levels.flatMap alea.parcours).foldl (lancerTache alea tasks gPlan missionId) s

def tickMission (alea : Alea) (missionId : String) : Supervision × Except Echec Bool :=
  match s.mission missionId with
  | none => (s, .error (.introuvable missionId))
  | some mission =>
      match mission.taskPlan with
      | none => (s, .ok false)
      | some plan =>
          let s' := s.relever alea missionId
          -- the same object, as the marks left it
          let graph := (s'.graphe missionId).getD plan.executionGraph
          match graph.generatePlan with
          | .error _ => (s', .ok true)
          | .ok gPlan =>
              if graph.getRoots.length = 0 ∧ graph.getLeaves.length = 0 ∧ graph.nodes.length = 0 then
                (s', .ok false)
              else if graph.termine then
                match s'.superviseur.transitionMission missionId .completed with
                | (superviseur, .error e) => ({ s' with superviseur := superviseur }, .error e)
                | (superviseur, .ok _) =>
                    ({ s' with superviseur := superviseur }.emit .graphCompleted missionId, .ok true)
              else (s'.lancer alea (parId plan.tasks) gPlan missionId, .ok true)

/-- The missions are those of the start of the tick, with their states of then. -/
def tickMissions (alea : Alea) :
    List (String × MissionInstance) → List String → Supervision →
      Supervision × Except Echec (List String)
  | [], changed, s => (s, .ok changed)
  | (missionId, mission) :: missions, changed, s =>
      if mission.state = .running then
        match s.tickMission alea missionId with
        | (s', .error e) => (s', .error e)
        | (s', .ok true) => tickMissions alea missions (changed ++ [missionId]) s'
        | (s', .ok false) => tickMissions alea missions changed s'
      else tickMissions alea missions changed s

def tick (alea : Alea) : Supervision × Except Echec (List String) :=
  tickMissions alea s.superviseur.missions [] s

def createMission (context : MissionContext) (tasks : List PlannedTask) :
    Supervision × Except Echec MissionInstance :=
  ((s.superviseur.createMission context tasks).map
    (fun superviseur => { s with superviseur := superviseur }) id)

def startMission (missionId : String) : Supervision × Except Echec MissionInstance :=
  (s.superviseur.transitionMission missionId .running).map
    (fun superviseur => { s with superviseur := superviseur }) id

/-- A transition of the mission, then a call for each of its agents; what the calls raise is passed
over. -/
def changerMission (alea : Alea) (missionId : String) (target : MissionState)
    (agir : AgentLifecycleManager → String → AgentLifecycleManager) :
    Supervision × Except Echec MissionInstance :=
  match s.superviseur.transitionMission missionId target with
  | (superviseur, .error e) => ({ s with superviseur := superviseur }, .error e)
  | (superviseur, .ok mission) =>
      ({ s with
        superviseur := superviseur
        lifecycle := (alea.parcours (superviseur.missionAgents.getD missionId [])).foldl agir
          s.lifecycle }, .ok mission)

def pauseMission (alea : Alea) (missionId : String) : Supervision × Except Echec MissionInstance :=
  s.changerMission alea missionId .paused fun lifecycle agentId =>
    match lifecycle.agents.get? agentId with
    | none => lifecycle
    | some agent =>
        if agent.state = .running then
          (lifecycle.pauseAgent agentId (alea.horloge agentId 0)).1
        else lifecycle

def resumeMission (alea : Alea) (missionId : String) :
    Supervision × Except Echec MissionInstance :=
  s.changerMission alea missionId .running fun lifecycle agentId =>
    match lifecycle.agents.get? agentId with
    | none => lifecycle
    | some agent =>
        if agent.state = .paused then
          (lifecycle.resumeAgent agentId (alea.horloge agentId 0)).1
        else lifecycle

def cancelMission (alea : Alea) (missionId : String) :
    Supervision × Except Echec MissionInstance :=
  s.changerMission alea missionId .cancelled fun lifecycle agentId =>
    (lifecycle.cancelAgent agentId (alea.horloge agentId 0)).1

end Supervision

end Supervisor

end Hermes.Agent
