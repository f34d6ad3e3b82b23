import Hermes.Agent.TaskPlanner

/-! # The creation of a supervised mission

A mission is registered, planned, and left ready with its plan or failed.
-/

namespace Hermes.Agent.Supervisor

open Lib
open TaskPlanner

inductive MissionState where
  | created
  | planning
  | ready
  | running
  | paused
  | completed
  | failed
  | cancelled
  deriving DecidableEq

inductive SupervisorEvent where
  | missionCreated
  | missionStarted
  | missionPaused
  | missionResumed
  | missionCompleted
  | missionFailed
  | missionCancelled
  | agentCreated
  | agentCompleted
  | agentFailed
  | taskReady
  | graphCompleted
  deriving DecidableEq

structure MissionContext where
  missionId : String
  title : String := ""
  objective : String := ""
  priority : Int := 5
  deriving DecidableEq

structure MissionInstance where
  context : MissionContext
  state : MissionState
  taskPlan : Option TaskPlan := none
  agents : List String := []
  planningError : Option (List ErreurDePlan) := none

inductive Echec where
  | existe (missionId : String)
  | introuvable (missionId : String)
  | transition (current target : MissionState)
  | graphe (e : GraphException)
  deriving DecidableEq

structure MultiAgentSupervisor where
  strategy : PlanningStrategy
  availableCapabilities : Option (List String) := none
  missions : Dict String MissionInstance := []
  missionAgents : Dict String (List String) := []
  evenements : List (SupervisorEvent × String) := []

def MISSION_TRANSITIONS : MissionState → List MissionState
  | .created => [.planning, .cancelled]
  | .planning => [.ready, .failed, .cancelled]
  | .ready => [.running, .cancelled]
  | .running => [.paused, .completed, .failed, .cancelled]
  | .paused => [.running, .cancelled, .failed]
  | .completed => []
  | .failed => []
  | .cancelled => []

def MISSION_EVENTS : MissionState → Option SupervisorEvent
  | .created => none
  | .planning => some .missionCreated
  | .ready => some .missionCreated
  | .running => some .missionStarted
  | .paused => some .missionPaused
  | .completed => some .missionCompleted
  | .failed => some .missionFailed
  | .cancelled => some .missionCancelled

namespace MultiAgentSupervisor

variable (s : MultiAgentSupervisor)

def emit (event : SupervisorEvent) (missionId : String) : MultiAgentSupervisor :=
  { s with evenements := s.evenements ++ [(event, missionId)] }

def enregistrer (missionId : String) (mission : MissionInstance) : MultiAgentSupervisor :=
  { s with missions := s.missions.set missionId mission }

def transitionMission (missionId : String) (target : MissionState) :
    MultiAgentSupervisor × Except Echec MissionInstance :=
  match s.missions.get? missionId with
  | none => (s, .error (.introuvable missionId))
  | some mission =>
      if target ∉ MISSION_TRANSITIONS mission.state then
        (s, .error (.transition mission.state target))
      else
        let updated := { mission with state := target }
        let s' := s.enregistrer missionId updated
        match MISSION_EVENTS target with
        | some event => (s'.emit event missionId, .ok updated)
        | none => (s', .ok updated)

/-- The mission as it is registered, before anything is planned. -/
def inscrire (context : MissionContext) : MultiAgentSupervisor :=
  let s' := s.enregistrer context.missionId { context := context, state := .created }
  { s' with missionAgents := s'.missionAgents.set context.missionId [] }.emit .missionCreated
    context.missionId

def taskMission (context : MissionContext) : TaskMission where
  id := context.missionId
  title := context.title
  description := context.objective
  objective := context.objective
  priority := context.priority

def createMission (context : MissionContext) (tasks : List PlannedTask) :
    MultiAgentSupervisor × Except Echec MissionInstance :=
  if context.missionId ∈ s.missions.keys then (s, .error (.existe context.missionId))
  else
    match (s.inscrire context).transitionMission context.missionId .planning with
    | (s₁, .error e) => (s₁, .error e)
    | (s₁, .ok mission) =>
        match createPlan s₁.strategy s₁.availableCapabilities (taskMission context) tasks with
        | .error (.planning erreurs) =>
            match s₁.transitionMission context.missionId .failed with
            | (s₂, .error e) => (s₂, .error e)
            | (s₂, .ok mission) => (s₂, .ok { mission with planningError := some erreurs })
        -- not a PlanningError: it goes through to the caller
        | .error (.graphe e) => (s₁, .error (.graphe e))
        | .ok plan =>
            (s₁.enregistrer context.missionId { mission with taskPlan := some plan })
              |>.transitionMission context.missionId .ready

variable {s} {missionId : String} {mission : MissionInstance} {target : MissionState}

theorem transitionMission_ok (hget : s.missions.get? missionId = some mission)
    (htarget : target ∈ MISSION_TRANSITIONS mission.state) :
    ∃ s', s.transitionMission missionId target = (s', .ok { mission with state := target }) ∧
      s'.missions = s.missions.set missionId { mission with state := target } ∧
      s'.strategy = s.strategy ∧ s'.availableCapabilities = s.availableCapabilities := by
  unfold transitionMission
  simp only [hget, htarget, not_true_eq_false, if_false]
  cases MISSION_EVENTS target with
  | none => exact ⟨_, rfl, rfl, rfl, rfl⟩
  | some event => exact ⟨_, rfl, rfl, rfl, rfl⟩

theorem inscrire_get? (s : MultiAgentSupervisor) (context : MissionContext) :
    (s.inscrire context).missions.get? context.missionId
      = some { context := context, state := .created } := by
  rw [inscrire, enregistrer]
  exact Dict.get?_set_self _ _ _

theorem inscrire_planning (s : MultiAgentSupervisor) (context : MissionContext) :
    ∃ s₁, (s.inscrire context).transitionMission context.missionId .planning
        = (s₁, .ok { context := context, state := .planning }) ∧
      s₁.missions.get? context.missionId = some { context := context, state := .planning } ∧
      s₁.strategy = s.strategy ∧ s₁.availableCapabilities = s.availableCapabilities := by
  obtain ⟨s₁, hstep, hmissions, hstrategy, hcapabilities⟩ :=
    @transitionMission_ok _ _ _ .planning (inscrire_get? s context)
      (by simp [MISSION_TRANSITIONS])
  refine ⟨s₁, hstep, ?_, hstrategy, hcapabilities⟩
  rw [hmissions, Dict.get?_set_self]

/-- What the call returns or raises, and the mission it leaves stored. -/
def Issue (s : MultiAgentSupervisor) (context : MissionContext) (tasks : List PlannedTask)
    (retour : Except Echec MissionInstance) (stored : MissionInstance) : Prop :=
  (s.createMission context tasks).2 = retour ∧
    (s.createMission context tasks).1.missions.get? context.missionId = some stored

variable {context : MissionContext} {tasks : List PlannedTask}

theorem issue_of_plan {plan : TaskPlan} (hfresh : context.missionId ∉ s.missions.keys)
    (hplan : createPlan s.strategy s.availableCapabilities (taskMission context) tasks = .ok plan) :
    Issue s context tasks
      (.ok { context := context, state := .ready, taskPlan := some plan })
      { context := context, state := .ready, taskPlan := some plan } := by
  obtain ⟨s₁, hstep, -, hstrategy, hcapabilities⟩ := inscrire_planning s context
  have hset : (s₁.enregistrer context.missionId
      { context := context, state := .planning, taskPlan := some plan }).missions.get?
        context.missionId = some { context := context, state := .planning, taskPlan := some plan } :=
    Dict.get?_set_self _ _ _
  obtain ⟨s₂, hready, hmissions, -⟩ := @transitionMission_ok _ _ _ .ready hset
    (by simp [MISSION_TRANSITIONS])
  have hcall : s.createMission context tasks
      = (s₂, .ok { context := context, state := .ready, taskPlan := some plan }) := by
    simp only [createMission, hfresh, if_false, hstep, hstrategy, hcapabilities, hplan]
    exact hready
  rw [Issue, hcall]
  refine ⟨rfl, ?_⟩
  rw [hmissions, Dict.get?_set_self]

theorem issue_of_refus {erreurs : List ErreurDePlan}
    (hfresh : context.missionId ∉ s.missions.keys)
    (hplan : createPlan s.strategy s.availableCapabilities (taskMission context) tasks
      = .error (.planning erreurs)) :
    Issue s context tasks
      (.ok { context := context, state := .failed, planningError := some erreurs })
      { context := context, state := .failed } := by
  obtain ⟨s₁, hstep, hget, hstrategy, hcapabilities⟩ := inscrire_planning s context
  obtain ⟨s₂, hfailed, hmissions, -⟩ := @transitionMission_ok _ _ _ .failed hget
    (by simp [MISSION_TRANSITIONS])
  have hcall : s.createMission context tasks
      = (s₂, .ok { context := context, state := .failed, planningError := some erreurs }) := by
    simp only [createMission, hfresh, if_false, hstep, hstrategy, hcapabilities, hplan, hfailed]
  rw [Issue, hcall]
  refine ⟨rfl, ?_⟩
  rw [hmissions, Dict.get?_set_self]

theorem issue_of_graphe {e : GraphException} (hfresh : context.missionId ∉ s.missions.keys)
    (hplan : createPlan s.strategy s.availableCapabilities (taskMission context) tasks
      = .error (.graphe e)) :
    Issue s context tasks (.error (.graphe e)) { context := context, state := .planning } := by
  obtain ⟨s₁, hstep, hget, hstrategy, hcapabilities⟩ := inscrire_planning s context
  have hcall : s.createMission context tasks = (s₁, .error (.graphe e)) := by
    simp only [createMission, hfresh, if_false, hstep, hstrategy, hcapabilities, hplan]
  rw [Issue, hcall]
  exact ⟨rfl, hget⟩

/-- The creation ends as documented: a mission is returned, and is stored ready with a plan or
failed. -/
def Aboutit (s : MultiAgentSupervisor) (context : MissionContext) (tasks : List PlannedTask) :
    Prop :=
  ∃ mission stored, Issue s context tasks (.ok mission) stored ∧
    ((stored.state = .ready ∧ stored.taskPlan.isSome = true) ∨ stored.state = .failed)

theorem aboutit_iff_plan (hfresh : context.missionId ∉ s.missions.keys) :
    Aboutit s context tasks ↔
      ∀ e, createPlan s.strategy s.availableCapabilities (taskMission context) tasks
        ≠ .error (.graphe e) := by
  constructor
  · intro h e hplan
    obtain ⟨mission, stored, hissue, -⟩ := h
    have hraise := (issue_of_graphe hfresh hplan).1
    rw [hissue.1] at hraise
    cases hraise
  · intro h
    cases hplan : createPlan s.strategy s.availableCapabilities (taskMission context) tasks with
    | ok plan => exact ⟨_, _, issue_of_plan hfresh hplan, .inl ⟨rfl, rfl⟩⟩
    | error e =>
        cases e with
        | planning erreurs => exact ⟨_, _, issue_of_refus hfresh hplan, .inr rfl⟩
        | graphe e => exact absurd hplan (h e)

/-- The creation ends as documented on a list the validator refuses, under the strategies that link
every task to another one, and on a list where they are already linked, or not one of them is. -/
theorem aboutit_iff (hfresh : context.missionId ∉ s.missions.keys) :
    Aboutit s context tasks ↔
      PlanningValidator.validatePlan tasks s.availableCapabilities ≠ [] ∨
        s.strategy = .sequential ∨ s.strategy = .conservative ∨ SansOrphelin tasks := by
  rw [aboutit_iff_plan hfresh]
  by_cases hvalid : PlanningValidator.validatePlan tasks s.availableCapabilities = []
  · have hnodup : (ids tasks).Nodup := by
      have hbase : PlanningValidator.validatePlan tasks none = [] := by
        simp only [PlanningValidator.validatePlan, List.append_eq_nil_iff] at hvalid ⊢
        exact ⟨hvalid.1, rfl⟩
      exact (validatePlan_eq_nil_iff.mp hbase).1
    rw [← not_exists_not]
    simp only [not_not, createPlan_graphe_iff, hvalid, true_and, not_not, ne_eq, not_true_eq_false,
      false_or]
    exact sansOrphelin_applyStrategy_iff hnodup s.strategy
  · refine ⟨fun _ => .inl hvalid, fun _ e hplan => ?_⟩
    exact hvalid (createPlan_graphe_iff.mp ⟨e, hplan⟩).1

def tacheIsolee : List PlannedTask :=
  [{ id := "a", title := "Schema" }, { id := "b", title := "API", dependencies := ["a"] },
    { id := "c", title := "README" }]

def balance : MultiAgentSupervisor := { strategy := .balanced }

theorem aboutit_iff_balance :
    "m1" ∉ balance.missions.keys ∧
      (Aboutit balance { missionId := "m1" } tacheIsolee ↔
        PlanningValidator.validatePlan tacheIsolee none ≠ [] ∨
          balance.strategy = .sequential ∨ balance.strategy = .conservative ∨
            SansOrphelin tacheIsolee) :=
  ⟨by decide, aboutit_iff (by decide)⟩

/-- The mission of a valid list is left in planning. -/
theorem tacheIsolee_n_aboutit_pas :
    ¬ (∀ (s : MultiAgentSupervisor) (context : MissionContext) (tasks : List PlannedTask),
      context.missionId ∉ s.missions.keys → Aboutit s context tasks) := by
  intro h
  obtain ⟨mission, stored, hissue, -⟩ := h balance { missionId := "m1" } tacheIsolee (by decide)
  have hraise : (balance.createMission { missionId := "m1" } tacheIsolee).2.toBool = false := by
    decide +kernel
  rw [hissue.1] at hraise
  cases hraise

end MultiAgentSupervisor

end Hermes.Agent.Supervisor
