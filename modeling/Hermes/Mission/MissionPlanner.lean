import Hermes.Mission.DependencyBuilder
import Hermes.Mission.StepRefinement
import Hermes.Mission.ValidationEngine

/-! # From a plan to a mission

`build_mission` makes a node of each task and an edge of each dependency, and hands them to the
graph executor.
-/

namespace Hermes.Planner

open Lib (Dict)
open Lib.Kahn (Acyclique)
open MissionGraph (BienFormee)

inductive MissionPriority where
  | critical
  | high
  | normal
  | background
  deriving DecidableEq

/-- `MissionPriority(value)`: nothing on another text, where the source raises. -/
def MissionPriority.lire (value : String) : Option MissionPriority :=
  if value = "critical" then some .critical
  else if value = "high" then some .high
  else if value = "normal" then some .normal
  else if value = "background" then some .background
  else none

namespace MissionPlanner

/-- The priority of the node of a task: the one of its estimate, else a normal one. -/
def priorite (result : PlanningResult) (bd : TaskBreakdown) : Option MissionPriority :=
  MissionPriority.lire
    (match result.complexityEstimates.get? bd.taskId with
    | some est => est.suggestedPriority
    | none => "normal")

def noeud (result : PlanningResult) (bd : TaskBreakdown) : Option MissionNode :=
  (priorite result bd).map fun _ =>
    { MissionNode.neuf bd.taskId bd.title with dependsOn := bd.dependsOn }

def aretes (result : PlanningResult) : List MissionEdge :=
  result.dependencyGraph.flatMap fun entry =>
    entry.2.map fun depId => { sourceId := depId, targetId := entry.1 }

/-- The registration with the graph executor: the mission and `metadata["graph_issues"]`. -/
def inscrire (mission : Mission) (nodes : List MissionNode) (edges : List MissionEdge) :
    Mission × List String :=
  let (built, issues) := GraphExecutor.buildGraph mission nodes edges
  if issues = [] then (built, []) else ({ built with status := .failed }, issues)

def buildMission (graphExecutor : Bool) (missionId : String) (result : PlanningResult)
    (title objective : String) : Option (Mission × List String) :=
  let mission :=
    { Mission.neuve missionId (if title = "" then "Planned Mission" else title) with
      objective := if objective = "" then "Automatically planned mission" else objective }
  (result.taskBreakdowns.mapM (noeud result)).map fun nodes =>
    if graphExecutor then inscrire mission nodes (aretes result) else (mission, [])

/-- A mission is built, and `validate_graph` has nothing to say about its graph. -/
def Acceptee (construite : Option (Mission × List String)) : Prop :=
  ∃ mission, construite.map Prod.fst = some mission ∧ (MissionGraph.validateGraph mission).2 = []

variable {result : PlanningResult} {missionId title objective : String}

theorem nodeIds_of_mapM {tasks : List TaskBreakdown} {nodes : List MissionNode}
    (h : tasks.mapM (noeud result) = some nodes) :
    nodes.map MissionNode.nodeId = DependencyBuilder.identifiants tasks := by
  induction tasks generalizing nodes with
  | nil =>
      cases h
      rfl
  | cons bd tasks ih =>
      rw [List.mapM_cons, Option.bind_eq_bind, Option.bind_eq_some_iff] at h
      obtain ⟨node, hnode, h⟩ := h
      rw [Option.bind_eq_bind, Option.bind_eq_some_iff] at h
      obtain ⟨suite, hsuite, h⟩ := h
      cases h
      obtain ⟨priority, -, rfl⟩ := Option.map_eq_some_iff.mp hnode
      rw [List.map_cons, ih hsuite]
      rfl

theorem mapM_noeud_isSome {tasks : List TaskBreakdown} :
    (tasks.mapM (noeud result)).isSome ↔ ∀ bd ∈ tasks, (priorite result bd).isSome := by
  induction tasks with
  | nil => simp
  | cons bd tasks ih =>
      rw [List.mapM_cons, List.forall_mem_cons, ← ih, noeud]
      cases priorite result bd with
      | none => simp
      | some priority =>
          cases tasks.mapM (noeud result) with
          | none => simp
          | some nodes => simp

theorem arcs_aretes {m : Mission} (h : m.edges = aretes result) :
    m.arcs = DependencyBuilder.arcs result.dependencyGraph := by
  rw [Mission.arcs, h, aretes, DependencyBuilder.arcs, List.map_flatMap]
  refine List.flatMap_congr fun entry _ => ?_
  rw [List.map_map]
  rfl

theorem issues_status (m : Mission) (status : MissionStatus) :
    MissionGraph.issues { m with status := status } = MissionGraph.issues m := rfl

theorem bienFormee_construire {m : Mission} {nodes : List MissionNode}
    (hnodes : nodes.map MissionNode.nodeId =
      DependencyBuilder.identifiants result.taskBreakdowns)
    (hconnus : ∀ e ∈ DependencyBuilder.arcs result.dependencyGraph,
      e.1 ∈ DependencyBuilder.identifiants result.taskBreakdowns ∧
        e.2 ∈ DependencyBuilder.identifiants result.taskBreakdowns)
    (hacyclique : Acyclique (DependencyBuilder.arcs result.dependencyGraph)) :
    BienFormee (GraphExecutor.construire m nodes (aretes result)) ↔
      (DependencyBuilder.identifiants result.taskBreakdowns).Nodup := by
  have hids : (GraphExecutor.construire m nodes (aretes result)).nodeIds =
      DependencyBuilder.identifiants result.taskBreakdowns := by
    rw [← hnodes, Mission.nodeIds]
    simp only [GraphExecutor.construire, MissionGraph.buildGraph, List.map_map]
    rfl
  have harcs : (GraphExecutor.construire m nodes (aretes result)).arcs =
      DependencyBuilder.arcs result.dependencyGraph := arcs_aretes rfl
  constructor
  · intro h
    rw [← hids]
    exact h.nodup
  · intro h
    refine ⟨?_, ?_, ?_⟩
    · rw [hids]
      exact h
    · rw [harcs, hids]
      exact hconnus
    · rw [harcs]
      exact hacyclique

theorem inscrire_issues (m : Mission) (nodes : List MissionNode) (edges : List MissionEdge) :
    MissionGraph.issues (inscrire m nodes edges).1 =
      MissionGraph.issues (GraphExecutor.construire m nodes edges) := by
  have hstatus := congrArg MissionGraph.issues
    (buildGraph_with_status m nodes edges .failed)
  rw [issues_status, issues_status] at hstatus
  by_cases hissues : (GraphExecutor.buildGraph m nodes edges).2 = []
  · simp only [inscrire, hissues, if_true]
    exact hstatus
  · simp only [inscrire, hissues, if_false]
    exact hstatus

theorem acceptee_iff
    (hconnus : ∀ e ∈ DependencyBuilder.arcs result.dependencyGraph,
      e.1 ∈ DependencyBuilder.identifiants result.taskBreakdowns ∧
        e.2 ∈ DependencyBuilder.identifiants result.taskBreakdowns)
    (hacyclique : Acyclique (DependencyBuilder.arcs result.dependencyGraph))
    (graphExecutor : Bool) (missionId title objective : String) :
    Acceptee (buildMission graphExecutor missionId result title objective) ↔
      (∀ bd ∈ result.taskBreakdowns, (priorite result bd).isSome) ∧
        (graphExecutor = true → (DependencyBuilder.identifiants result.taskBreakdowns).Nodup) := by
  rw [← mapM_noeud_isSome]
  unfold Acceptee buildMission
  cases hnodes : result.taskBreakdowns.mapM (noeud result) with
  | none => simp
  | some nodes =>
      simp only [Option.map_some, Option.some.injEq, exists_eq_left', Option.isSome_some, true_and,
        MissionGraph.validateGraph_snd]
      cases graphExecutor with
      | false =>
          simp only [Bool.false_eq_true, if_false, false_implies, iff_true]
          rfl
      | true =>
          simp only [if_true, true_implies]
          rw [inscrire_issues, MissionGraph.issues_eq_nil_iff_bienFormee]
          exact bienFormee_construire (nodeIds_of_mapM hnodes) hconnus hacyclique

/-- The two checks of the graph report no issue. -/
def SansReproche (limite : Nat) (result : PlanningResult) (report : ValidationReport) : Prop :=
  (ValidationEngine.checkDependencies result report).issues = report.issues ∧
    (ValidationEngine.checkCycles limite result report).map ValidationReport.issues =
      some report.issues

variable {limite : Nat} {report : ValidationReport}

theorem SansReproche.connus (h : SansReproche limite result report) :
    ∀ e ∈ DependencyBuilder.arcs result.dependencyGraph,
      e.1 ∈ DependencyBuilder.identifiants result.taskBreakdowns ∧
        e.2 ∈ DependencyBuilder.identifiants result.taskBreakdowns := by
  have hentrees := ValidationEngine.inconnue_eq_none.mp (ValidationEngine.noter_issues.mp h.1)
  intro e he
  simp only [DependencyBuilder.arcs, List.mem_flatMap, List.mem_map] at he
  obtain ⟨entry, hentry, dep, hdep, rfl⟩ := he
  exact ⟨(hentrees entry hentry).2 dep hdep, (hentrees entry hentry).1⟩

theorem SansReproche.acyclique (h : SansReproche limite result report) :
    Acyclique (DependencyBuilder.arcs result.dependencyGraph) := by
  have hcherche : ValidationEngine.chercher result.dependencyGraph limite
      result.dependencyGraph.keys {} = some false := by
    have hissues := h.2
    rw [ValidationEngine.checkCycles, Option.map_map] at hissues
    obtain ⟨trouve, htrouve, hissue⟩ := Option.map_eq_some_iff.mp hissues
    rw [htrouve]
    have hrien := ValidationEngine.noter_issues.mp hissue
    cases trouve with
    | true => cases hrien
    | false => rfl
  -- the search goes from what waits to what is waited for
  intro x hcycle
  refine ValidationEngine.acyclique_of_chercher hcherche x ?_
  refine Relation.transGen_swap.mp (Relation.TransGen.mono (fun a b hab => ?_) _ _ hcycle)
  exact (DependencyBuilder.mem_arcs result.cles).mp hab

/-- What is built from tasks of distinct identifiers is right exactly when one order follows their
explicit dependencies and the automatic rule; and from a plan that the checks let through comes a
graph that is accepted, exactly when each estimate names a priority and no identifier stands for
two tasks. -/
theorem construction_fidele_iff {breakdowns : List TaskBreakdown}
    (hids : (DependencyBuilder.identifiants breakdowns).Nodup)
    (hconnus : ∀ t ∈ breakdowns, ∀ d ∈ t.dependsOn,
      d ∈ DependencyBuilder.identifiants breakdowns)
    (hplan : SansReproche limite result report)
    (graphExecutor : Bool) (missionId title objective : String) :
    (DependencyBuilder.Conforme breakdowns (DependencyBuilder.buildDependencies breakdowns) ↔
        ∃ rang, DependencyBuilder.Respecte breakdowns rang) ∧
      (Acceptee (buildMission graphExecutor missionId result title objective) ↔
        (∀ bd ∈ result.taskBreakdowns, (priorite result bd).isSome) ∧
          (graphExecutor = true →
            (DependencyBuilder.identifiants result.taskBreakdowns).Nodup)) :=
  ⟨DependencyBuilder.conforme_iff_respecte hids hconnus,
    acceptee_iff hplan.connus hplan.acyclique graphExecutor missionId title objective⟩

/-- A task that waits for its tests, where the tests cannot run in parallel. -/
def aRebours : List TaskBreakdown :=
  [{ taskId := "code", title := "Code", description := "", category := .implementation,
     dependsOn := ["tests"] },
   { taskId := "tests", title := "Tests", description := "", category := .testing,
     canParallelize := false }]

/-- The tests are made to wait for the code, which waits for them. -/
theorem construction_a_rebours :
    (DependencyBuilder.identifiants aRebours).Nodup ∧
      (∀ t ∈ aRebours, ∀ d ∈ t.dependsOn, d ∈ DependencyBuilder.identifiants aRebours) ∧
      Acyclique (aRebours.flatMap fun t => t.dependsOn.map fun d => (d, t.taskId)) ∧
      ¬ DependencyBuilder.Conforme aRebours (DependencyBuilder.buildDependencies aRebours) := by
  have hids : (DependencyBuilder.identifiants aRebours).Nodup := by decide
  have hconnus : ∀ t ∈ aRebours, ∀ d ∈ t.dependsOn,
      d ∈ DependencyBuilder.identifiants aRebours := by decide
  refine ⟨hids, hconnus, ?_, ?_⟩
  · exact Lib.Kahn.acyclique_of_rang (fun id => if id = "code" then 1 else 0) (by decide)
  · rw [DependencyBuilder.conforme_iff_respecte hids hconnus]
    rintro ⟨rang, h⟩
    have hcode := h.explicites aRebours[0] (by decide) "tests" (by decide)
    have htests := h.autos aRebours[0] (by decide) aRebours[1] (by decide)
      ⟨rfl, .inr (by decide)⟩
    exact lt_asymm hcode htests

def suivie : PlanningResult where
  taskBreakdowns :=
    [{ taskId := "a", title := "A", description := "", category := .planning },
     { taskId := "b", title := "B", description := "", category := .analysis, dependsOn := ["a"] }]
  dependencyGraph := [("a", []), ("b", ["a"])]
  cles := by decide

theorem construction_fidele_suivie :
    DependencyBuilder.Conforme suivie.taskBreakdowns
        (DependencyBuilder.buildDependencies suivie.taskBreakdowns) ∧
      Acceptee (buildMission true "m1" suivie "" "") := by
  have hids : (DependencyBuilder.identifiants suivie.taskBreakdowns).Nodup := by decide
  have hconnus : ∀ t ∈ suivie.taskBreakdowns, ∀ d ∈ t.dependsOn,
      d ∈ DependencyBuilder.identifiants suivie.taskBreakdowns := by decide
  have hplan : SansReproche 2 suivie {} := ⟨by decide, by decide⟩
  have hfidele := construction_fidele_iff hids hconnus hplan true "m1" "" ""
  refine ⟨hfidele.1.mpr ⟨fun id => if id = "b" then 1 else 0, by decide, ?_⟩,
    hfidele.2.mpr ⟨by decide, fun _ => hids⟩⟩
  intro e he t ht hattend
  have hparallele : ∀ t ∈ suivie.taskBreakdowns, t.canParallelize = true := by decide
  have hfaux := hattend.1
  rw [hparallele t ht] at hfaux
  cases hfaux

end MissionPlanner

end Hermes.Planner
