import Hermes.Agent.ExecutionGraph

/-! # Planning tasks

A list of tasks is validated by a scan that knows the ids met so far and by a cycle test over the
whole list, its dependencies are rewritten by the strategy, and the graph is built from what they
have become.
-/

namespace Hermes.Agent

open Lib
open Lib.Kahn (Acyclique internes visiter restants)
open Lib.Flottant (Binaire)

inductive PlanningStrategy where
  | sequential
  | balanced
  | parallel
  | conservative
  deriving DecidableEq

/-- `dependencies` is a set, listed as it is iterated. -/
structure PlannedTask where
  id : String
  title : String
  description : String := ""
  estimatedComplexity : Binaire := .fini 1
  runtimeCapability : String := "chat"
  dependencies : List String := []
  parallelizable : Bool := true
  deriving DecidableEq

/-- The messages of the validator, by what they name. -/
inductive ErreurDePlan where
  | doublon (id : String)
  | complexite (id : String)
  | dependanceInconnue (id dep : String)
  | cycle (ids : List String)
  | capaciteInconnue (id capability : String)
  deriving DecidableEq

def ids (tasks : List PlannedTask) : List String := tasks.map PlannedTask.id

/-- The edges the tasks declare, from a dependency to its task. -/
def declarees (tasks : List PlannedTask) : List (String × String) :=
  tasks.flatMap fun t => t.dependencies.map fun dep => (dep, t.id)

namespace PlanningValidator

def horsBornes (complexity : Binaire) : Bool :=
  complexity.lt (.fini 0) || Binaire.lt (.fini 10) complexity

/-- What is said of one task when `vus` are the ids of those before it. -/
def erreursDe (vus : List String) (task : PlannedTask) : List ErreurDePlan :=
  (if task.id ∈ vus then [.doublon task.id] else []) ++
    (if horsBornes task.estimatedComplexity then [.complexite task.id] else []) ++
    -- the id of the task itself is already among those met
    (task.dependencies.filter (· ∉ task.id :: vus)).map (.dependanceInconnue task.id)

def parcourirTasks : List String → List PlannedTask → List ErreurDePlan
  | _, [] => []
  | vus, task :: tasks => erreursDe vus task ++ parcourirTasks (task.id :: vus) tasks

def validateTasks (tasks : List PlannedTask) : List ErreurDePlan := parcourirTasks [] tasks

def validateCycleAmongTasks (tasks : List PlannedTask) : List ErreurDePlan :=
  let nodeIds := (ids tasks).dedup
  if (visiter nodeIds (declarees tasks)).length ≠ nodeIds.length then
    [.cycle (restants nodeIds (declarees tasks))]
  else []

def validateCapabilities (tasks : List PlannedTask) (available : Option (List String)) :
    List ErreurDePlan :=
  match available with
  | none => []
  | some available =>
      (tasks.filter fun t => t.runtimeCapability ∉ available).map fun t =>
        .capaciteInconnue t.id t.runtimeCapability

def validatePlan (tasks : List PlannedTask) (available : Option (List String)) :
    List ErreurDePlan :=
  validateTasks tasks ++ validateCycleAmongTasks tasks ++ validateCapabilities tasks available

end PlanningValidator

namespace TaskPlanner

/-- Each task after the id of the one before it. -/
def chainer : Option String → List PlannedTask → List PlannedTask
  | _, [] => []
  | precedent, task :: tasks =>
      { task with dependencies := precedent.toList } :: chainer (some task.id) tasks

def makeSequential (tasks : List PlannedTask) : List PlannedTask := chainer none tasks

/-- Each task after all those before it, and after what it declares. -/
def cumuler : List String → List PlannedTask → List PlannedTask
  | _, [] => []
  | allPrevious, task :: tasks =>
      { task with
        dependencies := (task.dependencies ++ allPrevious).dedup.filter (· ≠ task.id) } ::
        cumuler (allPrevious ++ [task.id]) tasks

def makeConservative (tasks : List PlannedTask) : List PlannedTask := cumuler [] tasks

def applyStrategy (strategy : PlanningStrategy) (tasks : List PlannedTask) : List PlannedTask :=
  match strategy with
  | .sequential => makeSequential tasks
  | .conservative => makeConservative tasks
  | .balanced => tasks
  | .parallel => tasks

def noeud (task : PlannedTask) : AgentNode where
  id := task.id
  name := String.ofList (task.title.toList.take 200)
  type := if task.parallelizable then .parallel else .task
  runtimeCapability := task.runtimeCapability
  metadata :=
    { description := task.description
      estimatedComplexity := task.estimatedComplexity
      originalDeps := task.dependencies.insertionSort (· ≤ ·) }

def ajouterNoeuds : List PlannedTask → ExecutionGraph → Except GraphException ExecutionGraph
  | [], g => .ok g
  | task :: tasks, g =>
      match g.addNode (noeud task) with
      | .error e => .error e
      | .ok g' => ajouterNoeuds tasks g'

def ajouterArc (g : ExecutionGraph) (arc : String × String) : ExecutionGraph :=
  match g.addEdge { source := arc.1, target := arc.2 } with
  | .ok g' => g'
  | .error _ => g

def tasksToGraph (tasks : List PlannedTask) : Except GraphException ExecutionGraph :=
  match ajouterNoeuds tasks {} with
  | .error e => .error e
  | .ok g => .ok ((declarees tasks).foldl ajouterArc g)

structure TaskMission where
  id : String
  title : String
  description : String := ""
  objective : String := ""
  priority : Int := 5
  deriving DecidableEq

structure TaskPlan where
  mission : TaskMission
  tasks : List PlannedTask
  executionGraph : ExecutionGraph
  strategy : PlanningStrategy
  parallelGroups : List (List String)

inductive PlanException where
  | planning (erreurs : List ErreurDePlan)
  | graphe (e : GraphException)
  deriving DecidableEq

def createPlan (strategy : PlanningStrategy) (available : Option (List String))
    (mission : TaskMission) (tasks : List PlannedTask) : Except PlanException TaskPlan :=
  let erreurs := PlanningValidator.validatePlan tasks available
  if erreurs ≠ [] then .error (.planning erreurs)
  else
    let optimised := applyStrategy strategy tasks
    match tasksToGraph optimised with
    | .error e => .error (.graphe e)
    | .ok graph =>
        match graph.generatePlan with
        | .error e => .error (.graphe e)
        | .ok gPlan =>
            .ok
              { mission := mission
                tasks := optimised
                executionGraph := graph
                strategy := strategy
                parallelGroups := gPlan.levels }

end TaskPlanner

/-- Every declared dependency is the id of a task earlier in the list. -/
def Precede (tasks : List PlannedTask) : Prop :=
  ∀ avant task apres, tasks = avant ++ task :: apres → ∀ dep ∈ task.dependencies, dep ∈ ids avant

def SansHorsBornes (tasks : List PlannedTask) : Prop :=
  ∀ task ∈ tasks, PlanningValidator.horsBornes task.estimatedComplexity = false

def SansNaN (tasks : List PlannedTask) : Prop := ∀ task ∈ tasks, task.estimatedComplexity ≠ .nan

def Connues (tasks : List PlannedTask) : Prop :=
  ∀ task ∈ tasks, ∀ dep ∈ task.dependencies, dep ∈ ids tasks

structure Saine (tasks : List PlannedTask) : Prop where
  distinctes : (ids tasks).Nodup
  complexites : ∀ task ∈ tasks, Binaire.le (.fini 0) task.estimatedComplexity = true ∧
    Binaire.le task.estimatedComplexity (.fini 10) = true
  connues : Connues tasks
  acyclique : Acyclique (declarees tasks)

/-- `Precede` along the scan: the ids of the tasks already met are listed. -/
def PrecedeDepuis : List String → List PlannedTask → Prop
  | _, [] => True
  | vus, task :: tasks =>
      (∀ dep ∈ task.dependencies, dep ∈ vus) ∧ PrecedeDepuis (task.id :: vus) tasks

section Validation

variable {tasks : List PlannedTask} {task : PlannedTask} {vus : List String}

theorem mem_declarees {e : String × String} :
    e ∈ declarees tasks ↔ ∃ task ∈ tasks, e.1 ∈ task.dependencies ∧ e.2 = task.id := by
  simp only [declarees, List.mem_flatMap, List.mem_map]
  constructor
  · intro h
    obtain ⟨task, htask, dep, hdep, rfl⟩ := h
    exact ⟨task, htask, hdep, rfl⟩
  · intro h
    obtain ⟨task, htask, hdep, hid⟩ := h
    exact ⟨task, htask, e.1, hdep, by rw [← hid]⟩

theorem mem_ids {id : String} : id ∈ ids tasks ↔ ∃ task ∈ tasks, task.id = id := List.mem_map

theorem precedeDepuis_iff :
    PrecedeDepuis vus tasks ↔ ∀ avant task apres, tasks = avant ++ task :: apres →
      ∀ dep ∈ task.dependencies, dep ∈ vus ∨ dep ∈ ids avant := by
  induction tasks generalizing vus with
  | nil =>
      refine ⟨fun _ avant task apres h => ?_, fun _ => trivial⟩
      cases avant <;> cases h
  | cons first tasks ih =>
      rw [PrecedeDepuis, ih]
      constructor
      · intro h avant task apres heq dep hdep
        cases avant with
        | nil =>
            cases heq
            exact .inl (h.1 dep hdep)
        | cons a avant =>
            cases heq
            have hmem := h.2 avant task apres rfl dep hdep
            simp only [ids, List.map_cons, List.mem_cons] at hmem ⊢
            tauto
      · intro h
        refine ⟨fun dep hdep => ?_, fun avant task apres heq dep hdep => ?_⟩
        · cases h [] first tasks rfl dep hdep with
          | inl hvu => exact hvu
          | inr hmem => cases hmem
        · have hmem := h (first :: avant) task apres (by rw [heq]; rfl) dep hdep
          simp only [ids, List.map_cons, List.mem_cons] at hmem ⊢
          tauto

theorem precede_iff : Precede tasks ↔ PrecedeDepuis [] tasks := by
  rw [precedeDepuis_iff]
  simp only [List.not_mem_nil, false_or]
  rfl

theorem erreursDe_eq_nil_iff :
    PlanningValidator.erreursDe vus task = [] ↔
      task.id ∉ vus ∧ PlanningValidator.horsBornes task.estimatedComplexity = false ∧
        ∀ dep ∈ task.dependencies, dep ∈ task.id :: vus := by
  simp only [PlanningValidator.erreursDe, List.append_eq_nil_iff, List.map_eq_nil_iff,
    List.filter_eq_nil_iff]
  by_cases hid : task.id ∈ vus
  · simp [hid]
  · cases PlanningValidator.horsBornes task.estimatedComplexity <;>
      simp [hid, or_iff_not_imp_left]

theorem parcourirTasks_eq_nil_iff (hsoi : ∀ task ∈ tasks, task.id ∉ task.dependencies) :
    PlanningValidator.parcourirTasks vus tasks = [] ↔
      ((ids tasks).Nodup ∧ ∀ id ∈ ids tasks, id ∉ vus) ∧ SansHorsBornes tasks ∧
        PrecedeDepuis vus tasks := by
  induction tasks generalizing vus with
  | nil => simp [PlanningValidator.parcourirTasks, ids, SansHorsBornes, PrecedeDepuis]
  | cons task tasks ih =>
      have hdeps : (∀ dep ∈ task.dependencies, dep ∈ task.id :: vus) ↔
          ∀ dep ∈ task.dependencies, dep ∈ vus := by
        have hself := hsoi task List.mem_cons_self
        constructor
        · intro h dep hdep
          cases List.mem_cons.mp (h dep hdep) with
          | inl heq => exact absurd (heq ▸ hdep) hself
          | inr hmem => exact hmem
        · intro h dep hdep
          exact List.mem_cons_of_mem _ (h dep hdep)
      rw [PlanningValidator.parcourirTasks, List.append_eq_nil_iff, erreursDe_eq_nil_iff, hdeps,
        ih fun t ht => hsoi t (List.mem_cons_of_mem _ ht)]
      simp only [SansHorsBornes, PrecedeDepuis, ids, List.map_cons, List.nodup_cons,
        List.forall_mem_cons]
      constructor
      · intro h
        obtain ⟨⟨hid, hborne, hdep⟩, ⟨hnodup, hvus⟩, hbornes, hprecede⟩ := h
        refine ⟨⟨⟨?_, hnodup⟩, hid, ?_⟩, ⟨hborne, hbornes⟩, hdep, hprecede⟩
        · intro hmem
          exact hvus task.id hmem List.mem_cons_self
        · intro id hmem hvu
          exact hvus id hmem (List.mem_cons_of_mem _ hvu)
      · intro h
        obtain ⟨⟨⟨hneuf, hnodup⟩, hid, hvus⟩, ⟨hborne, hbornes⟩, hdep, hprecede⟩ := h
        refine ⟨⟨hid, hborne, hdep⟩, ⟨hnodup, ?_⟩, hbornes, hprecede⟩
        intro id hmem hvu
        cases List.mem_cons.mp hvu with
        | inl heq => exact hneuf (heq ▸ hmem)
        | inr hvu => exact hvus id hmem hvu

theorem ids_precede {avant apres : List PlannedTask} (hnodup : (ids (avant ++ task :: apres)).Nodup) :
    task.id ∉ ids avant := by
  rw [ids, List.map_append, List.map_cons] at hnodup
  intro hmem
  exact (List.nodup_append.mp hnodup).2.2 _ hmem _ List.mem_cons_self rfl

theorem acyclique_of_precede (hnodup : (ids tasks).Nodup) (h : Precede tasks) :
    Acyclique (declarees tasks) := by
  apply Kahn.acyclique_of_rang fun id => (ids tasks).idxOf id
  intro e he
  obtain ⟨task, htask, hdep, hid⟩ := mem_declarees.mp he
  obtain ⟨avant, apres, rfl⟩ := List.append_of_mem htask
  have hbefore : e.1 ∈ ids avant := h avant task apres rfl e.1 hdep
  have hneuf := ids_precede hnodup
  have hsplit : ids (avant ++ task :: apres) = ids avant ++ task.id :: ids apres := by simp [ids]
  have hlt := List.idxOf_lt_length_of_mem hbefore
  rw [hid, hsplit, List.idxOf_append_of_mem hbefore, List.idxOf_append_of_notMem hneuf,
    List.idxOf_cons_self]
  omega

theorem connues_of_precede (h : Precede tasks) : Connues tasks := by
  intro task htask dep hdep
  obtain ⟨avant, apres, rfl⟩ := List.append_of_mem htask
  have hmem := h avant task apres rfl dep hdep
  simp only [ids, List.map_append, List.mem_append] at hmem ⊢
  exact .inl hmem

theorem soi_of_acyclique (h : Acyclique (declarees tasks)) :
    ∀ task ∈ tasks, task.id ∉ task.dependencies :=
  fun task htask hself => h task.id (.single (mem_declarees.mpr ⟨task, htask, hself, rfl⟩))

theorem acyclique_internes_iff :
    Acyclique (internes (ids tasks).dedup (declarees tasks)) ↔ Acyclique (declarees tasks) := by
  refine ⟨fun h => ?_, fun h => h.mono fun e he => (Kahn.mem_internes.mp he).1⟩
  have hcible : ∀ {a b : String}, Relation.TransGen (fun a b => (a, b) ∈ declarees tasks) a b →
      b ∈ (ids tasks).dedup := by
    intro a b hab
    have hmem : ∀ {a b : String}, (a, b) ∈ declarees tasks → b ∈ (ids tasks).dedup := by
      intro a b he
      obtain ⟨task, htask, -, hid⟩ := mem_declarees.mp he
      exact List.mem_dedup.mpr (mem_ids.mpr ⟨task, htask, hid.symm⟩)
    cases hab with
    | single he => exact hmem he
    | tail _ he => exact hmem he
  have hinterne : ∀ {a b : String}, a ∈ (ids tasks).dedup →
      Relation.TransGen (fun a b => (a, b) ∈ declarees tasks) a b →
      Relation.TransGen (fun a b => (a, b) ∈ internes (ids tasks).dedup (declarees tasks)) a b := by
    intro a b ha hab
    induction hab with
    | single he => exact .single (Kahn.mem_internes.mpr ⟨he, ha, hcible (.single he)⟩)
    | tail hab he ih =>
        exact ih.tail (Kahn.mem_internes.mpr ⟨he, hcible hab, hcible (hab.tail he)⟩)
  intro v hcycle
  exact h v (hinterne (hcible hcycle) hcycle)

theorem validateCycle_eq_nil_iff :
    PlanningValidator.validateCycleAmongTasks tasks = [] ↔ Acyclique (declarees tasks) := by
  rw [← acyclique_internes_iff, ← Kahn.length_visiter_iff (List.nodup_dedup _),
    PlanningValidator.validateCycleAmongTasks]
  split
  · next h => simp [h]
  · next h => simpa using h

theorem validatePlan_eq_nil_iff :
    PlanningValidator.validatePlan tasks none = [] ↔
      (ids tasks).Nodup ∧ SansHorsBornes tasks ∧ Precede tasks := by
  rw [PlanningValidator.validatePlan, PlanningValidator.validateCapabilities, List.append_nil,
    List.append_eq_nil_iff, validateCycle_eq_nil_iff, PlanningValidator.validateTasks]
  constructor
  · intro h
    have hscan := (parcourirTasks_eq_nil_iff (soi_of_acyclique h.2)).mp h.1
    exact ⟨hscan.1.1, hscan.2.1, precede_iff.mpr hscan.2.2⟩
  · intro h
    have hacyclique := acyclique_of_precede h.1 h.2.2
    refine ⟨(parcourirTasks_eq_nil_iff (soi_of_acyclique hacyclique)).mpr ?_, hacyclique⟩
    exact ⟨⟨h.1, fun _ _ hnil => nomatch hnil⟩, h.2.1, precede_iff.mp h.2.2⟩

end Validation

section Strategies

open TaskPlanner

variable {tasks : List PlannedTask} {vus : List String} {precedent : Option String}
  {strategy : PlanningStrategy}

/-- There is a path of edges from `a` to `b`. -/
def Ancetre (edges : List (String × String)) (a b : String) : Prop :=
  Relation.TransGen (fun a b => (a, b) ∈ edges) a b

theorem Ancetre.mono {edges edges' : List (String × String)} {a b : String}
    (h : Ancetre edges a b) (hsub : ∀ e ∈ edges, e ∈ edges') : Ancetre edges' a b :=
  Relation.TransGen.mono (fun _ _ he => hsub _ he) _ _ h

theorem ids_chainer : ids (chainer precedent tasks) = ids tasks := by
  induction tasks generalizing precedent with
  | nil => rfl
  | cons task tasks ih => exact congrArg (task.id :: ·) ih

theorem ids_cumuler : ids (cumuler vus tasks) = ids tasks := by
  induction tasks generalizing vus with
  | nil => rfl
  | cons task tasks ih => exact congrArg (task.id :: ·) ih

theorem ids_applyStrategy : ids (applyStrategy strategy tasks) = ids tasks := by
  cases strategy with
  | sequential => exact ids_chainer
  | conservative => exact ids_cumuler
  | balanced => rfl
  | parallel => rfl

theorem precede_chainer (h : ∀ id ∈ precedent, id ∈ vus) :
    PrecedeDepuis vus (chainer precedent tasks) := by
  induction tasks generalizing precedent vus with
  | nil => trivial
  | cons task tasks ih =>
      refine ⟨fun dep hdep => h dep (Option.mem_toList.mp hdep), ih ?_⟩
      intro id hid
      cases hid
      exact List.mem_cons_self

theorem precede_cumuler {precedents : List String} (h : PrecedeDepuis vus tasks)
    (hsub : ∀ id ∈ precedents, id ∈ vus) : PrecedeDepuis vus (cumuler precedents tasks) := by
  induction tasks generalizing precedents vus with
  | nil => trivial
  | cons task tasks ih =>
      refine ⟨fun dep hdep => ?_, ih h.2 fun id hid => ?_⟩
      · have hmem := List.mem_dedup.mp (List.mem_filter.mp hdep).1
        cases List.mem_append.mp hmem with
        | inl hdep => exact h.1 dep hdep
        | inr hprev => exact hsub dep hprev
      · cases List.mem_append.mp hid with
        | inl hprev => exact List.mem_cons_of_mem _ (hsub id hprev)
        | inr hself =>
            rw [List.mem_singleton.mp hself]
            exact List.mem_cons_self

theorem precede_applyStrategy (h : Precede tasks) : Precede (applyStrategy strategy tasks) := by
  cases strategy with
  | sequential => exact precede_iff.mpr (precede_chainer fun _ hnone => nomatch hnone)
  | conservative =>
      exact precede_iff.mpr (precede_cumuler (precede_iff.mp h) fun _ hnil => nomatch hnil)
  | balanced => exact h
  | parallel => exact h

theorem declarees_cons (task : PlannedTask) (tasks : List PlannedTask) :
    declarees (task :: tasks) = task.dependencies.map (fun dep => (dep, task.id)) ++
      declarees tasks := rfl

theorem ancetre_chainer (q : String) :
    ∀ task ∈ tasks, Ancetre (declarees (chainer (some q) tasks)) q task.id := by
  induction tasks generalizing q with
  | nil => exact fun _ hnil => nomatch hnil
  | cons first tasks ih =>
      have hedge : (q, first.id) ∈ declarees (chainer (some q) (first :: tasks)) := by
        simp [chainer, declarees_cons]
      have hreste : ∀ e ∈ declarees (chainer (some first.id) tasks),
          e ∈ declarees (chainer (some q) (first :: tasks)) := by
        intro e he
        rw [chainer, declarees_cons]
        exact List.mem_append_right _ he
      intro task htask
      cases List.mem_cons.mp htask with
      | inl heq =>
          rw [heq]
          exact .single hedge
      | inr htask => exact .head hedge ((ih first.id task htask).mono hreste)

theorem declarees_chainer_suite (avant : List PlannedTask) (task : PlannedTask)
    (apres : List PlannedTask) :
    ∀ e ∈ declarees (chainer (some task.id) apres),
      e ∈ declarees (chainer precedent (avant ++ task :: apres)) := by
  induction avant generalizing precedent with
  | nil =>
      intro e he
      rw [List.nil_append, chainer, declarees_cons]
      exact List.mem_append_right _ he
  | cons first avant ih =>
      intro e he
      rw [List.cons_append, chainer, declarees_cons]
      exact List.mem_append_right _ (ih e he)

theorem ancetre_sequential (h : Precede tasks) :
    ∀ task ∈ tasks, ∀ dep ∈ task.dependencies,
      Ancetre (declarees (makeSequential tasks)) dep task.id := by
  intro task htask dep hdep
  obtain ⟨avant, apres, rfl⟩ := List.append_of_mem htask
  obtain ⟨origine, horigine, rfl⟩ := mem_ids.mp (h avant task apres rfl dep hdep)
  obtain ⟨debut, suite, rfl⟩ := List.append_of_mem horigine
  have hchaine : Ancetre (declarees (chainer (some origine.id) (suite ++ task :: apres)))
      origine.id task.id := ancetre_chainer origine.id task (by simp)
  rw [makeSequential, List.append_assoc, List.cons_append]
  exact hchaine.mono (declarees_chainer_suite debut origine (suite ++ task :: apres))

theorem declarees_cumuler (hsoi : ∀ task ∈ tasks, task.id ∉ task.dependencies)
    (precedents : List String) :
    ∀ e ∈ declarees tasks, e ∈ declarees (cumuler precedents tasks) := by
  induction tasks generalizing precedents with
  | nil => exact fun _ hnil => nomatch hnil
  | cons task tasks ih =>
      intro e he
      rw [declarees_cons] at he
      rw [cumuler, declarees_cons]
      cases List.mem_append.mp he with
      | inr he =>
          exact List.mem_append_right _
            (ih (fun t ht => hsoi t (List.mem_cons_of_mem _ ht)) _ e he)
      | inl he =>
          apply List.mem_append_left
          obtain ⟨dep, hdep, rfl⟩ := List.mem_map.mp he
          have hne : dep ≠ task.id := fun heq => hsoi task List.mem_cons_self (heq ▸ hdep)
          exact List.mem_map.mpr ⟨dep, by simp [hdep, hne], rfl⟩

theorem ancetre_applyStrategy (hnodup : (ids tasks).Nodup) (h : Precede tasks) :
    ∀ task ∈ tasks, ∀ dep ∈ task.dependencies,
      Ancetre (declarees (applyStrategy strategy tasks)) dep task.id := by
  have hdeclaree : ∀ task ∈ tasks, ∀ dep ∈ task.dependencies, (dep, task.id) ∈ declarees tasks :=
    fun task htask dep hdep => mem_declarees.mpr ⟨task, htask, hdep, rfl⟩
  intro task htask dep hdep
  cases strategy with
  | sequential => exact ancetre_sequential h task htask dep hdep
  | conservative =>
      have hsoi := soi_of_acyclique (acyclique_of_precede hnodup h)
      exact .single (declarees_cumuler hsoi [] _ (hdeclaree task htask dep hdep))
  | balanced => exact .single (hdeclaree task htask dep hdep)
  | parallel => exact .single (hdeclaree task htask dep hdep)

end Strategies

section Graphe

open TaskPlanner

variable {tasks : List PlannedTask} {g : ExecutionGraph}

theorem ajouterNoeuds_ok (hnodup : (ids tasks).Nodup) (hneufs : ∀ id ∈ ids tasks, id ∉ g.nodes.keys) :
    ∃ g', ajouterNoeuds tasks g = .ok g' ∧ g'.edges = g.edges ∧
      g'.nodes = g.nodes ++ tasks.map fun task => (task.id, noeud task) := by
  induction tasks generalizing g with
  | nil => exact ⟨g, rfl, rfl, by simp⟩
  | cons task tasks ih =>
      have hid : task.id ∉ g.nodes.keys := hneufs task.id (by simp [ids])
      obtain ⟨g₁, hadd, hnodes, hedges⟩ := @ExecutionGraph.addNode_ok g (noeud task) hid
      have hkeys : g₁.nodes.keys = g.nodes.keys ++ [task.id] := by
        rw [hnodes]
        simp [Dict.keys, noeud]
      have hcons := List.nodup_cons.mp hnodup
      have hneufs₁ : ∀ id ∈ ids tasks, id ∉ g₁.nodes.keys := by
        intro id hmem
        rw [hkeys, List.mem_append, List.mem_singleton, not_or]
        refine ⟨hneufs id (List.mem_cons_of_mem _ hmem), fun heq => hcons.1 (heq ▸ hmem)⟩
      obtain ⟨g₂, hreste, hedges₂, hnodes₂⟩ := ih hcons.2 hneufs₁
      refine ⟨g₂, ?_, by rw [hedges₂, hedges], ?_⟩
      · rw [ajouterNoeuds, hadd]
        exact hreste
      · rw [hnodes₂, hnodes, List.append_assoc]
        rfl

theorem foldl_ajouterArc (liste : List (String × String))
    (hends : ∀ e ∈ arcs g.edges ++ liste, e.1 ∈ g.nodes.keys ∧ e.2 ∈ g.nodes.keys)
    (hacyclique : Acyclique (arcs g.edges ++ liste)) :
    (liste.foldl ajouterArc g).nodes = g.nodes ∧
      arcs (liste.foldl ajouterArc g).edges = arcs g.edges ++ liste := by
  induction liste generalizing g with
  | nil => simp
  | cons e liste ih =>
      have harcs : arcs (g.edges ++ [{ source := e.1, target := e.2 }]) = arcs g.edges ++ [e] := by
        simp [arcs]
      have hsub : ∀ e' ∈ arcs g.edges ++ [e], e' ∈ arcs g.edges ++ e :: liste := by
        intro e' he'
        simp only [List.mem_append, List.mem_cons, List.not_mem_nil, or_false] at he' ⊢
        tauto
      have hadd := @ExecutionGraph.addEdge_ok g { source := e.1, target := e.2 }
        (by rw [harcs]; exact fun e' he' => hends e' (hsub e' he'))
        (by rw [harcs]; exact hacyclique.mono hsub)
      have harc : ajouterArc g e
          = { g with edges := g.edges ++ [{ source := e.1, target := e.2 }] } := by
        rw [ajouterArc, hadd]
      have hsplit : arcs g.edges ++ e :: liste = arcs g.edges ++ [e] ++ liste := by simp
      rw [hsplit, ← harcs] at hends hacyclique
      rw [List.foldl_cons, harc, hsplit, ← harcs]
      exact ih (g := { g with edges := g.edges ++ [{ source := e.1, target := e.2 }] })
        hends hacyclique

theorem tasksToGraph_ok (hnodup : (ids tasks).Nodup) (h : Precede tasks) :
    ∃ g, tasksToGraph tasks = .ok g ∧
      g.nodes = (tasks.map fun task => (task.id, noeud task)) ∧ g.nodes.keys = ids tasks ∧
      arcs g.edges = declarees tasks := by
  obtain ⟨g₀, hnoeuds, hedges, hnodes⟩ := ajouterNoeuds_ok (g := {}) hnodup fun _ _ hnil => nomatch hnil
  have hkeys₀ : g₀.nodes.keys = ids tasks := by
    rw [hnodes]
    simp [Dict.keys, ids, Function.comp_def]
  have harcs₀ : arcs g₀.edges = [] := by rw [hedges]; rfl
  have hends : ∀ e ∈ arcs g₀.edges ++ declarees tasks,
      e.1 ∈ g₀.nodes.keys ∧ e.2 ∈ g₀.nodes.keys := by
    intro e he
    rw [harcs₀, List.nil_append] at he
    obtain ⟨task, htask, hdep, hid⟩ := mem_declarees.mp he
    rw [hkeys₀, hid]
    exact ⟨connues_of_precede h task htask e.1 hdep, mem_ids.mpr ⟨task, htask, rfl⟩⟩
  have hacyclique : Acyclique (arcs g₀.edges ++ declarees tasks) := by
    rw [harcs₀, List.nil_append]
    exact acyclique_of_precede hnodup h
  have hfold := foldl_ajouterArc (declarees tasks) hends hacyclique
  refine ⟨(declarees tasks).foldl ajouterArc g₀, ?_, ?_, ?_, ?_⟩
  · rw [tasksToGraph, hnoeuds]
  · rw [hfold.1, hnodes]
    rfl
  · rw [hfold.1, hkeys₀]
  · rw [hfold.2, harcs₀, List.nil_append]

theorem validate_eq_nil_iff (hnodup : (ids tasks).Nodup) (h : Precede tasks)
    (hkeys : g.nodes.keys = ids tasks) (harcs : arcs g.edges = declarees tasks) :
    ExecutionGraphValidator.validate g.nodes g.edges = [] ↔
      ExecutionGraphValidator.checkOrphanNodes g.nodes g.edges = [] := by
  have hends : ∀ e ∈ arcs g.edges, e.1 ∈ g.nodes.keys ∧ e.2 ∈ g.nodes.keys := by
    intro e he
    rw [harcs] at he
    obtain ⟨task, htask, hdep, hid⟩ := mem_declarees.mp he
    rw [hkeys, hid]
    exact ⟨connues_of_precede h task htask e.1 hdep, mem_ids.mpr ⟨task, htask, rfl⟩⟩
  have href := ExecutionGraphValidator.checkInvalidReferences_eq_nil_iff.mpr hends
  have hcycle : ExecutionGraphValidator.detectCycles g.nodes g.edges = [] := by
    rw [ExecutionGraphValidator.detectCycles_eq_nil_iff g.cles, Kahn.internes_eq_self hends, harcs]
    exact acyclique_of_precede hnodup h
  rw [ExecutionGraphValidator.validate, href, hcycle]
  rfl

end Graphe

section Orphelins

open TaskPlanner

variable {tasks : List PlannedTask} {g : ExecutionGraph}

/-- The task depends on another one, or another one on it. -/
def Reliee (tasks : List PlannedTask) (task : PlannedTask) : Prop :=
  task.dependencies ≠ [] ∨ ∃ autre ∈ tasks, task.id ∈ autre.dependencies

/-- At most one task, no dependency at all, or no task apart. -/
def SansOrphelin (tasks : List PlannedTask) : Prop :=
  tasks.length ≤ 1 ∨ declarees tasks = [] ∨ ∀ task ∈ tasks, Reliee tasks task

theorem isole_eq_false_iff {edges : List AgentEdge} {id : String} :
    ExecutionGraphValidator.isole edges id = false ↔
      ∃ e ∈ arcs edges, e.1 = id ∨ e.2 = id := by
  simp only [ExecutionGraphValidator.isole, List.all_eq_false, arcs, List.mem_map,
    exists_exists_and_eq_and, decide_eq_true_eq, not_and_or, not_not]

theorem reliee_iff (hnodup : (ids tasks).Nodup) {task : PlannedTask} (htask : task ∈ tasks) :
    (∃ e ∈ declarees tasks, e.1 = task.id ∨ e.2 = task.id) ↔ Reliee tasks task := by
  constructor
  · intro h
    obtain ⟨e, he, hend⟩ := h
    obtain ⟨autre, hautre, hdep, hid⟩ := mem_declarees.mp he
    cases hend with
    | inl hsource => exact .inr ⟨autre, hautre, hsource ▸ hdep⟩
    | inr hcible =>
        have hsame : autre = task :=
          List.inj_on_of_nodup_map hnodup hautre htask (hid.symm.trans hcible)
        left
        rw [← hsame]
        exact List.ne_nil_of_mem hdep
  · intro h
    cases h with
    | inl hdeps =>
        obtain ⟨dep, hdep⟩ := List.exists_mem_of_ne_nil _ hdeps
        exact ⟨(dep, task.id), mem_declarees.mpr ⟨task, htask, hdep, rfl⟩, .inr rfl⟩
    | inr hautre =>
        obtain ⟨autre, hautre, hdep⟩ := hautre
        exact ⟨(task.id, autre.id), mem_declarees.mpr ⟨autre, hautre, hdep, rfl⟩, .inl rfl⟩

theorem checkOrphanNodes_iff (hnodup : (ids tasks).Nodup) (hkeys : g.nodes.keys = ids tasks)
    (harcs : arcs g.edges = declarees tasks) :
    ExecutionGraphValidator.checkOrphanNodes g.nodes g.edges = [] ↔ SansOrphelin tasks := by
  have hlength : g.nodes.length = tasks.length := by
    have hlen := congrArg List.length hkeys
    simpa [Dict.keys, ids] using hlen
  have hedges : g.edges = [] ↔ declarees tasks = [] := by rw [← harcs, arcs, List.map_eq_nil_iff]
  rw [ExecutionGraphValidator.checkOrphanNodes_eq_nil_iff, hlength, hedges, hkeys, SansOrphelin]
  simp only [isole_eq_false_iff, harcs]
  refine or_congr_right (or_congr_right ⟨fun h task htask => ?_, fun h id hid => ?_⟩)
  · exact (reliee_iff hnodup htask).mp (h task.id (mem_ids.mpr ⟨task, htask, rfl⟩))
  · obtain ⟨task, htask, rfl⟩ := mem_ids.mp hid
    exact (reliee_iff hnodup htask).mpr (h task htask)

theorem sansOrphelin_of_premiere
    (h : ∀ premiere suite, tasks = premiere :: suite →
      (∀ task ∈ suite, task.dependencies ≠ []) ∧
        ∀ seconde ∈ suite.head?, premiere.id ∈ seconde.dependencies) :
    SansOrphelin tasks := by
  cases tasks with
  | nil => exact .inl (Nat.zero_le 1)
  | cons premiere suite =>
      have hsuite := h premiere suite rfl
      cases suite with
      | nil => exact .inl (Nat.le_refl 1)
      | cons seconde suite =>
          refine .inr (.inr fun task htask => ?_)
          cases List.mem_cons.mp htask with
          | inl heq =>
              rw [heq]
              exact .inr ⟨seconde, by simp, hsuite.2 seconde rfl⟩
          | inr htask => exact .inl (hsuite.1 task htask)

theorem dependencies_chainer (q : String) :
    ∀ task ∈ chainer (some q) tasks, task.dependencies ≠ [] := by
  induction tasks generalizing q with
  | nil => exact fun _ hnil => nomatch hnil
  | cons first tasks ih =>
      intro task htask
      cases List.mem_cons.mp htask with
      | inl heq => simp [heq]
      | inr htask => exact ih first.id task htask

theorem dependencies_cumuler {p : String} (hp : p ∉ ids tasks) (precedents : List String)
    (hmem : p ∈ precedents) : ∀ task ∈ cumuler precedents tasks, p ∈ task.dependencies := by
  induction tasks generalizing precedents with
  | nil => exact fun _ hnil => nomatch hnil
  | cons first tasks ih =>
      rw [ids, List.map_cons, List.mem_cons, not_or] at hp
      intro task htask
      cases List.mem_cons.mp htask with
      | inl heq => simp [heq, hmem, hp.1]
      | inr htask => exact ih hp.2 _ (List.mem_append_left _ hmem) task htask

theorem sansOrphelin_sequential (tasks : List PlannedTask) :
    SansOrphelin (makeSequential tasks) := by
  apply sansOrphelin_of_premiere
  intro premiere suite heq
  cases tasks with
  | nil => cases heq
  | cons first tasks =>
      cases heq
      refine ⟨dependencies_chainer first.id, fun seconde hseconde => ?_⟩
      cases tasks with
      | nil => cases hseconde
      | cons second tasks =>
          cases hseconde
          exact List.mem_singleton_self _

theorem sansOrphelin_conservative (hnodup : (ids tasks).Nodup) :
    SansOrphelin (makeConservative tasks) := by
  apply sansOrphelin_of_premiere
  intro premiere suite heq
  cases tasks with
  | nil => cases heq
  | cons first tasks =>
      cases heq
      have hall := dependencies_cumuler (List.nodup_cons.mp hnodup).1 ([] ++ [first.id]) (by simp)
      exact ⟨fun task htask => List.ne_nil_of_mem (hall task htask),
        fun seconde hseconde => hall seconde (List.mem_of_mem_head? hseconde)⟩

theorem sansOrphelin_applyStrategy_iff (hnodup : (ids tasks).Nodup)
    (strategy : PlanningStrategy) :
    SansOrphelin (applyStrategy strategy tasks) ↔
      strategy = .sequential ∨ strategy = .conservative ∨ SansOrphelin tasks := by
  cases strategy with
  | sequential => simp [applyStrategy, sansOrphelin_sequential]
  | conservative => simp [applyStrategy, sansOrphelin_conservative hnodup]
  | balanced => simp [applyStrategy]
  | parallel => simp [applyStrategy]

theorem createPlan_graphe_iff {strategy : PlanningStrategy} {available : Option (List String)}
    {mission : TaskMission} :
    (∃ e, createPlan strategy available mission tasks = .error (.graphe e)) ↔
      PlanningValidator.validatePlan tasks available = [] ∧
        ¬ SansOrphelin (applyStrategy strategy tasks) := by
  by_cases hvalid : PlanningValidator.validatePlan tasks available = []
  · have hbase : PlanningValidator.validatePlan tasks none = [] := by
      simp only [PlanningValidator.validatePlan, List.append_eq_nil_iff] at hvalid ⊢
      exact ⟨hvalid.1, rfl⟩
    have haccepted := validatePlan_eq_nil_iff.mp hbase
    have hnodup : (ids (applyStrategy strategy tasks)).Nodup := by
      rw [ids_applyStrategy]
      exact haccepted.1
    have hprecede := @precede_applyStrategy tasks strategy haccepted.2.2
    obtain ⟨g, hgraph, -, hkeys, harcs⟩ := tasksToGraph_ok hnodup hprecede
    have hvalidate := (validate_eq_nil_iff hnodup hprecede hkeys harcs).trans
      (checkOrphanNodes_iff hnodup hkeys harcs)
    by_cases hgood : ExecutionGraphValidator.validate g.nodes g.edges = []
    · obtain ⟨plan, hplan⟩ := ExecutionGraph.generatePlan_isOk_iff.mpr hgood
      simp [createPlan, hvalid, hgraph, hplan, hvalidate.mp hgood]
    · have hplan := ExecutionGraph.generatePlan_of_ne hgood
      have horphelin := mt hvalidate.mpr hgood
      simp [createPlan, hvalid, hgraph, hplan, horphelin]
  · simp [createPlan, hvalid]

end Orphelins

section Acceptation

open TaskPlanner PlanningValidator

variable {tasks : List PlannedTask}

theorem bornes_iff (complexity : Binaire) :
    (Binaire.le (.fini 0) complexity = true ∧ Binaire.le complexity (.fini 10) = true) ↔
      horsBornes complexity = false ∧ complexity ≠ .nan := by
  cases complexity with
  | fini q => simp [Binaire.le, Binaire.lt, horsBornes]
  | infini negatif => cases negatif <;> simp [Binaire.le, Binaire.lt, horsBornes]
  | nan => simp [Binaire.le]

theorem saine_iff :
    Saine tasks ↔ (ids tasks).Nodup ∧ SansHorsBornes tasks ∧ SansNaN tasks ∧ Connues tasks ∧
      Acyclique (declarees tasks) := by
  constructor
  · intro h
    have hbornes := fun task htask => (bornes_iff _).mp (h.complexites task htask)
    exact ⟨h.distinctes, fun task htask => (hbornes task htask).1,
      fun task htask => (hbornes task htask).2, h.connues, h.acyclique⟩
  · intro h
    exact ⟨h.1, fun task htask => (bornes_iff _).mpr ⟨h.2.1 task htask, h.2.2.1 task htask⟩,
      h.2.2.2.1, h.2.2.2.2⟩

/-- What planning owes to a list of tasks: acceptance when it should be, and then every declared
dependency upstream of its task in the graph, whatever the strategy. -/
structure Planifie (tasks : List PlannedTask) : Prop where
  acceptee : validatePlan tasks none = [] ↔ Saine tasks
  ancetres : validatePlan tasks none = [] → ∀ strategy, ∃ g,
    tasksToGraph (applyStrategy strategy tasks) = .ok g ∧
      ∀ task ∈ tasks, ∀ dep ∈ task.dependencies, Ancetre (arcs g.edges) dep task.id

theorem ancetres_of_accepted (h : validatePlan tasks none = []) (strategy : PlanningStrategy) :
    ∃ g, tasksToGraph (applyStrategy strategy tasks) = .ok g ∧
      ∀ task ∈ tasks, ∀ dep ∈ task.dependencies, Ancetre (arcs g.edges) dep task.id := by
  have haccepted := validatePlan_eq_nil_iff.mp h
  have hnodup : (ids (applyStrategy strategy tasks)).Nodup := by
    rw [ids_applyStrategy]
    exact haccepted.1
  obtain ⟨g, hgraph, -, -, harcs⟩ := tasksToGraph_ok hnodup (precede_applyStrategy haccepted.2.2)
  refine ⟨g, hgraph, ?_⟩
  rw [harcs]
  exact ancetre_applyStrategy haccepted.1 haccepted.2.2

/-- The validator is right on a list whose tasks follow their dependencies, as long as every
complexity compares; on one wrong by its ids or by a complexity out of bounds; and on one out of
order that something else is wrong with. -/
theorem planifie_iff :
    Planifie tasks ↔
      (Precede tasks ∧ SansNaN tasks) ∨ ¬ (ids tasks).Nodup ∨ ¬ SansHorsBornes tasks ∨
        (¬ Precede tasks ∧
          (¬ SansNaN tasks ∨ ¬ Connues tasks ∨ ¬ Acyclique (declarees tasks))) := by
  have hplanifie : Planifie tasks ↔ (validatePlan tasks none = [] ↔ Saine tasks) :=
    ⟨fun h => h.acceptee, fun h => ⟨h, ancetres_of_accepted⟩⟩
  rw [hplanifie, validatePlan_eq_nil_iff, saine_iff]
  by_cases hnodup : (ids tasks).Nodup
  · by_cases hbornes : SansHorsBornes tasks
    · by_cases hprecede : Precede tasks
      · have hconnues := connues_of_precede hprecede
        have hacyclique := acyclique_of_precede hnodup hprecede
        simp [hnodup, hbornes, hprecede, hconnues, hacyclique]
      · by_cases hnan : SansNaN tasks
        · by_cases hconnues : Connues tasks
          · simp [hnodup, hbornes, hprecede, hnan, hconnues]
          · simp [hnodup, hbornes, hprecede, hconnues]
        · simp [hprecede, hnan]
    · simp [hbornes]
  · simp [hnodup]

def aRebours : List PlannedTask :=
  [{ id := "t1", title := "Tests", dependencies := ["t2"] }, { id := "t2", title := "Code" }]

theorem aRebours_non_planifie : ¬ Planifie aRebours := by
  intro h
  have hsaine : Saine aRebours := by
    refine ⟨by decide, by decide, ?_, ?_⟩
    · unfold Connues
      decide
    · exact Kahn.acyclique_of_rang (fun id => if id = "t1" then 1 else 0) (by decide)
  have hrefus : validatePlan aRebours none ≠ [] := by decide +kernel
  exact hrefus (h.acceptee.mpr hsaine)

end Acceptation

end Hermes.Agent
