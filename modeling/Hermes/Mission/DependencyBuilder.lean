import Hermes.Lib.Paliers
import Hermes.Lib.Tri
import Hermes.Mission.Ordre
import Hermes.Mission.PlannerModels
import Mathlib.Data.Prod.Lex

/-! # The dependencies of a plan

A task keeps its explicit dependencies.
-/

namespace Hermes.Planner

open Lib (Dict)
open Lib.Kahn (Acyclique)

namespace DependencyBuilder

def categoryOrder : TaskCategory → Int
  | .planning => 0
  | .analysis => 1
  | .design => 2
  | .implementation => 3
  | .integration => 4
  | .testing => 5
  | .security => 5
  | .optimization => 6
  | .review => 7
  | .documentation => 8
  | .deployment => 9
  | .custom => 3

def auPlusTard (a b : TaskBreakdown) : Bool :=
  categoryOrder a.category < categoryOrder b.category ||
    (categoryOrder a.category = categoryOrder b.category && a.order ≤ b.order)

def ordonner (breakdowns : List TaskBreakdown) : List TaskBreakdown :=
  breakdowns.mergeSort auPlusTard

/-- The turn of the inner loop for one earlier task. -/
def autoDependance (task : TaskBreakdown) (deps : List String) (earlier : TaskBreakdown) :
    List String :=
  if earlier.category = task.category ∧ task.canParallelize = false then
    if earlier.taskId ∉ deps then deps ++ [earlier.taskId] else deps
  else if categoryOrder earlier.category < categoryOrder task.category - 1 then
    if earlier.taskId ∉ deps ∧ task.canParallelize = true then deps
    else if task.canParallelize = false then
      if earlier.taskId ∉ deps then deps ++ [earlier.taskId] else deps
    else deps
  else deps

def dependances (earlier : List TaskBreakdown) (task : TaskBreakdown) : List String :=
  earlier.foldl (autoDependance task) task.dependsOn

/-- The loop over the tasks, `earlier` being those it has gone through. -/
def relier (depGraph : Dict String (List String)) (earlier : List TaskBreakdown) :
    List TaskBreakdown → Dict String (List String)
  | [] => depGraph
  | task :: tasks =>
      relier (depGraph.set task.taskId (dependances earlier task)) (earlier ++ [task]) tasks

/-- The ids are a set: each one stands once in `remaining`. -/
def computeParallelGroups (tasks : List TaskBreakdown) (depGraph : Dict String (List String)) :
    List (List String) :=
  let remaining := (tasks.map TaskBreakdown.taskId).dedup
  Lib.Paliers.grouper DependencyResolver.trier (fun tid => depGraph.getD tid [])
    remaining.length remaining []

def buildDependencies (breakdowns : List TaskBreakdown) :
    Dict String (List String) × List (List String) :=
  if breakdowns = [] then ([], [])
  else
    let ordered := ordonner breakdowns
    let depGraph := relier [] [] ordered
    (depGraph, computeParallelGroups ordered depGraph)

/-- The dependencies as edges, from what is waited for to what waits. -/
def arcs (depGraph : Dict String (List String)) : List (String × String) :=
  depGraph.flatMap fun entry => entry.2.map fun dep => (dep, entry.1)

/-- The automatic rule: `task` waits for `earlier`, once this one is sorted before it. -/
def Auto (earlier task : TaskBreakdown) : Prop :=
  task.canParallelize = false ∧ (earlier.category = task.category ∨
    categoryOrder earlier.category < categoryOrder task.category - 1)

theorem mem_autoDependance {task earlier : TaskBreakdown} {deps : List String} {id : String} :
    id ∈ autoDependance task deps earlier ↔
      id ∈ deps ∨ (Auto earlier task ∧ id = earlier.taskId) := by
  have hajout : id ∈ (if earlier.taskId ∉ deps then deps ++ [earlier.taskId] else deps) ↔
      id ∈ deps ∨ id = earlier.taskId := by
    split
    · simp
    · next hmem =>
        constructor
        · exact .inl
        · intro h
          rcases h with h | rfl
          · exact h
          · exact not_not.mp hmem
  unfold autoDependance Auto
  cases task.canParallelize with
  | true => simp
  | false =>
      by_cases hcat : earlier.category = task.category
      · simp only [hcat, true_and, if_true, hajout, true_or]
      · by_cases hrang : categoryOrder earlier.category < categoryOrder task.category - 1
        · simp only [hcat, hrang, false_and, if_false, if_true, Bool.false_eq_true, and_false,
            hajout, true_and, or_true]
        · simp only [hcat, hrang, false_and, if_false, or_self, and_false, or_false]

theorem mem_dependances {earlier : List TaskBreakdown} {task : TaskBreakdown} {id : String} :
    id ∈ dependances earlier task ↔
      id ∈ task.dependsOn ∨ ∃ e ∈ earlier, Auto e task ∧ id = e.taskId := by
  have hfold : ∀ deps, id ∈ earlier.foldl (autoDependance task) deps ↔
      id ∈ deps ∨ ∃ e ∈ earlier, Auto e task ∧ id = e.taskId := by
    induction earlier with
    | nil => simp
    | cons e earlier ih =>
        intro deps
        rw [List.foldl_cons, ih, mem_autoDependance]
        simp only [List.mem_cons, exists_eq_or_imp]
        tauto
  exact hfold task.dependsOn

section Graphe

variable {depGraph : Dict String (List String)} {earlier tasks : List TaskBreakdown}
  (hnodup : (depGraph.keys ++ tasks.map TaskBreakdown.taskId).Nodup)
include hnodup

theorem mem_relier {entry : String × List String} :
    entry ∈ relier depGraph earlier tasks ↔ entry ∈ depGraph ∨
      ∃ avant task apres, tasks = avant ++ task :: apres ∧
        entry = (task.taskId, dependances (earlier ++ avant) task) := by
  induction tasks generalizing depGraph earlier with
  | nil => simp [relier]
  | cons task tasks ih =>
      have hfrais : task.taskId ∉ depGraph.keys := by
        intro hmem
        exact (List.disjoint_of_nodup_append hnodup) hmem (by simp)
      have hsuite : ((depGraph ++ [(task.taskId, dependances earlier task)] :
          Dict String (List String)).keys ++ tasks.map TaskBreakdown.taskId).Nodup := by
        simpa [Dict.keys] using hnodup
      rw [relier, Dict.set_of_notMem hfrais, ih hsuite]
      constructor
      · rintro (hentry | ⟨avant, t, apres, rfl, rfl⟩)
        · rcases List.mem_append.mp hentry with hentry | hentry
          · exact .inl hentry
          · exact .inr ⟨[], task, tasks, rfl, by simpa using hentry⟩
        · exact .inr ⟨task :: avant, t, apres, rfl, by simp⟩
      · rintro (hentry | ⟨avant, t, apres, hsplit, rfl⟩)
        · exact .inl (List.mem_append_left _ hentry)
        · cases avant with
          | nil =>
              obtain ⟨rfl, rfl⟩ := List.cons.inj hsplit
              exact .inl (by simp)
          | cons premier avant =>
              obtain ⟨rfl, rfl⟩ := List.cons.inj hsplit
              exact .inr ⟨avant, t, apres, rfl, by simp⟩

theorem keys_relier : (relier depGraph earlier tasks).keys =
    depGraph.keys ++ tasks.map TaskBreakdown.taskId := by
  induction tasks generalizing depGraph earlier with
  | nil => simp [relier]
  | cons task tasks ih =>
      have hfrais : task.taskId ∉ depGraph.keys := by
        intro hmem
        exact (List.disjoint_of_nodup_append hnodup) hmem (by simp)
      rw [relier, Dict.set_of_notMem hfrais, ih (by simpa [Dict.keys] using hnodup)]
      simp [Dict.keys]

end Graphe

theorem auPlusTard_iff {a b : TaskBreakdown} : auPlusTard a b = true ↔
    categoryOrder a.category < categoryOrder b.category ∨
      (categoryOrder a.category = categoryOrder b.category ∧ a.order ≤ b.order) := by
  simp [auPlusTard]

theorem auPlusTard_trans (a b c : TaskBreakdown) (hab : auPlusTard a b = true)
    (hbc : auPlusTard b c = true) : auPlusTard a c = true := by
  rw [auPlusTard_iff] at hab hbc ⊢
  omega

theorem auPlusTard_total (a b : TaskBreakdown) :
    (auPlusTard a b || auPlusTard b a) = true := by
  rw [Bool.or_eq_true, auPlusTard_iff, auPlusTard_iff]
  omega

/-- `task` cannot run in parallel, and `earlier` is a task of its category that comes before it by
its order, or by its place in the list, or a task of a category two steps or more before. -/
def Attend (breakdowns : List TaskBreakdown) (earlier task : TaskBreakdown) : Prop :=
  task.canParallelize = false ∧
    ((earlier.category = task.category ∧ (earlier.order < task.order ∨
        (earlier.order = task.order ∧ breakdowns.idxOf earlier < breakdowns.idxOf task))) ∨
      categoryOrder earlier.category + 1 < categoryOrder task.category)

section Ordre

variable {breakdowns : List TaskBreakdown} (hnodup : breakdowns.Nodup)
include hnodup

theorem pairwise_idxOf : breakdowns.Pairwise fun a b => breakdowns.idxOf a < breakdowns.idxOf b := by
  rw [List.pairwise_iff_getElem]
  intro i j hi hj hij
  rw [hnodup.idxOf_getElem i hi, hnodup.idxOf_getElem j hj]
  exact hij

theorem mem_avant_iff {avant apres : List TaskBreakdown} {task earlier : TaskBreakdown}
    (hsplit : ordonner breakdowns = avant ++ task :: apres) :
    earlier ∈ avant ↔ earlier ∈ breakdowns ∧ auPlusTard earlier task = true ∧
      (auPlusTard task earlier = true → breakdowns.idxOf earlier < breakdowns.idxOf task) := by
  have hranges := Lib.pairwise_mergeSort_stable auPlusTard_trans auPlusTard_total
    (pairwise_idxOf hnodup)
  have hmem (t : TaskBreakdown) : t ∈ breakdowns ↔ t ∈ avant ++ task :: apres := by
    rw [← hsplit]
    exact List.mem_mergeSort.symm
  rw [show breakdowns.mergeSort auPlusTard = _ from hsplit, List.pairwise_append] at hranges
  obtain ⟨-, hapres, havant⟩ := hranges
  rw [List.pairwise_cons] at hapres
  constructor
  · intro h
    exact ⟨(hmem earlier).mpr (List.mem_append_left _ h), havant earlier h task List.mem_cons_self⟩
  · rintro ⟨h, hle, hindex⟩
    rcases List.mem_append.mp ((hmem earlier).mp h) with h | h
    · exact h
    · rcases List.mem_cons.mp h with rfl | h
      · exact absurd (hindex hle) (lt_irrefl _)
      · obtain ⟨hle', hindex'⟩ := hapres.1 earlier h
        exact absurd (hindex hle') (lt_asymm (hindex' hle))

theorem auto_avant_iff {avant apres : List TaskBreakdown} {task earlier : TaskBreakdown}
    (hsplit : ordonner breakdowns = avant ++ task :: apres) :
    (earlier ∈ avant ∧ Auto earlier task) ↔ earlier ∈ breakdowns ∧ Attend breakdowns earlier task := by
  rw [mem_avant_iff hnodup hsplit, Auto, Attend, auPlusTard_iff, auPlusTard_iff, and_assoc]
  refine and_congr_right fun _ => ?_
  cases task.canParallelize with
  | true => simp
  | false =>
      by_cases hcat : earlier.category = task.category
      · rw [hcat]
        simp only [true_and, lt_irrefl, true_or, and_true, false_or]
        omega
      · simp only [hcat, false_and, false_or, true_and]
        omega

end Ordre

def identifiants (breakdowns : List TaskBreakdown) : List String :=
  breakdowns.map TaskBreakdown.taskId

/-- The graph holds the explicit dependencies and has no cycle; the groups share the tasks out,
and put each task after everything it depends on. -/
structure Conforme (breakdowns : List TaskBreakdown)
    (built : Dict String (List String) × List (List String)) : Prop where
  explicites : ∀ t ∈ breakdowns, ∀ d ∈ t.dependsOn, d ∈ built.1.getD t.taskId []
  acyclique : Acyclique (arcs built.1)
  partition : built.2.flatten.Perm (identifiants breakdowns)
  pleins : ∀ g ∈ built.2, g ≠ []
  etages : Lib.Paliers.Etages (fun tid => built.1.getD tid []) built.2

/-- An order of the tasks that follows the explicit dependencies and the automatic rule. -/
structure Respecte (breakdowns : List TaskBreakdown) (rang : String → Nat) : Prop where
  explicites : ∀ t ∈ breakdowns, ∀ d ∈ t.dependsOn, rang d < rang t.taskId
  autos : ∀ e ∈ breakdowns, ∀ t ∈ breakdowns, Attend breakdowns e t → rang e.taskId < rang t.taskId

theorem buildDependencies_eq (breakdowns : List TaskBreakdown) :
    buildDependencies breakdowns = (relier [] [] (ordonner breakdowns),
      computeParallelGroups (ordonner breakdowns) (relier [] [] (ordonner breakdowns))) := by
  unfold buildDependencies
  split
  · next hvide =>
      have htri : ordonner [] = [] := List.mergeSort_nil
      rw [hvide, htri]
      rfl
  · rfl

theorem mem_arcs {depGraph : Dict String (List String)} (hnodup : depGraph.keys.Nodup)
    {e : String × String} : e ∈ arcs depGraph ↔ e.1 ∈ depGraph.getD e.2 [] := by
  simp only [arcs, List.mem_flatMap, List.mem_map]
  constructor
  · rintro ⟨⟨id, deps⟩, hentry, dep, hdep, rfl⟩
    rw [Dict.getD, Dict.get?_of_mem hnodup hentry]
    exact hdep
  · intro h
    cases hread : depGraph.get? e.2 with
    | none => simp [Dict.getD, hread] at h
    | some deps =>
        simp only [Dict.getD, hread, Option.getD_some] at h
        exact ⟨_, Dict.mem_of_get? hread, e.1, h, rfl⟩

theorem mem_ordonner {breakdowns : List TaskBreakdown} {t : TaskBreakdown} :
    t ∈ ordonner breakdowns ↔ t ∈ breakdowns := List.mem_mergeSort

theorem identifiants_ordonner (breakdowns : List TaskBreakdown) :
    (identifiants (ordonner breakdowns)).Perm (identifiants breakdowns) :=
  (List.mergeSort_perm breakdowns auPlusTard).map _

section Construction

variable {breakdowns : List TaskBreakdown} (hids : (identifiants breakdowns).Nodup)
include hids

theorem nodup_ordonner : (Dict.keys ([] : Dict String (List String)) ++
    identifiants (ordonner breakdowns)).Nodup :=
  (identifiants_ordonner breakdowns).nodup_iff.mpr hids

theorem nodup_depGraph : (relier [] [] (ordonner breakdowns)).keys.Nodup := by
  rw [keys_relier (nodup_ordonner hids)]
  exact nodup_ordonner hids

theorem mem_depGraph {id dep : String} :
    dep ∈ (relier [] [] (ordonner breakdowns)).getD id [] ↔
      ∃ t ∈ breakdowns, t.taskId = id ∧ (dep ∈ t.dependsOn ∨
        ∃ e ∈ breakdowns, Attend breakdowns e t ∧ dep = e.taskId) := by
  have hfrais := nodup_ordonner hids
  have hnodup : breakdowns.Nodup := hids.of_map _
  have hentree (avant apres : List TaskBreakdown) (t : TaskBreakdown)
      (hsplit : ordonner breakdowns = avant ++ t :: apres) :
      dep ∈ dependances avant t ↔ dep ∈ t.dependsOn ∨
        ∃ e ∈ breakdowns, Attend breakdowns e t ∧ dep = e.taskId := by
    rw [mem_dependances]
    refine or_congr_right (exists_congr fun e => ?_)
    rw [← and_assoc, ← and_assoc, auto_avant_iff hnodup hsplit]
  constructor
  · intro h
    obtain ⟨deps, hread, hdep⟩ : ∃ deps, (id, deps) ∈ relier [] [] (ordonner breakdowns) ∧
        dep ∈ deps := by
      cases hread : (relier [] [] (ordonner breakdowns)).get? id with
      | none => simp [Dict.getD, hread] at h
      | some deps =>
          simp only [Dict.getD, hread, Option.getD_some] at h
          exact ⟨deps, Dict.mem_of_get? hread, h⟩
    rcases (mem_relier hfrais).mp hread with hvide | ⟨avant, t, apres, hsplit, hentry⟩
    · cases hvide
    · cases hentry
      have ht : t ∈ breakdowns := by
        rw [← mem_ordonner, hsplit]
        simp
      exact ⟨t, ht, rfl, (hentree avant apres t hsplit).mp hdep⟩
  · rintro ⟨t, ht, rfl, hdep⟩
    obtain ⟨avant, apres, hsplit⟩ := List.append_of_mem (mem_ordonner.mpr ht)
    have hentry : (t.taskId, dependances avant t) ∈ relier [] [] (ordonner breakdowns) :=
      (mem_relier hfrais).mpr (.inr ⟨avant, t, apres, hsplit, rfl⟩)
    rw [Dict.getD, Dict.get?_of_mem (nodup_depGraph hids) hentry]
    exact (hentree avant apres t hsplit).mpr hdep

theorem respecte_iff {rang : String → Nat} : Respecte breakdowns rang ↔
    ∀ id, ∀ dep ∈ (relier [] [] (ordonner breakdowns)).getD id [], rang dep < rang id := by
  constructor
  · intro h id dep hdep
    obtain ⟨t, ht, rfl, hdep | ⟨e, he, hattend, rfl⟩⟩ := (mem_depGraph hids).mp hdep
    · exact h.explicites t ht dep hdep
    · exact h.autos e he t ht hattend
  · intro h
    constructor
    · intro t ht d hd
      exact h _ d ((mem_depGraph hids).mpr ⟨t, ht, rfl, .inl hd⟩)
    · intro e he t ht hattend
      exact h _ _ ((mem_depGraph hids).mpr ⟨t, ht, rfl, .inr ⟨e, he, hattend, rfl⟩⟩)

theorem conforme_iff_respecte (hconnus : ∀ t ∈ breakdowns, ∀ d ∈ t.dependsOn, d ∈ identifiants breakdowns) :
    Conforme breakdowns (buildDependencies breakdowns) ↔ ∃ rang, Respecte breakdowns rang := by
  have harcs (e : String × String) := mem_arcs (e := e) (nodup_depGraph hids)
  rw [buildDependencies_eq]
  constructor
  · intro h
    obtain ⟨rang, hrang⟩ := Lib.Kahn.exists_rang_of_acyclique h.acyclique
    refine ⟨rang, (respecte_iff hids).mpr fun id dep hdep => ?_⟩
    exact hrang (dep, id) ((harcs _).mpr hdep)
  · rintro ⟨rang, hrespecte⟩
    have hrang := (respecte_iff hids).mp hrespecte
    have htaches := identifiants_ordonner breakdowns
    have hdistincts : (identifiants (ordonner breakdowns)).dedup =
        identifiants (ordonner breakdowns) := (htaches.nodup_iff.mpr hids).dedup
    have htrier (l : List String) : (DependencyResolver.trier l).Perm l :=
      List.perm_insertionSort _ l
    have hbesoins : ∀ id ∈ identifiants (ordonner breakdowns),
        ∀ dep ∈ (relier [] [] (ordonner breakdowns)).getD id [],
          dep ∈ identifiants (ordonner breakdowns) := by
      intro id _ dep hdep
      rw [htaches.mem_iff]
      obtain ⟨t, ht, -, hdep | ⟨e, he, -, rfl⟩⟩ := (mem_depGraph hids).mp hdep
      · exact hconnus t ht dep hdep
      · exact List.mem_map_of_mem he
    have hgroupes : computeParallelGroups (ordonner breakdowns) (relier [] [] (ordonner breakdowns))
        = Lib.Paliers.grouper DependencyResolver.trier
          (fun tid => (relier [] [] (ordonner breakdowns)).getD tid [])
          (identifiants (ordonner breakdowns)).length (identifiants (ordonner breakdowns)) [] := by
      rw [computeParallelGroups]
      change Lib.Paliers.grouper _ _ (identifiants (ordonner breakdowns)).dedup.length
        (identifiants (ordonner breakdowns)).dedup [] = _
      rw [hdistincts]
    rw [hgroupes]
    refine ⟨fun t ht d hd => ?_, ?_, ?_, ?_, ?_⟩
    · exact (mem_depGraph hids).mpr ⟨t, ht, rfl, .inl hd⟩
    · exact Lib.Kahn.acyclique_of_rang rang fun e he => hrang e.2 e.1 ((harcs e).mp he)
    · exact (Lib.Paliers.grouper_perm htrier le_rfl).1.trans htaches
    · exact (Lib.Paliers.grouper_perm htrier le_rfl).2
    · exact Lib.Paliers.grouper_etages hrang htrier le_rfl hbesoins

end Construction

end DependencyBuilder

end Hermes.Planner
