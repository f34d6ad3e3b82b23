import Hermes.Execution.TaskScheduler
import Hermes.Lib.Page
import Mathlib.Data.List.Sort

/-! # What the scheduler says can run

Two computations of what is ready stand over one registry.
-/

namespace Hermes.Execution

open Lib

/-- The statuses under which a dependency is satisfied. -/
def TaskExecutionStatus.satisfait : TaskExecutionStatus → Bool
  | completed | skipped => true
  | pending | scheduled | running | waiting | validating | failed => false

/-- `waves` are lists of ids that may run together. Nothing fills `failed`. -/
structure SchedulePlan where
  waves : List (List String) := []
  blocked : List String := []
  failed : List String := []
  totalTasks : Nat := 0
  readyCount : Nat := 0
  deriving DecidableEq

namespace TaskScheduler

variable (s : TaskScheduler)

def isDepSatisfied (depId : String) : Bool :=
  match s.tache depId with
  | none => false
  | some t => t.status.satisfait

/-- `self._dependencies.get(tid, set())` -/
def dependancesDe (taskId : String) : List String := s.dependencies.getD taskId []

def priorityValue (_ : TaskExecution) : Int := 2

def getReadyTasks (maxCount : Option Int) : List String :=
  let ready := s.taches.filterMap fun item =>
    if (s.objets item.2).status = .pending ∧
        (s.dependancesDe item.1).all s.isDepSatisfied = true then
      some (item.1, priorityValue (s.objets item.2))
    else none
  let ready := ready.insertionSort fun a b => b.2 ≤ a.2
  (match maxCount with
    | none => ready
    | some n => Page.slice ready 0 (some n)).map Prod.fst

def enAttente (taskId : String) : Bool := (s.tache taskId).any fun t => t.status = .pending

/-- One wave: what is pending among the rest, when every dependency is in the completed set. -/
def vague (remaining completed : List String) : List String :=
  (remaining.insertionSort (· ≤ ·)).filter fun tid =>
    (s.dependancesDe tid).all (· ∈ completed) && s.enAttente tid

/-- The waves, and what is left at the first empty one. -/
def vagues : Nat → List String → List String → List (List String) × List String
  | 0, remaining, _ => ([], remaining)
  | fuel + 1, remaining, completed =>
      let wave := s.vague remaining completed
      if wave = [] then ([], remaining)
      else
        let suite := vagues fuel (remaining.filter (· ∉ wave)) (completed ++ wave)
        (wave :: suite.1, suite.2)

def buildPlan : SchedulePlan :=
  let plan := s.vagues s.taches.length s.taches.keys []
  { waves := plan.1
    blocked := plan.2
    totalTasks := s.taches.length
    readyCount := (plan.1.map List.length).sum }

section Lectures

variable {s} {tid : String}

theorem tache_of_mem (h : s.taches.keys.Nodup) {item : String × Nat} (hitem : item ∈ s.taches) :
    s.tache item.1 = some (s.objets item.2) := by
  unfold tache getTask
  rw [Dict.get?_of_mem h hitem]
  rfl

theorem enAttente_iff :
    s.enAttente tid = true ↔ ∃ r, s.getTask tid = some r ∧ (s.objets r).status = .pending := by
  unfold enAttente tache
  cases s.getTask tid with
  | none => simp
  | some r => simp

theorem mem_getReadyTasks (h : s.taches.keys.Nodup) :
    tid ∈ s.getReadyTasks none ↔
      s.enAttente tid = true ∧ ∀ d ∈ s.dependancesDe tid, s.isDepSatisfied d = true := by
  rw [enAttente_iff]
  simp only [getReadyTasks, List.mem_map, List.mem_insertionSort, List.mem_filterMap]
  constructor
  · rintro ⟨paire, ⟨item, hitem, hpaire⟩, rfl⟩
    split at hpaire
    · next hpret =>
        cases hpaire
        exact ⟨⟨item.2, Dict.get?_of_mem h hitem, hpret.1⟩, List.all_eq_true.mp hpret.2⟩
    · cases hpaire
  · rintro ⟨⟨r, hr, hpending⟩, hdeps⟩
    refine ⟨(tid, priorityValue (s.objets r)), ⟨(tid, r), Dict.mem_of_get? hr, ?_⟩, rfl⟩
    rw [if_pos ⟨hpending, List.all_eq_true.mpr hdeps⟩]

theorem mem_vague {remaining completed : List String} :
    tid ∈ s.vague remaining completed ↔
      tid ∈ remaining ∧ s.enAttente tid = true ∧ ∀ d ∈ s.dependancesDe tid, d ∈ completed := by
  simp only [vague, List.mem_filter, List.mem_insertionSort, Bool.and_eq_true, List.all_eq_true,
    decide_eq_true_eq]
  tauto

end Lectures

section Vagues

variable {s} {tid : String} {fuel : Nat} {remaining completed : List String}

theorem mem_vagues (tid : String) {i : Nat} {wave : List String}
    (h : (s.vagues fuel remaining completed).1[i]? = some wave) :
    tid ∈ wave ↔ tid ∈ remaining ∧ s.enAttente tid = true ∧
      tid ∉ ((s.vagues fuel remaining completed).1.take i).flatten ∧
      ∀ d ∈ s.dependancesDe tid, d ∈ completed ∨
        d ∈ ((s.vagues fuel remaining completed).1.take i).flatten := by
  induction fuel generalizing remaining completed i with
  | zero => simp [vagues] at h
  | succ fuel ih =>
      simp only [vagues] at h ⊢
      split at h
      · simp at h
      · next hne =>
          rw [if_neg hne]
          cases i with
          | zero =>
              simp only [List.getElem?_cons_zero, Option.some.injEq] at h
              subst h
              simp [mem_vague]
          | succ i =>
              rw [List.getElem?_cons_succ] at h
              rw [ih h]
              simp only [List.mem_filter, decide_eq_true_eq, List.take_succ_cons,
                List.flatten_cons, List.mem_append, not_or, or_assoc]
              tauto

theorem mem_vagues_or_blocked (s : TaskScheduler) (fuel : Nat) (completed : List String)
    (hmem : tid ∈ remaining) :
    tid ∈ (s.vagues fuel remaining completed).1.flatten ∨
      tid ∈ (s.vagues fuel remaining completed).2 := by
  induction fuel generalizing remaining completed with
  | zero => exact .inr hmem
  | succ fuel ih =>
      simp only [vagues]
      split
      · exact .inr hmem
      · by_cases hwave : tid ∈ s.vague remaining completed
        · exact .inl (List.mem_flatten.mpr ⟨_, List.mem_cons_self, hwave⟩)
        · have hreste : tid ∈ remaining.filter (· ∉ s.vague remaining completed) :=
            List.mem_filter.mpr ⟨hmem, by simpa using hwave⟩
          rcases ih (completed ++ s.vague remaining completed) hreste with h | h
          · exact .inl (by rw [List.flatten_cons]; exact List.mem_append_right _ h)
          · exact .inr h

theorem vagues_bloquees (s : TaskScheduler) (completed : List String)
    (hfuel : remaining.length ≤ fuel) :
    (∀ tid ∈ (s.vagues fuel remaining completed).2, tid ∈ remaining ∧
        tid ∉ (s.vagues fuel remaining completed).1.flatten) ∧
      s.vague (s.vagues fuel remaining completed).2
        (completed ++ (s.vagues fuel remaining completed).1.flatten) = [] := by
  induction fuel generalizing remaining completed with
  | zero =>
      have hnil : remaining = [] := List.length_eq_zero_iff.mp (by omega)
      subst hnil
      simp [vagues, vague]
  | succ fuel ih =>
      simp only [vagues]
      split
      · next hnil => exact ⟨fun tid htid => ⟨htid, by simp⟩, by simpa using hnil⟩
      · next hne =>
          obtain ⟨premier, hpremier⟩ := List.exists_mem_of_ne_nil _ hne
          have hlt : (remaining.filter (· ∉ s.vague remaining completed)).length
              < remaining.length := by
            rw [List.length_filter_lt_length_iff_exists]
            exact ⟨premier, (mem_vague.mp hpremier).1, by simpa using hpremier⟩
          obtain ⟨hrestes, hfin⟩ := @ih (remaining.filter (· ∉ s.vague remaining completed))
            (completed ++ s.vague remaining completed) (by omega)
          refine ⟨fun tid htid => ?_, by simpa [List.append_assoc] using hfin⟩
          obtain ⟨hmem, hdehors⟩ := hrestes tid htid
          rw [List.mem_filter, decide_eq_true_eq] at hmem
          refine ⟨hmem.1, ?_⟩
          rw [List.flatten_cons, List.mem_append, not_or]
          exact ⟨hmem.2, hdehors⟩

end Vagues

/-- The task is pending, and each of its dependencies is satisfied or can be reached as well. -/
inductive Atteignable : String → Prop
  | suite {tid : String} (attente : s.enAttente tid = true)
      (deps : ∀ d ∈ s.dependancesDe tid, s.isDepSatisfied d = false → Atteignable d) :
      Atteignable tid

structure PlanFidele : Prop where
  premiere : ∀ tid, tid ∈ s.buildPlan.waves.headD [] ↔ tid ∈ s.getReadyTasks none
  suivantes : ∀ i wave, 0 < i → s.buildPlan.waves[i]? = some wave → ∀ tid, tid ∈ wave ↔
    s.enAttente tid = true ∧ tid ∉ (s.buildPlan.waves.take i).flatten ∧
      ∀ d ∈ s.dependancesDe tid, s.isDepSatisfied d = true ∨
        d ∈ (s.buildPlan.waves.take i).flatten
  bloquees : ∀ tid ∈ s.buildPlan.blocked, s.enAttente tid = true ∧ ¬ s.Atteignable tid

section Plan

variable {s} {tid : String}

theorem mem_keys_of_enAttente (h : s.enAttente tid = true) : tid ∈ s.taches.keys := by
  obtain ⟨r, hr, -⟩ := enAttente_iff.mp h
  exact Dict.mem_keys_of_isSome (by rw [show s.taches.get? tid = some r from hr]; rfl)

theorem enAttente_of_mem_waves {wave : List String} (hwave : wave ∈ s.buildPlan.waves)
    (htid : tid ∈ wave) : s.enAttente tid = true := by
  obtain ⟨i, hi⟩ := List.getElem?_of_mem hwave
  exact ((mem_vagues tid hi).mp htid).2.1

theorem mem_premiere :
    tid ∈ s.buildPlan.waves.headD [] ↔ s.enAttente tid = true ∧ s.dependancesDe tid = [] := by
  have hvague : tid ∈ s.vague s.taches.keys [] ↔
      s.enAttente tid = true ∧ s.dependancesDe tid = [] := by
    rw [mem_vague]
    simp only [List.not_mem_nil, imp_false, ← List.eq_nil_iff_forall_not_mem]
    exact ⟨fun h => h.2, fun h => ⟨mem_keys_of_enAttente h.1, h⟩⟩
  rw [← hvague]
  unfold buildPlan
  dsimp only
  cases hlength : s.taches.length with
  | zero =>
      have hnil : s.taches = [] := List.length_eq_zero_iff.mp hlength
      simp [vagues, vague, hnil, Dict.keys]
  | succ n =>
      simp only [vagues]
      split
      · next hnil => simp [hnil]
      · simp

theorem mem_blocked_of_not_enAttente (hmem : tid ∈ s.taches.keys)
    (h : s.enAttente tid = false) : tid ∈ s.buildPlan.blocked := by
  rcases mem_vagues_or_blocked s s.taches.length [] hmem with
    hwave | hblocked
  · obtain ⟨wave, hwave, htid⟩ := List.mem_flatten.mp hwave
    rw [enAttente_of_mem_waves hwave htid] at h
    cases h
  · exact hblocked

theorem mem_waves_of_atteignable (hrien : ∀ d, s.isDepSatisfied d = false)
    (h : s.Atteignable tid) : tid ∈ s.buildPlan.waves.flatten := by
  have hlength : s.taches.keys.length ≤ s.taches.length := by simp [Dict.keys]
  have hfin := (vagues_bloquees s [] hlength).2
  induction h with
  | @suite tid attente deps ih =>
      have hdeps : ∀ d ∈ s.dependancesDe tid, d ∈ s.buildPlan.waves.flatten :=
        fun d hd => ih d hd (hrien d)
      rcases mem_vagues_or_blocked s s.taches.length []
        (mem_keys_of_enAttente attente) with hwave | hblocked
      · exact hwave
      · have hmem : tid ∈ s.vague s.buildPlan.blocked ([] ++ s.buildPlan.waves.flatten) :=
          mem_vague.mpr ⟨hblocked, attente, hdeps⟩
        rw [show s.vague s.buildPlan.blocked ([] ++ s.buildPlan.waves.flatten) = [] from hfin]
          at hmem
        cases hmem

/-- The plan agrees with what is ready exactly when every registered task is pending. -/
theorem planFidele_iff (h : s.taches.keys.Nodup) :
    s.PlanFidele ↔ ∀ item ∈ s.taches, (s.objets item.2).status = .pending := by
  have hattente : ∀ item ∈ s.taches,
      (s.enAttente item.1 = true ↔ (s.objets item.2).status = .pending) := by
    intro item hitem
    simp [enAttente, tache_of_mem h hitem]
  constructor
  · intro hfidele item hitem
    rw [← hattente item hitem]
    by_contra hnot
    have hblocked := mem_blocked_of_not_enAttente (List.mem_map_of_mem hitem) (by simpa using hnot)
    exact hnot (hfidele.bloquees item.1 hblocked).1
  · intro hpending
    have hrien : ∀ d, s.isDepSatisfied d = false := by
      intro d
      unfold isDepSatisfied tache
      cases hget : s.getTask d with
      | none => rfl
      | some r =>
          have hstatus := hpending (d, r) (Dict.mem_of_get? hget)
          simp [hstatus, TaskExecutionStatus.satisfait]
    have hkeys : ∀ tid, tid ∈ s.taches.keys → s.enAttente tid = true := by
      intro tid htid
      obtain ⟨item, hitem, rfl⟩ := List.mem_map.mp htid
      exact (hattente item hitem).mpr (hpending item hitem)
    refine ⟨fun tid => ?_, fun i wave _ hwave tid => ?_, fun tid htid => ?_⟩
    · rw [mem_premiere, mem_getReadyTasks h]
      simp only [hrien, Bool.false_eq_true, imp_false, ← List.eq_nil_iff_forall_not_mem]
    · have hmem := mem_vagues tid hwave
      simp only [hrien, Bool.false_eq_true, false_or]
      rw [hmem]
      simp only [List.not_mem_nil, false_or]
      exact ⟨fun h => h.2, fun h => ⟨mem_keys_of_enAttente h.1, h⟩⟩
    · have hlength : s.taches.keys.length ≤ s.taches.length := by simp [Dict.keys]
      obtain ⟨hmem, hdehors⟩ := (vagues_bloquees s [] hlength).1 tid htid
      exact ⟨hkeys tid hmem, fun hatteint => hdehors (mem_waves_of_atteignable hrien hatteint)⟩

end Plan

/-- `b` depends on `a`, which is completed. -/
def dependanceFinie : TaskScheduler where
  objets := fun r =>
    if r = 0 then { taskId := "a", status := .completed } else { taskId := "b" }
  taches := [("a", 0), ("b", 1)]
  dependencies := [("a", []), ("b", ["a"])]
  nommees := by decide

theorem planFidele_iff_dependanceFinie :
    dependanceFinie.PlanFidele ↔
      ∀ item ∈ dependanceFinie.taches, (dependanceFinie.objets item.2).status = .pending :=
  planFidele_iff (by decide)

/-- `b` is ready, and the plan blocks it beside the task it waits for. -/
theorem dependanceFinie_bloquee :
    dependanceFinie.getReadyTasks none = ["b"] ∧ dependanceFinie.buildPlan.waves = [] ∧
      dependanceFinie.buildPlan.blocked = ["a", "b"] ∧ ¬ dependanceFinie.PlanFidele := by
  have hwaves : dependanceFinie.buildPlan.waves = [] := by decide
  have hready : dependanceFinie.getReadyTasks none = ["b"] := by decide
  refine ⟨hready, hwaves, by decide, fun hfidele => ?_⟩
  have hpremiere := (hfidele.premiere "b").mpr (by rw [hready]; exact List.mem_cons_self)
  rw [hwaves] at hpremiere
  cases hpremiere

end TaskScheduler

end Hermes.Execution
