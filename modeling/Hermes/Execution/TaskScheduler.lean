import Hermes.Lib.Dict
import Hermes.Execution.Models
import Mathlib.Logic.Function.Basic

/-! # The task registry

Every execution of the process registers its tasks here.
-/

namespace Hermes.Execution

open Lib

structure TaskScheduler where
  objets : Nat → TaskExecution
  taches : Dict String Nat := []
  dependencies : Dict String (List String) := []
  nommees : ∀ item ∈ taches, (objets item.2).taskId = item.1

namespace TaskScheduler

def MAX_RETAINED_TASKS : Nat := 512

/-- How many unfinished tasks one eviction rotates to the back. -/
def EVICT_RESCUE_LIMIT : Nat := 16

/-- The empty registry, over the objects that will ever be created. -/
def nouveau (objets : Nat → TaskExecution) : TaskScheduler where
  objets := objets
  nommees := fun _ h => absurd h List.not_mem_nil

def getTask (s : TaskScheduler) (taskId : String) : Option Nat := s.taches.get? taskId

def tache (s : TaskScheduler) (taskId : String) : Option TaskExecution :=
  (s.getTask taskId).map s.objets

theorem taskId_of_getTask {s : TaskScheduler} {taskId : String} {r : Nat}
    (h : s.getTask taskId = some r) : (s.objets r).taskId = taskId :=
  s.nommees _ (Dict.mem_of_get? h)

def ecrire (s : TaskScheduler) (r : Nat) (f : TaskExecution → TaskExecution)
    (hf : ∀ t, (f t).taskId = t.taskId) : TaskScheduler where
  objets := Function.update s.objets r (f (s.objets r))
  taches := s.taches
  dependencies := s.dependencies
  nommees := by
    intro item hitem
    rw [Function.update_apply]
    split
    · next h =>
        rw [hf, ← h]
        exact s.nommees item hitem
    · exact s.nommees item hitem

section Ecrire

variable (s : TaskScheduler) (r : Nat) (f : TaskExecution → TaskExecution)
  (hf : ∀ t, (f t).taskId = t.taskId)

@[simp] theorem objets_ecrire_self : (s.ecrire r f hf).objets r = f (s.objets r) :=
  Function.update_self ..

theorem objets_ecrire_of_ne {r' : Nat} (h : r' ≠ r) :
    (s.ecrire r f hf).objets r' = s.objets r' :=
  Function.update_of_ne h ..

@[simp] theorem getTask_ecrire (taskId : String) :
    (s.ecrire r f hf).getTask taskId = s.getTask taskId := rfl

theorem tache_ecrire_of_ne {taskId taskId' : String} (h : s.getTask taskId = some r)
    (hne : taskId' ≠ taskId) : (s.ecrire r f hf).tache taskId' = s.tache taskId' := by
  unfold tache
  rw [getTask_ecrire]
  cases h' : s.getTask taskId' with
  | none => rfl
  | some r' =>
      have hobjet : r' ≠ r := by
        intro heq
        subst heq
        exact hne ((taskId_of_getTask h').symm.trans (taskId_of_getTask h))
      simp only [Option.map_some, objets_ecrire_of_ne s r f hf hobjet]

theorem tache_ecrire_self {taskId : String} (h : s.getTask taskId = some r) :
    (s.ecrire r f hf).tache taskId = some (f (s.objets r)) := by
  unfold tache
  rw [getTask_ecrire, h, Option.map_some, objets_ecrire_self]

theorem ecrire_eq_self (h : f (s.objets r) = s.objets r) : s.ecrire r f hf = s := by
  obtain ⟨objets, taches, dependencies, nommees⟩ := s
  have hobjets : Function.update objets r (f (objets r)) = objets := by
    rw [show f (objets r) = objets r from h, Function.update_eq_self]
  unfold ecrire
  simp only [hobjets]

end Ecrire

/-- The eviction loop: `surplus` entries leave by the front, and `secours` unfinished ones
may still be rotated to the back. -/
def evincer (enCours : Nat → Bool) :
    Nat → Nat → Dict String Nat → Dict String (List String) →
      Dict String Nat × Dict String (List String)
  | 0, _, taches, dependencies => (taches, dependencies)
  | _ + 1, _, [], dependencies => ([], dependencies)
  | surplus + 1, secours, (taskId, r) :: taches, dependencies =>
      if enCours r ∧ 0 < secours then
        evincer enCours (surplus + 1) (secours - 1) (taches ++ [(taskId, r)]) dependencies
      else evincer enCours surplus secours taches (dependencies.erase taskId)
  termination_by surplus secours => surplus + secours

theorem mem_of_mem_evincer {enCours : Nat → Bool} {surplus secours : Nat}
    {taches : Dict String Nat} {dependencies : Dict String (List String)} {item : String × Nat}
    (h : item ∈ (evincer enCours surplus secours taches dependencies).1) : item ∈ taches := by
  induction surplus, secours, taches, dependencies using evincer.induct enCours with
  | case1 secours taches dependencies =>
      rw [evincer] at h
      exact h
  | case2 surplus secours dependencies =>
      rw [evincer] at h
      exact h
  | case3 surplus secours taskId r taches dependencies hrescue ih =>
      rw [evincer, if_pos hrescue] at h
      rcases List.mem_append.mp (ih h) with htail | hlast
      · exact List.mem_cons_of_mem _ htail
      · rw [List.mem_singleton.mp hlast]
        exact List.mem_cons_self
  | case4 surplus secours taskId r taches dependencies hdrop ih =>
      rw [evincer, if_neg hdrop] at h
      exact List.mem_cons_of_mem _ (ih h)

def evictOldest (s : TaskScheduler) : TaskScheduler :=
  if s.taches.length ≤ MAX_RETAINED_TASKS then s
  else
    let reste := evincer (fun r => !(s.objets r).status.terminal)
      (s.taches.length - MAX_RETAINED_TASKS) EVICT_RESCUE_LIMIT s.taches s.dependencies
    { s with
      taches := reste.1
      dependencies := reste.2
      nommees := fun item h => s.nommees item (mem_of_mem_evincer h) }

def registerTask (s : TaskScheduler) (r : Nat) (dependencies : List String) : TaskScheduler :=
  let taskId := (s.objets r).taskId
  evictOldest
    { s with
      taches := s.taches.setLast taskId r
      dependencies := s.dependencies.set taskId dependencies
      nommees := by
        intro item hitem
        rcases Dict.mem_setLast.mp hitem with ⟨hold, _⟩ | rfl
        · exact s.nommees item hold
        · rfl }

@[simp] theorem objets_registerTask (s : TaskScheduler) (r : Nat) (deps : List String) :
    (s.registerTask r deps).objets = s.objets := by
  unfold registerTask evictOldest
  dsimp only
  split <;> rfl

theorem nodup_evincer {enCours : Nat → Bool} {surplus secours : Nat} {taches : Dict String Nat}
    {dependencies : Dict String (List String)} (h : taches.keys.Nodup) :
    (evincer enCours surplus secours taches dependencies).1.keys.Nodup := by
  induction surplus, secours, taches, dependencies using evincer.induct enCours with
  | case1 secours taches dependencies =>
      rw [evincer]
      exact h
  | case2 surplus secours dependencies =>
      rw [evincer]
      exact h
  | case3 surplus secours taskId r taches dependencies hrescue ih =>
      rw [evincer, if_pos hrescue]
      apply ih
      rw [Dict.keys, List.map_append]
      exact (List.perm_append_singleton _ _).nodup_iff.mpr h
  | case4 surplus secours taskId r taches dependencies hdrop ih =>
      rw [evincer, if_neg hdrop]
      exact ih (List.nodup_cons.mp h).2

theorem nodup_registerTask {s : TaskScheduler} (h : s.taches.keys.Nodup) (r : Nat)
    (deps : List String) : (s.registerTask r deps).taches.keys.Nodup := by
  have hlast := Dict.nodup_keys_setLast h (s.objets r).taskId r
  unfold registerTask evictOldest
  dsimp only
  split
  · exact hlast
  · exact nodup_evincer hlast

theorem getTask_of_registerTask {s : TaskScheduler} (h : s.taches.keys.Nodup) {r r' : Nat}
    (hne : r' ≠ r) {deps : List String} {taskId : String}
    (hsome : (s.registerTask r' deps).getTask taskId = some r) : s.getTask taskId = some r := by
  have hmem := Dict.mem_of_get? hsome
  have hlast : (taskId, r) ∈ s.taches.setLast (s.objets r').taskId r' := by
    unfold registerTask evictOldest at hmem
    dsimp only at hmem
    split at hmem
    · exact hmem
    · exact mem_of_mem_evincer hmem
  rcases Dict.mem_setLast.mp hlast with hold | hnew
  · exact Dict.get?_of_mem h hold.1
  · cases hnew
    exact absurd rfl hne

theorem evincer_epuise (enCours : Nat → Bool) (item : String × Nat)
    (pre post : Dict String Nat) (dependencies : Dict String (List String))
    (h : ∀ item ∈ pre, enCours item.2 = true) :
    (evincer enCours 1 pre.length (pre ++ item :: post) dependencies).1 = post ++ pre := by
  induction pre generalizing post with
  | nil =>
      rw [List.nil_append, List.append_nil, evincer, if_neg (by simp), evincer]
  | cons tete pre ih =>
      have hrescue : enCours tete.2 = true ∧ 0 < (tete :: pre).length :=
        ⟨h tete List.mem_cons_self, by simp⟩
      have hih := ih (post ++ [tete]) fun item hitem => h item (List.mem_cons_of_mem _ hitem)
      rw [List.cons_append, evincer, if_pos hrescue, List.append_assoc, List.cons_append]
      simpa using hih

theorem taches_evictOldest (s : TaskScheduler) (h : s.taches.length = MAX_RETAINED_TASKS + 1) :
    s.evictOldest.taches = (evincer (fun r => !(s.objets r).status.terminal) 1
      EVICT_RESCUE_LIMIT s.taches s.dependencies).1 := by
  have hsurplus : s.taches.length - MAX_RETAINED_TASKS = 1 := by omega
  have hfull : ¬ s.taches.length ≤ MAX_RETAINED_TASKS := by omega
  unfold evictOldest
  rw [if_neg hfull]
  exact congrArg (fun surplus => (evincer _ surplus EVICT_RESCUE_LIMIT s.taches
    s.dependencies).1) hsurplus

/-- The registry holds these objects, each under its own name, the oldest first. -/
def Tient (s : TaskScheduler) (rs : List Nat) : Prop :=
  s.taches = rs.map fun r => ((s.objets r).taskId, r)

/-- No two objects bear the same name. -/
def Distinctes (s : TaskScheduler) : Prop :=
  ∀ r₁ r₂, (s.objets r₁).taskId = (s.objets r₂).taskId → r₁ = r₂

theorem Distinctes.of_objets {s s' : TaskScheduler} (h : s.Distinctes)
    (hobjets : s'.objets = s.objets) : s'.Distinctes := by
  unfold Distinctes
  rw [hobjets]
  exact h

section Tient

variable {s : TaskScheduler} {rs : List Nat} {r : Nat}

theorem notMem_keys_of_tient (h : s.Tient rs) (hnoms : s.Distinctes) (hr : r ∉ rs) :
    (s.objets r).taskId ∉ s.taches.keys := by
  rw [h, Dict.keys, List.map_map]
  intro hmem
  obtain ⟨r', hr', heq⟩ := List.mem_map.mp hmem
  exact hr (hnoms r' r heq ▸ hr')

theorem setLast_of_tient (h : s.Tient rs) (hnoms : s.Distinctes) (hr : r ∉ rs) :
    s.taches.setLast (s.objets r).taskId r =
      (rs ++ [r]).map fun r => ((s.objets r).taskId, r) := by
  rw [Dict.setLast_of_notMem (notMem_keys_of_tient h hnoms hr), List.map_append, ← h]
  rfl

theorem tient_registerTask (h : s.Tient rs) (hnoms : s.Distinctes) (hr : r ∉ rs)
    (hplace : rs.length < MAX_RETAINED_TASKS) (deps : List String) :
    (s.registerTask r deps).Tient (rs ++ [r]) := by
  have hlast := setLast_of_tient h hnoms hr
  have hlength : (s.taches.setLast (s.objets r).taskId r).length ≤ MAX_RETAINED_TASKS := by
    rw [hlast, List.length_map, List.length_append, List.length_singleton]
    omega
  unfold Tient
  rw [objets_registerTask, ← hlast]
  unfold registerTask evictOldest
  dsimp only
  rw [if_pos hlength]

theorem tient_registerTask_plein {pre post : List Nat} {r' : Nat}
    (h : s.Tient (pre ++ r' :: post)) (hnoms : s.Distinctes) (hr : r ∉ pre ++ r' :: post)
    (hplein : (pre ++ r' :: post).length = MAX_RETAINED_TASKS)
    (hpre : pre.length = EVICT_RESCUE_LIMIT)
    (henCours : ∀ r ∈ pre, (s.objets r).status.terminal = false) (deps : List String) :
    (s.registerTask r deps).Tient (post ++ r :: pre) := by
  have hlast := setLast_of_tient h hnoms hr
  have hlength : (s.taches.setLast (s.objets r).taskId r).length = MAX_RETAINED_TASKS + 1 := by
    rw [hlast, List.length_map, List.length_append, hplein, List.length_singleton]
  have hepuise := evincer_epuise (fun r => !(s.objets r).status.terminal)
    ((s.objets r').taskId, r') (pre.map fun r => ((s.objets r).taskId, r))
    ((post ++ [r]).map fun r => ((s.objets r).taskId, r))
    (s.dependencies.set (s.objets r).taskId deps) (by simpa using henCours)
  rw [List.length_map, hpre] at hepuise
  unfold Tient
  rw [objets_registerTask]
  unfold registerTask
  dsimp only
  rw [taches_evictOldest _ hlength]
  dsimp only
  rw [hlast]
  simpa using hepuise

theorem nodup_of_tient (h : s.Tient rs) (hnoms : s.Distinctes) (hrs : rs.Nodup) :
    s.taches.keys.Nodup := by
  rw [h, Dict.keys, List.map_map]
  exact hrs.map hnoms

theorem getTask_of_tient (h : s.Tient rs) (hnoms : s.Distinctes) (hr : r ∉ rs) :
    s.getTask (s.objets r).taskId = none :=
  Dict.get?_eq_none (notMem_keys_of_tient h hnoms hr)

end Tient

def updateTask (s : TaskScheduler) (taskId : String) (status : TaskExecutionStatus)
    (result : Option String) : TaskScheduler :=
  match s.getTask taskId with
  | none => s
  | some r =>
      s.ecrire r (fun t => { t with status := status, result := result.or t.result })
        fun _ => rfl

theorem updateTask_status_self {s : TaskScheduler} {taskId : String} {r : Nat}
    (h : s.getTask taskId = some r) : s.updateTask taskId (s.objets r).status none = s := by
  unfold updateTask
  rw [h]
  exact ecrire_eq_self s r _ _ rfl

def allDone (s : TaskScheduler) (taskIds : List String) : Bool :=
  !taskIds.isEmpty && taskIds.all fun taskId =>
    match s.tache taskId with
    | none => false
    | some t => t.status.terminal

theorem allDone_iff {s : TaskScheduler} {taskIds : List String} :
    s.allDone taskIds = true ↔
      taskIds ≠ [] ∧
        ∀ taskId ∈ taskIds, ∃ t, s.tache taskId = some t ∧ t.status.terminal = true := by
  unfold allDone
  simp only [Bool.and_eq_true, Bool.not_eq_true', List.isEmpty_eq_false_iff, List.all_eq_true]
  refine and_congr_right fun _ => forall₂_congr fun taskId _ => ?_
  cases s.tache taskId with
  | none => simp
  | some t => simp

end TaskScheduler

end Hermes.Execution
