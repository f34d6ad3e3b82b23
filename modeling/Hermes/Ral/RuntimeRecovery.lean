import Hermes.Lib.Dict
import Hermes.Ral.CircuitBreaker

/-! # One breaker for each runtime

The recovery manager keeps a breaker for each runtime name and makes it at the first call.
-/

namespace Hermes.Ral

open Lib

structure RuntimeRecoveryManager where
  reglage : Reglage
  breakers : Dict String CircuitBreaker := []

structure AppelDe where
  runtime : String
  appel : Appel
  deriving DecidableEq

/-- A compatible runtime as a fallback search meets it: the name the registry knows it
under, its health, and the clock when it is queried. -/
structure Candidat where
  nom : Option String
  sain : Bool
  instant : Rat
  deriving DecidableEq

namespace RuntimeRecoveryManager

def getBreaker (m : RuntimeRecoveryManager) (runtime : String) : CircuitBreaker :=
  m.breakers.getD runtime {}

def appeler (m : RuntimeRecoveryManager) (a : AppelDe) : RuntimeRecoveryManager × Pas :=
  let pas := faire m.reglage (m.getBreaker a.runtime) a.appel
  ({ m with breakers := m.breakers.set a.runtime pas.apres }, pas)

def shouldRetry (m : RuntimeRecoveryManager) (runtime : String) (now : Rat) :
    RuntimeRecoveryManager × Bool :=
  let (m, pas) := m.appeler ⟨runtime, .isAllowed, now⟩
  (m, pas.permis)

def selectFallback (exclude : List String) :
    RuntimeRecoveryManager → List Candidat → RuntimeRecoveryManager × Option Candidat
  | m, [] => (m, none)
  | m, candidat :: candidats =>
      match candidat.nom with
      | none => selectFallback exclude m candidats
      | some nom =>
          if nom ∈ exclude then selectFallback exclude m candidats
          else
            let (m, permis) := m.shouldRetry nom candidat.instant
            if permis && candidat.sain then (m, some candidat)
            else selectFallback exclude m candidats

inductive Operation where
  | shouldRetry (runtime : String) (now : Rat)
  | recordFailure (runtime : String) (now : Rat)
  | recordSuccess (runtime : String) (now : Rat)
  | reset (runtime : String) (now : Rat)
  | selectFallback (failed : String) (exclude : List String) (candidats : List Candidat)

def executer (m : RuntimeRecoveryManager) : Operation → RuntimeRecoveryManager
  | .shouldRetry runtime now => (m.shouldRetry runtime now).1
  | .recordFailure runtime now => (m.appeler ⟨runtime, .recordFailure, now⟩).1
  | .recordSuccess runtime now => (m.appeler ⟨runtime, .recordSuccess, now⟩).1
  | .reset runtime now => (m.appeler ⟨runtime, .reset, now⟩).1
  | .selectFallback failed exclude candidats =>
      (selectFallback (failed :: exclude) m candidats).1

def appelerTout (m : RuntimeRecoveryManager) (appels : List AppelDe) : RuntimeRecoveryManager :=
  appels.foldl (fun m a => (m.appeler a).1) m

def appelsDe (runtime : String) (appels : List AppelDe) : List Appel :=
  (appels.filter fun a => a.runtime = runtime).map AppelDe.appel

theorem getBreaker_appeler (m : RuntimeRecoveryManager) (a : AppelDe) (runtime : String) :
    (m.appeler a).1.getBreaker runtime =
      if runtime = a.runtime then (faire m.reglage (m.getBreaker runtime) a.appel).apres
      else m.getBreaker runtime := by
  unfold appeler getBreaker
  rw [Dict.getD_set]
  split
  · next h => rw [h]
  · rfl

theorem getBreaker_appelerTout (m : RuntimeRecoveryManager) (appels : List AppelDe)
    (runtime : String) :
    (m.appelerTout appels).getBreaker runtime =
      apresTout m.reglage (m.getBreaker runtime) (appelsDe runtime appels) := by
  induction appels generalizing m with
  | nil => rfl
  | cons a appels ih =>
      have hhead : (m.appelerTout (a :: appels)).getBreaker runtime =
          apresTout m.reglage ((m.appeler a).1.getBreaker runtime) (appelsDe runtime appels) :=
        ih (m.appeler a).1
      rw [hhead, getBreaker_appeler]
      by_cases h : runtime = a.runtime
      · rw [if_pos h, show appelsDe runtime (a :: appels) = a.appel :: appelsDe runtime appels from
          by simp [appelsDe, h]]
        rfl
      · rw [if_neg h, show appelsDe runtime (a :: appels) = appelsDe runtime appels from
          by simp [appelsDe, Ne.symm h]]

theorem selectFallback_appels (exclude : List String) (m : RuntimeRecoveryManager)
    (candidats : List Candidat) :
    ∃ appels, (selectFallback exclude m candidats).1 = m.appelerTout appels ∧
      ∀ a ∈ appels, a.appel.methode = .isAllowed ∧ a.runtime ∉ exclude := by
  induction candidats generalizing m with
  | nil => exact ⟨[], rfl, by simp⟩
  | cons candidat candidats ih =>
      unfold selectFallback
      split
      · exact ih m
      · next nom _ =>
          split
          · exact ih m
          · next hfree =>
              dsimp only
              split
              · exact ⟨[⟨nom, .isAllowed, candidat.instant⟩], rfl, by simpa using hfree⟩
              · obtain ⟨appels, hreste, hqueries⟩ := ih (m.shouldRetry nom candidat.instant).1
                refine ⟨⟨nom, .isAllowed, candidat.instant⟩ :: appels, hreste, ?_⟩
                intro a ha
                rcases List.mem_cons.mp ha with rfl | ha
                · exact ⟨rfl, hfree⟩
                · exact hqueries a ha

theorem executer_appels (m : RuntimeRecoveryManager) (op : Operation) :
    ∃ appels, m.executer op = m.appelerTout appels := by
  cases op with
  | shouldRetry runtime now => exact ⟨[⟨runtime, .isAllowed, now⟩], rfl⟩
  | recordFailure runtime now => exact ⟨[⟨runtime, .recordFailure, now⟩], rfl⟩
  | recordSuccess runtime now => exact ⟨[⟨runtime, .recordSuccess, now⟩], rfl⟩
  | reset runtime now => exact ⟨[⟨runtime, .reset, now⟩], rfl⟩
  | selectFallback failed exclude candidats =>
      obtain ⟨appels, hegal, -⟩ := selectFallback_appels (failed :: exclude) m candidats
      exact ⟨appels, hegal⟩

theorem getBreaker_executer (c : Reglage) (operations : List Operation) :
    ∃ appels, ∀ runtime, (operations.foldl executer { reglage := c }).getBreaker runtime =
      apresTout c {} (appelsDe runtime appels) := by
  have hrun : ∀ m : RuntimeRecoveryManager,
      ∃ appels, operations.foldl executer m = m.appelerTout appels := by
    induction operations with
    | nil => exact fun _ => ⟨[], rfl⟩
    | cons op operations ih =>
        intro m
        obtain ⟨premiers, hop⟩ := executer_appels m op
        obtain ⟨suite, hsuite⟩ := ih (m.executer op)
        refine ⟨premiers ++ suite, hsuite.trans ?_⟩
        rw [hop, appelerTout, appelerTout, appelerTout, List.foldl_append]
  obtain ⟨appels, hegal⟩ := hrun { reglage := c }
  refine ⟨appels, fun runtime => ?_⟩
  rw [hegal]
  exact getBreaker_appelerTout _ appels runtime

theorem selectFallback_choisi {exclude : List String} {m : RuntimeRecoveryManager}
    {candidats : List Candidat} {k : Candidat}
    (h : (selectFallback exclude m candidats).2 = some k) :
    k ∈ candidats ∧ k.sain = true ∧ ∃ nom appels, k.nom = some nom ∧ nom ∉ exclude ∧
      (∀ a ∈ appels, a.appel.methode = .isAllowed) ∧
        shouldRetry (m.appelerTout appels) nom k.instant =
          ((selectFallback exclude m candidats).1, true) := by
  induction candidats generalizing m with
  | nil => cases h
  | cons candidat candidats ih =>
      unfold selectFallback at h ⊢
      split at h
      · exact And.imp_left (List.mem_cons_of_mem candidat) (ih h)
      · next autre _ =>
          split at h
          · next hexclu =>
              rw [if_pos hexclu]
              exact And.imp_left (List.mem_cons_of_mem candidat) (ih h)
          · next hnom hlibre =>
              rw [if_neg hlibre]
              dsimp only at h ⊢
              split at h
              · next hpris =>
                  cases h
                  obtain ⟨hpermis, hsain⟩ := Bool.and_eq_true_iff.mp hpris
                  rw [if_pos hpris]
                  exact ⟨List.mem_cons_self, hsain, autre, [], hnom, hlibre, nofun,
                    Prod.ext rfl hpermis⟩
              · next hpasse =>
                  rw [if_neg hpasse]
                  obtain ⟨hmem, hsain, nom, appels, hnom', hlibre', hqueries, hpermis⟩ := ih h
                  exact ⟨List.mem_cons_of_mem candidat hmem, hsain, nom,
                    ⟨autre, .isAllowed, candidat.instant⟩ :: appels, hnom', hlibre',
                    List.forall_mem_cons.mpr ⟨rfl, hqueries⟩, hpermis⟩

end RuntimeRecoveryManager

end Hermes.Ral
