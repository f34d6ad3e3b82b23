import Hermes.Lib.Dict
import Mathlib.Data.List.Count

/-! # Recoveries under several threads

A step of a run is a new call or one atomic part of a call. The run chooses what an action answers
and where a call raises. Attempts and incidents have fresh identifiers: an attempt is recorded at
the end of the list, an incident is named by its rank.
-/

namespace Hermes.Recovery

open Lib

variable {α : Type*}

structure RecoveryPolicy (α : Type*) where
  policyId : String
  incidentTypes : List String
  actions : List α
  maxAttempts : Int
  cooldownSeconds : Rat
  enabled : Bool
  priority : Int

structure RecoveryIncident where
  incidentId : Nat
  incidentType : String
  runtimeId : String

inductive RecoveryStatus where
  | pending
  | inProgress
  | completed
  | failed
  | cancelled
  deriving DecidableEq

structure RecoveryAttempt (α : Type*) where
  incidentId : Nat
  status : RecoveryStatus
  actions : List α
  results : List Bool

structure RecoveryPolicyEngine (α : Type*) where
  policies : List (RecoveryPolicy α)
  cles : (policies.map RecoveryPolicy.policyId).Nodup
  cooldowns : Dict (String × String) Rat := []

/-- Where a call stands. A call that raised may have lost an execution. -/
inductive Phase (α : Type*) where
  | apparier
  | admettre (retenues : List (RecoveryPolicy α))
  | agir (policy : RecoveryPolicy α) (attempt : RecoveryAttempt α)
      (reste : List (RecoveryPolicy α))
  | marquer (policy : RecoveryPolicy α) (reste : List (RecoveryPolicy α))
  | rendue
  | levee (perdue : Bool)

/-- A call of `on_runtime_event`, or of `retry_incident` when `manuel` holds. -/
structure Appel (α : Type*) where
  incident : RecoveryIncident
  manuel : Bool
  phase : Phase α

/-- `departs` keeps the policy and the runtime of each execution that was admitted. -/
structure RecoveryEngine (α : Type*) where
  policyEngine : RecoveryPolicyEngine α
  incidents : List RecoveryIncident := []
  recus : Nat := 0
  attempts : List (RecoveryAttempt α) := []
  attemptCounters : Dict (String × String) Nat := []
  appels : List (Appel α) := []
  departs : List (String × String) := []

def inCooldown (pe : RecoveryPolicyEngine α) (p : RecoveryPolicy α) (runtimeId : String)
    (now : Rat) : Bool :=
  match pe.cooldowns.get? (p.policyId, runtimeId) with
  | none => false
  | some last => now - last < p.cooldownSeconds

def apparies (pe : RecoveryPolicyEngine α) (incident : RecoveryIncident) (now : Rat) :
    List (RecoveryPolicy α) :=
  (pe.policies.filter fun p => p.enabled && p.incidentTypes.contains incident.incidentType &&
    !inCooldown pe p incident.runtimeId now).mergeSort fun p q => q.priority ≤ p.priority

def markCooldown (pe : RecoveryPolicyEngine α) (p : RecoveryPolicy α) (runtimeId : String)
    (now : Rat) : RecoveryPolicyEngine α :=
  { pe with cooldowns := pe.cooldowns.set (p.policyId, runtimeId) now }

namespace RecoveryAttempt

/-- The loop over the actions is over. -/
def fini (t : RecoveryAttempt α) : Bool :=
  t.results.length = t.actions.length || t.results.contains false

def conclure (t : RecoveryAttempt α) : RecoveryAttempt α :=
  { t with status := if t.results.all id then .completed else .failed }

/-- All its actions have succeeded, or the last one it tried is the first that did not. -/
def Fidele (t : RecoveryAttempt α) : Prop :=
  t.status = .completed ∧ t.results = List.replicate t.actions.length true ∨
    t.status = .failed ∧ ∃ n < t.actions.length, t.results = List.replicate n true ++ [false]

def EnCours (t : RecoveryAttempt α) : Prop :=
  (∃ n ≤ t.actions.length, t.results = List.replicate n true) ∨
    ∃ n < t.actions.length, t.results = List.replicate n true ++ [false]

theorem EnCours.agir {t : RecoveryAttempt α} (h : t.EnCours) (hfini : t.fini ≠ true)
    (success : Bool) : EnCours { t with results := t.results ++ [success] } := by
  obtain ⟨n, hn, hresults⟩ | ⟨n, hn, hresults⟩ := h
  · have hlt : n < t.actions.length :=
      Nat.lt_of_le_of_ne hn fun heq => hfini (by simp [fini, hresults, heq])
    cases success with
    | true => exact .inl ⟨n + 1, hlt, by rw [hresults, List.replicate_succ']⟩
    | false => exact .inr ⟨n, hlt, by rw [hresults]⟩
  · exact absurd (by simp [fini, hresults]) hfini

theorem EnCours.conclure {t : RecoveryAttempt α} (h : t.EnCours) (hfini : t.fini = true) :
    t.conclure.Fidele := by
  obtain ⟨n, hn, hresults⟩ | ⟨n, hn, hresults⟩ := h
  · have hlongueur : n = t.actions.length := by simpa [fini, hresults] using hfini
    exact .inl ⟨by simp [RecoveryAttempt.conclure, hresults], hlongueur ▸ hresults⟩
  · exact .inr ⟨by simp [RecoveryAttempt.conclure, hresults], n, hn, hresults⟩

end RecoveryAttempt

inductive Geste where
  | apparier (now : Rat)
  | admettre
  | agir (success : Bool)
  | consigner
  | marquer (now : Rat)
  | lever

inductive Pas where
  | onRuntimeEvent (eventType runtimeId : String)
  | retryIncident (incidentId : Nat)
  | avancer (rang : Nat) (geste : Geste)

namespace RecoveryEngine

def onRuntimeEvent (e : RecoveryEngine α) (eventType runtimeId : String) : RecoveryEngine α :=
  let incident : RecoveryIncident := ⟨e.recus, eventType, runtimeId⟩
  let incidents := e.incidents ++ [incident]
  { e with
    recus := e.recus + 1
    incidents := incidents.drop (incidents.length - 1000)
    appels := e.appels ++ [⟨incident, false, .apparier⟩] }

def retryIncident (e : RecoveryEngine α) (incidentId : Nat) : RecoveryEngine α :=
  match e.incidents.reverse.find? fun inc => inc.incidentId = incidentId with
  | none => e
  | some incident => { e with appels := e.appels ++ [⟨incident, true, .apparier⟩] }

def poser (e : RecoveryEngine α) (i : Nat) (a : Appel α) (phase : Phase α) : RecoveryEngine α :=
  { e with appels := e.appels.set i { a with phase := phase } }

/-- The head of the loop of `on_runtime_event`, and the locked part of `_execute_policy`. -/
def admettre (e : RecoveryEngine α) (i : Nat) (a : Appel α) :
    List (RecoveryPolicy α) → RecoveryEngine α
  | [] => e.poser i a .rendue
  | p :: reste =>
      let cle := (p.policyId, a.incident.runtimeId)
      let n := e.attemptCounters.getD cle 0
      if p.maxAttempts ≤ n then e.poser i a (.admettre reste)
      else
        { e.poser i a (.agir p ⟨a.incident.incidentId, .inProgress, p.actions, []⟩ reste) with
          attemptCounters := e.attemptCounters.set cle (n + 1)
          departs := e.departs ++ [cle] }

/-- A call that is not there yet for a gesture stays where it is. -/
def avancer (e : RecoveryEngine α) (i : Nat) (a : Appel α) : Phase α → Geste → RecoveryEngine α
  | .apparier, .apparier now =>
      let retenues := apparies e.policyEngine a.incident now
      e.poser i a (.admettre (if a.manuel then retenues.take 1 else retenues))
  | .admettre retenues, .admettre => e.admettre i a retenues
  | .agir p t reste, .agir success =>
      if t.fini then e else e.poser i a (.agir p { t with results := t.results ++ [success] } reste)
  | .agir p t reste, .consigner =>
      if t.fini then
        { e.poser i a (.marquer p reste) with attempts := e.attempts ++ [t.conclure] }
      else e
  | .marquer p reste, .marquer now =>
      { e.poser i a (.admettre reste) with
        policyEngine := markCooldown e.policyEngine p a.incident.runtimeId now }
  | .agir .., .lever => e.poser i a (.levee true)
  | .marquer .., .lever => e.poser i a (.levee false)
  | _, _ => e

def executer (e : RecoveryEngine α) : Pas → RecoveryEngine α
  | .onRuntimeEvent eventType runtimeId => e.onRuntimeEvent eventType runtimeId
  | .retryIncident incidentId => e.retryIncident incidentId
  | .avancer i geste =>
      match e.appels[i]? with
      | none => e
      | some a => e.avancer i a a.phase geste

def apres (pe : RecoveryPolicyEngine α) (run : List Pas) : RecoveryEngine α :=
  run.foldl executer { policyEngine := pe }

section Invariant

variable {ps : List (RecoveryPolicy α)} {e : RecoveryEngine α} {i : Nat} {a : Appel α}

/-- The call has begun an execution that is not recorded. -/
def ouverte (a : Appel α) : Bool :=
  match a.phase with
  | .agir .. => true
  | .levee perdue => perdue
  | _ => false

def Saine (ps : List (RecoveryPolicy α)) : Phase α → Prop
  | .admettre retenues => ∀ p ∈ retenues, p ∈ ps
  | .agir _ t reste => t.EnCours ∧ ∀ p ∈ reste, p ∈ ps
  | .marquer _ reste => ∀ p ∈ reste, p ∈ ps
  | _ => True

structure Inv (ps : List (RecoveryPolicy α)) (e : RecoveryEngine α) : Prop where
  politiques : e.policyEngine.policies = ps
  compteurs : ∀ cle, e.attemptCounters.getD cle 0 = e.departs.count cle
  bornes : ∀ p ∈ ps, ∀ runtime,
    (e.departs.count (p.policyId, runtime) : Int) ≤ max 0 p.maxAttempts
  fideles : ∀ t ∈ e.attempts, t.Fidele
  saines : ∀ a ∈ e.appels, Saine ps a.phase
  bilan : e.departs.length = e.attempts.length + e.appels.countP ouverte

theorem countP_poser (hi : e.appels[i]? = some a) (phase : Phase α) :
    (e.poser i a phase).appels.countP ouverte + (if ouverte a then 1 else 0) =
      e.appels.countP ouverte + if ouverte { a with phase := phase } then 1 else 0 := by
  obtain ⟨hlt, rfl⟩ := List.getElem?_eq_some_iff.mp hi
  have hplace : (if ouverte e.appels[i] then 1 else 0) ≤ e.appels.countP ouverte := by
    split
    · next h => exact List.countP_pos_iff.mpr ⟨_, List.getElem_mem hlt, h⟩
    · exact Nat.zero_le _
  rw [poser, List.countP_set hlt]
  omega

theorem saines_poser (h : Inv ps e) {phase : Phase α} (hs : Saine ps phase) :
    ∀ b ∈ (e.poser i a phase).appels, Saine ps b.phase := by
  intro b hb
  rcases List.mem_or_eq_of_mem_set hb with hb | rfl
  · exact h.saines b hb
  · exact hs

theorem Inv.poser (h : Inv ps e) (hi : e.appels[i]? = some a) {phase : Phase α}
    (hs : Saine ps phase) (ho : ouverte { a with phase := phase } = ouverte a) :
    Inv ps (e.poser i a phase) :=
  { h with
    saines := saines_poser h hs
    bilan := by
      have hcompte := countP_poser hi phase
      rw [ho] at hcompte
      exact h.bilan.trans (congrArg _ (Nat.add_right_cancel hcompte).symm) }

theorem Inv.admettre (h : Inv ps e) (hi : e.appels[i]? = some a)
    {retenues : List (RecoveryPolicy α)} (hphase : a.phase = .admettre retenues) :
    Inv ps (e.admettre i a retenues) := by
  have hfermee : ouverte a = false := by rw [ouverte, hphase]
  have hsaine := h.saines a (List.mem_of_getElem? hi)
  rw [hphase] at hsaine
  cases retenues with
  | nil => exact h.poser hi trivial hfermee.symm
  | cons p reste =>
      have hreste := fun q hq => hsaine q (List.mem_cons_of_mem p hq)
      rw [RecoveryEngine.admettre]
      dsimp only
      split
      · exact h.poser hi hreste hfermee.symm
      · next hlibre =>
          have hcompte := countP_poser hi
            (.agir p ⟨a.incident.incidentId, .inProgress, p.actions, []⟩ reste)
          rw [hfermee] at hcompte
          refine { h with
            compteurs := fun cle => ?_
            bornes := fun q hq runtime => ?_
            saines := saines_poser h ⟨.inl ⟨0, Nat.zero_le _, rfl⟩, hreste⟩
            bilan := ?_ }
          · dsimp only
            rw [Dict.getD_set, List.count_append, List.count_singleton, ← h.compteurs cle]
            split
            · next heq => simp [heq]
            · next hne => simp [Ne.symm hne]
          · dsimp only
            rw [List.count_append, List.count_singleton]
            split
            · next heq =>
                obtain ⟨hid, rfl⟩ := Prod.mk.inj (eq_of_beq heq)
                have hmeme : p = q := List.inj_on_of_nodup_map
                  (h.politiques ▸ e.policyEngine.cles) (hsaine p List.mem_cons_self) hq hid
                rw [h.compteurs, hmeme] at hlibre
                omega
            · exact h.bornes q hq runtime
          · calc (e.departs ++ [_]).length = e.departs.length + 1 := List.length_append
              _ = e.attempts.length + (e.appels.countP ouverte + 1) := by rw [h.bilan, Nat.add_assoc]
              _ = e.attempts.length + _ := congrArg _ hcompte.symm

theorem Inv.avancer (h : Inv ps e) (hi : e.appels[i]? = some a) (geste : Geste) :
    Inv ps (e.avancer i a a.phase geste) := by
  have hsaine := h.saines a (List.mem_of_getElem? hi)
  unfold RecoveryEngine.avancer
  split
  · next now hphase =>
      refine h.poser hi (fun p hp => ?_) (by rw [ouverte, ouverte, hphase])
      have hretenue : p ∈ apparies e.policyEngine a.incident now := by
        split at hp
        · exact List.mem_of_mem_take hp
        · exact hp
      rw [← h.politiques]
      exact (List.mem_filter.mp (List.mem_mergeSort.mp hretenue)).1
  · next hphase => exact h.admettre hi hphase
  · next hphase =>
      rw [hphase] at hsaine
      split
      · exact h
      · next hfini =>
          exact h.poser hi ⟨hsaine.1.agir hfini _, hsaine.2⟩ (by rw [ouverte, ouverte, hphase])
  · next p t reste hphase =>
      rw [hphase] at hsaine
      split
      · next hfini =>
          have hcompte := countP_poser hi (.marquer p reste)
          have houverte : ouverte a = true := by rw [ouverte, hphase]
          rw [houverte] at hcompte
          refine { h with
            fideles := List.forall_mem_append.mpr ⟨h.fideles,
              List.forall_mem_singleton.mpr (hsaine.1.conclure hfini)⟩
            saines := saines_poser h hsaine.2
            bilan := ?_ }
          calc e.departs.length = e.attempts.length + e.appels.countP ouverte := h.bilan
            _ = e.attempts.length + (_ + 1) := congrArg _ hcompte.symm
            _ = (e.attempts ++ [t.conclure]).length + _ := by
              rw [List.length_append, List.length_singleton, Nat.add_right_comm, Nat.add_assoc]
      · exact h
  · next reste _ hphase =>
      rw [hphase] at hsaine
      have hadmettre : Saine ps (.admettre reste) := hsaine
      exact { h.poser hi hadmettre (by rw [ouverte, ouverte, hphase]) with }
  · next hphase => exact h.poser hi trivial (by rw [ouverte, ouverte, hphase])
  · next hphase => exact h.poser hi trivial (by rw [ouverte, ouverte, hphase])
  · exact h

theorem Inv.nouvelle (h : Inv ps e) (incident : RecoveryIncident) (manuel : Bool)
    (incidents : List RecoveryIncident) (recus : Nat) :
    Inv ps { e with
      incidents, recus
      appels := e.appels ++ [⟨incident, manuel, .apparier⟩] } :=
  { h with
    saines := List.forall_mem_append.mpr ⟨h.saines, List.forall_mem_singleton.mpr trivial⟩
    bilan := by
      rw [List.countP_append]
      exact h.bilan }

theorem Inv.executer (h : Inv ps e) (pas : Pas) : Inv ps (e.executer pas) := by
  cases pas with
  | onRuntimeEvent eventType runtimeId =>
      exact h.nouvelle ⟨e.recus, eventType, runtimeId⟩ false _ _
  | retryIncident incidentId =>
      rw [RecoveryEngine.executer, retryIncident]
      split
      · exact h
      · exact h.nouvelle _ true _ _
  | avancer i geste =>
      rw [RecoveryEngine.executer]
      split
      · exact h
      · next hi => exact h.avancer hi geste

end Invariant

/-- In every run no pair of a policy and a runtime starts more than `max_attempts` executions, what
is recorded is faithful to the actions, and each execution that started is recorded once, still
running, or lost by a call that raised. -/
theorem reprises_comptees (pe : RecoveryPolicyEngine α) (run : List Pas) :
    (∀ p ∈ pe.policies, ∀ runtime,
      ((apres pe run).departs.count (p.policyId, runtime) : Int) ≤ max 0 p.maxAttempts) ∧
    (∀ t ∈ (apres pe run).attempts, t.Fidele) ∧
    (apres pe run).departs.length =
      (apres pe run).attempts.length + (apres pe run).appels.countP ouverte := by
  have hinv : Inv pe.policies (apres pe run) :=
    List.foldlRecOn run executer
      { politiques := rfl
        compteurs := fun _ => rfl
        bornes := fun _ _ _ => Int.le_max_left 0 _
        fideles := nofun
        saines := nofun
        bilan := rfl }
      fun _ h pas _ => h.executer pas
  exact ⟨hinv.bornes, hinv.fideles, hinv.bilan⟩

end RecoveryEngine

end Hermes.Recovery
