import Hermes.Execution.Models
import Mathlib.Data.List.Induction

/-! # The lifecycle of an execution

`transition` moves to a state that the table allows, writes the history of a state that is already
current, and refuses anything else.
-/

namespace Hermes.Execution

def VALID_TRANSITIONS : ExecutionState → List ExecutionState
  | .created => [.planning, .cancelled]
  | .planning => [.ready, .failed, .cancelled]
  | .ready => [.running, .cancelled]
  | .running => [.paused, .waitingApproval, .validating, .failed, .completed, .cancelled]
  | .waitingApproval => [.running, .failed, .cancelled]
  | .paused => [.running, .cancelled]
  | .validating => [.completed, .running, .failed, .cancelled]
  | .completed => []
  | .failed => [.running, .cancelled]
  | .cancelled => []

/-- The `ValueError` of a refused transition. -/
structure TransitionInvalide where
  de : ExecutionState
  vers : ExecutionState
  deriving DecidableEq

structure ExecutionStateMachine where
  state : ExecutionState := .created
  history : List (ExecutionState × ExecutionState × String) := []
  execMeta : ExecutionMeta
  deriving DecidableEq

namespace ExecutionStateMachine

def transition (sm : ExecutionStateMachine) (target : ExecutionState) (reason : String) :
    Except TransitionInvalide ExecutionStateMachine :=
  if target = sm.state then
    .ok { sm with history := sm.history ++ [(sm.state, target, reason)] }
  else if target ∉ VALID_TRANSITIONS sm.state then
    .error { de := sm.state, vers := target }
  else
    .ok { sm with state := target, history := sm.history ++ [(sm.state, target, reason)] }

def isTerminal (sm : ExecutionStateMachine) : Bool :=
  sm.state ∈ [ExecutionState.completed, .failed, .cancelled]

def vers (sm : ExecutionStateMachine) (target : ExecutionState) (reason : String) :
    ExecutionStateMachine :=
  { sm with state := target, history := sm.history ++ [(sm.state, target, reason)] }

@[simp] theorem state_vers (sm : ExecutionStateMachine) (target : ExecutionState)
    (reason : String) : (sm.vers target reason).state = target := rfl

/-- The targets that `transition` accepts. -/
def Admet (sm : ExecutionStateMachine) (target : ExecutionState) : Prop :=
  target = sm.state ∨ target ∈ VALID_TRANSITIONS sm.state

instance (sm : ExecutionStateMachine) (target : ExecutionState) : Decidable (sm.Admet target) :=
  inferInstanceAs (Decidable (_ ∨ _))

theorem transition_of_admet {sm : ExecutionStateMachine} {target : ExecutionState}
    (h : sm.Admet target) (reason : String) :
    sm.transition target reason = .ok (sm.vers target reason) := by
  unfold transition vers
  by_cases hsame : target = sm.state
  · rw [if_pos hsame]
    subst hsame
    rfl
  · have hmem : target ∈ VALID_TRANSITIONS sm.state := h.resolve_left hsame
    rw [if_neg hsame, if_neg (not_not_intro hmem)]

theorem transition_of_not_admet {sm : ExecutionStateMachine} {target : ExecutionState}
    (h : ¬ sm.Admet target) (reason : String) :
    sm.transition target reason = .error { de := sm.state, vers := target } := by
  obtain ⟨hne, hmem⟩ := not_or.mp h
  unfold transition
  rw [if_neg hne, if_pos hmem]

theorem transition_eq_ok {sm sm' : ExecutionStateMachine} {target : ExecutionState}
    {reason : String} :
    sm.transition target reason = .ok sm' ↔ sm.Admet target ∧ sm' = sm.vers target reason := by
  by_cases h : sm.Admet target
  · rw [transition_of_admet h]
    constructor
    · intro heq
      cases heq
      exact ⟨h, rfl⟩
    · rintro ⟨_, rfl⟩
      rfl
  · rw [transition_of_not_admet h]
    constructor
    · intro heq
      cases heq
    · intro hok
      exact absurd hok.1 h

end ExecutionStateMachine

inductive Commande where
  | pause
  | resume
  | cancel
  deriving DecidableEq

/-- `pause`, `resume` and `cancel`: the machine after the call and whether it did
anything. -/
def Commande.appliquer (sm : ExecutionStateMachine) :
    Commande → Except TransitionInvalide (ExecutionStateMachine × Bool)
  | .pause =>
      if sm.state = .running then
        (sm.transition .paused "User requested pause").map fun sm => (sm, true)
      else .ok (sm, false)
  | .resume =>
      if sm.state = .paused then
        (sm.transition .running "User requested resume").map fun sm => (sm, true)
      else .ok (sm, false)
  | .cancel =>
      if sm.isTerminal then .ok (sm, false)
      else (sm.transition .cancelled "User requested cancel").map fun sm => (sm, true)

def Commande.effet : Commande → ExecutionState → ExecutionState
  | .pause, .running => .paused
  | .resume, .paused => .running
  | .cancel, .completed => .completed
  | .cancel, .failed => .failed
  | .cancel, _ => .cancelled
  | _, state => state

theorem Commande.appliquer_ok (sm : ExecutionStateMachine) (c : Commande) :
    ∃ sm' fait, c.appliquer sm = .ok (sm', fait) ∧ sm'.state = c.effet sm.state ∧
      sm'.execMeta = sm.execMeta := by
  obtain ⟨state, history, execMeta⟩ := sm
  cases c <;> cases state <;> exact ⟨_, _, rfl, rfl, rfl⟩

/-- The machine after a call. A refused call would leave it as it was. -/
def commander (sm : ExecutionStateMachine) (c : Commande) : ExecutionStateMachine :=
  match c.appliquer sm with
  | .ok (sm', _) => sm'
  | .error _ => sm

theorem commander_spec (sm : ExecutionStateMachine) (c : Commande) :
    (commander sm c).state = c.effet sm.state ∧ (commander sm c).execMeta = sm.execMeta := by
  obtain ⟨sm', fait, hok, hstate, hmeta⟩ := c.appliquer_ok sm
  unfold commander
  rw [hok]
  exact ⟨hstate, hmeta⟩

def commanderTout (sm : ExecutionStateMachine) (commandes : List Commande) :
    ExecutionStateMachine :=
  commandes.foldl commander sm

theorem execMeta_commanderTout (sm : ExecutionStateMachine) (commandes : List Commande) :
    (commanderTout sm commandes).execMeta = sm.execMeta := by
  induction commandes generalizing sm with
  | nil => rfl
  | cons c commandes ih => exact (ih (commander sm c)).trans (commander_spec sm c).2

def Annulee (commandes : List Commande) : Prop := Commande.cancel ∈ commandes

def EnPause (commandes : List Commande) : Prop :=
  ¬ Annulee commandes ∧ commandes.getLast? = some .pause

instance (commandes : List Commande) : Decidable (Annulee commandes) :=
  inferInstanceAs (Decidable (_ ∈ _))

instance (commandes : List Commande) : Decidable (EnPause commandes) :=
  inferInstanceAs (Decidable (_ ∧ _))

theorem state_commanderTout {sm : ExecutionStateMachine} (h : sm.state = .running)
    (commandes : List Commande) :
    (commanderTout sm commandes).state =
      if Annulee commandes then .cancelled
      else if EnPause commandes then .paused
      else .running := by
  induction commandes using List.reverseRecOn with
  | nil => simpa [commanderTout, Annulee, EnPause] using h
  | append_singleton commandes c ih =>
      have hlast : commanderTout sm (commandes ++ [c]) = commander (commanderTout sm commandes) c :=
        List.foldl_concat ..
      rw [hlast, (commander_spec _ c).1, ih]
      by_cases hcancel : Annulee commandes
      · have hcancel' : Annulee (commandes ++ [c]) := List.mem_append_left _ hcancel
        rw [if_pos hcancel, if_pos hcancel']
        cases c <;> rfl
      · rw [if_neg hcancel]
        cases c with
        | cancel =>
            have hcancel' : Annulee (commandes ++ [.cancel]) := by simp [Annulee]
            rw [if_pos hcancel']
            split <;> rfl
        | pause =>
            have hfree : ¬ Annulee (commandes ++ [.pause]) := by simpa [Annulee] using hcancel
            have hpause : EnPause (commandes ++ [.pause]) := ⟨hfree, by simp⟩
            rw [if_neg hfree, if_pos hpause]
            split <;> rfl
        | resume =>
            have hfree : ¬ Annulee (commandes ++ [.resume]) := by simpa [Annulee] using hcancel
            have hresume : ¬ EnPause (commandes ++ [.resume]) := by simp [EnPause]
            rw [if_neg hfree, if_neg hresume]
            split <;> rfl

/-- What moves a machine: the executor, which catches the refusals, and the user. -/
inductive Geste where
  | transition (target : ExecutionState) (reason : String)
  | commande (c : Commande)

def Geste.faire (sm : ExecutionStateMachine) : Geste → ExecutionStateMachine
  | .transition target reason =>
      match sm.transition target reason with
      | .ok sm' => sm'
      | .error _ => sm
  | .commande c => commander sm c

/-- A history that leads from a state to another through the table, or stays where it is. -/
def Chemin : ExecutionState → List (ExecutionState × ExecutionState × String) → ExecutionState → Prop
  | s, [], t => s = t
  | s, (de, vers, _) :: suite, t =>
      de = s ∧ (vers = de ∨ vers ∈ VALID_TRANSITIONS de) ∧ Chemin vers suite t

theorem Chemin.concat {s t v : ExecutionState}
    {history : List (ExecutionState × ExecutionState × String)} (h : Chemin s history t)
    (hv : v = t ∨ v ∈ VALID_TRANSITIONS t) (reason : String) :
    Chemin s (history ++ [(t, v, reason)]) v := by
  induction history generalizing s with
  | nil =>
      cases h
      exact ⟨rfl, hv, rfl⟩
  | cons etape history ih => exact ⟨h.1, h.2.1, ih h.2.2⟩

theorem Geste.faire_cas (sm : ExecutionStateMachine) (g : Geste) :
    g.faire sm = sm ∨ ∃ target reason, sm.Admet target ∧ g.faire sm = sm.vers target reason := by
  have hcas (target : ExecutionState) (reason : String) :
      (Geste.transition target reason).faire sm = sm ∨
        sm.Admet target ∧ (Geste.transition target reason).faire sm = sm.vers target reason := by
    dsimp only [faire]
    by_cases h : sm.Admet target
    · rw [ExecutionStateMachine.transition_of_admet h]
      exact .inr ⟨h, rfl⟩
    · rw [ExecutionStateMachine.transition_of_not_admet h]
      exact .inl rfl
  cases g with
  | transition target reason =>
      exact (hcas target reason).imp_right fun h => ⟨target, reason, h⟩
  | commande c =>
      obtain ⟨state, history, execMeta⟩ := sm
      cases c <;> cases state <;>
        first | exact .inl rfl | exact .inr ⟨_, _, .inr (by simp [VALID_TRANSITIONS]), rfl⟩

/-- In every history, the journal of a machine is a path of the table from `created` to its state,
and a machine that is completed or cancelled stays so. -/
theorem journal_fidele (execMeta : ExecutionMeta) (gestes suite : List Geste) :
    let sm := gestes.foldl Geste.faire { execMeta := execMeta }
    Chemin .created sm.history sm.state ∧
      (sm.state = .completed ∨ sm.state = .cancelled →
        (suite.foldl Geste.faire sm).state = sm.state) := by
  intro sm
  constructor
  · refine List.foldlRecOn (motive := fun sm : ExecutionStateMachine =>
      Chemin .created sm.history sm.state) gestes _ rfl fun sm h g _ => ?_
    obtain heq | ⟨target, reason, hadmet, heq⟩ := g.faire_cas sm
    · rwa [heq]
    · rw [heq]
      exact h.concat hadmet reason
  · intro hfini
    refine List.foldlRecOn (motive := fun sm' : ExecutionStateMachine => sm'.state = sm.state)
      suite _ rfl fun sm' h g _ => ?_
    obtain heq | ⟨target, reason, hadmet, heq⟩ := g.faire_cas sm'
    · rwa [heq]
    · rw [heq, ExecutionStateMachine.state_vers]
      unfold ExecutionStateMachine.Admet at hadmet
      rw [h] at hadmet
      rcases hfini with hfini | hfini <;> rw [hfini] at hadmet ⊢ <;>
        exact hadmet.resolve_right List.not_mem_nil

end Hermes.Execution
