import Hermes.Lib.Runs
import Hermes.Mission.StepRefinement

/-! # Cancelling a mission while steps are in flight

`execute_step` takes its lock only around the completion block, so a cancellation can land between
any two of its phases.
-/

namespace Hermes.Phases

open DependencyResolver GraphExecutor

/-- Where a call of `execute_step` is. -/
inductive Phase where
  | lecture
  | recolte (ids : List String)
  /-- Marking the nodes one by one; `count` nodes were ready. -/
  | marquage (count : Nat) (results : Lib.Dict String Bool) (reste : List String)
  | controle
  /-- About to take the lock, with the success read from the progress. -/
  | cloture (success : Bool)
  | fini
  deriving DecidableEq

/-- The next phase of a call, `none` when it is over or waits for ever. -/
def avancer (repli : Int) (p : Passe) (phase : Phase) (m : Mission) : Option (Phase × Mission) :=
  match phase with
  | .lecture => some (.recolte ((getReadyNodes m).map MissionNode.nodeId), marquerEnCours m)
  | .recolte ids =>
      match recolter repli p ids with
      | none => none
      | some results => some (.marquage ids.length results ids, m)
  | .marquage count results (nodeId :: reste) =>
      some (.marquage count results reste, marquerUn results p.maintenant m nodeId)
  | .marquage count _ [] => some (if 0 < count then .controle else .fini, m)
  | .controle => some (if toutCompte m then .cloture (allSuccess m) else .fini, m)
  | .cloture success => some (.fini, cloturer p success m)
  | .fini => none

structure Appel where
  passe : Passe
  phase : Phase

/-- `annulee` remembers that a `cancel_mission` returned true. -/
structure Etat where
  mission : Mission
  appels : List Appel
  annulee : Bool

inductive Evenement where
  /-- A call of `execute_step` begins. -/
  | lancer (p : Passe)
  | phase (i : Nat)
  | annuler (now : Instant)

def pas (repli : Int) (s : Etat) : Evenement → Option Etat
  | .lancer p => some { s with appels := s.appels ++ [{ passe := p, phase := .lecture }] }
  | .phase i =>
      match s.appels[i]? with
      | none => none
      | some a =>
          match avancer repli a.passe a.phase s.mission with
          | none => none
          | some (suivante, mission) =>
              some
                { s with
                  mission := mission
                  appels := s.appels.set i { a with phase := suivante } }
  | .annuler now =>
      let (mission, rendu) := cancelMission s.mission now
      some { s with mission := mission, annulee := s.annulee || rendu }

def initial (m : Mission) : Etat := { mission := m, appels := [], annulee := false }

def ResteAnnulee (s : Etat) : Prop := s.annulee = true → s.mission.status = .cancelled

/-- The event is the completion block of some call. -/
def EstCloture (s : Etat) : Evenement → Prop
  | .phase i => ∃ a success, s.appels[i]? = some a ∧ a.phase = .cloture success
  | _ => False

/-- The event is not a completion block that follows a cancellation. -/
def PasDeClotureApresAnnulation (s : Etat) (ev : Evenement) : Prop :=
  s.annulee = true → ¬ EstCloture s ev

theorem avancer_status {repli : Int} {p : Passe} {phase suivante : Phase} {m m' : Mission}
    (h : avancer repli p phase m = some (suivante, m')) (hphase : ∀ b, phase ≠ .cloture b) :
    m'.status = m.status := by
  cases phase with
  | lecture =>
      cases h
      rfl
  | recolte ids =>
      simp only [avancer] at h
      split at h
      · cases h
      · cases h
        rfl
  | marquage count results reste =>
      cases reste with
      | nil =>
          cases h
          rfl
      | cons nodeId reste =>
          cases h
          exact Mission.status_eq_of_enveloppe
            (marquer_enveloppe results p.maintenant m [nodeId])
  | controle =>
      cases h
      rfl
  | cloture success => exact absurd rfl (hphase success)
  | fini => cases h

theorem cloturer_of_cancelled {p : Passe} {success : Bool} {m : Mission}
    (h : m.status = .cancelled) : (cloturer p success m).status ≠ .cancelled := by
  rw [cloturer, if_pos (by simp [h]), (suggestRetry_frame _ _).2.2.1]
  cases success <;> simp [fermer]

private theorem pas_phase_eq_some {repli : Int} {s s' : Etat} {i : Nat}
    (h : pas repli s (.phase i) = some s') :
    ∃ a suivante, s.appels[i]? = some a ∧
      avancer repli a.passe a.phase s.mission = some (suivante, s'.mission) ∧
      s'.annulee = s.annulee := by
  simp only [pas] at h
  split at h
  · cases h
  · next a ha =>
      split at h
      · cases h
      · next suivante mission hnext =>
          cases h
          exact ⟨a, suivante, ha, hnext, rfl⟩

theorem pas_resteAnnulee {repli : Int} {s s' : Etat} {ev : Evenement} (hs : ResteAnnulee s)
    (hev : PasDeClotureApresAnnulation s ev) (h : pas repli s ev = some s') :
    ResteAnnulee s' := by
  cases ev with
  | lancer p =>
      cases h
      exact hs
  | phase i =>
      obtain ⟨a, suivante, ha, hnext, hannulee⟩ := pas_phase_eq_some h
      intro hcancelled
      rw [hannulee] at hcancelled
      have hphase : ∀ b, a.phase ≠ .cloture b := fun b hb => hev hcancelled ⟨a, b, ha, hb⟩
      rw [avancer_status hnext hphase]
      exact hs hcancelled
  | annuler now =>
      intro hcancelled
      simp only [pas, Option.some.injEq] at h
      subst h
      by_cases hcompleted : s.mission.status = .completed
      · simp only [cancelMission, hcompleted, if_true, Bool.or_false] at hcancelled ⊢
        rw [hs hcancelled] at hcompleted
        cases hcompleted
      · simp [cancelMission, hcompleted]

theorem pas_cloture_overwrites {repli : Int} {s s' : Etat} {ev : Evenement}
    (hs : ResteAnnulee s) (h : pas repli s ev = some s') (hs' : ResteAnnulee s') :
    PasDeClotureApresAnnulation s ev := by
  intro hcancelled hcloture
  cases ev with
  | lancer p => exact hcloture
  | annuler now => exact hcloture
  | phase i =>
      obtain ⟨b, success, hb, hphase⟩ := hcloture
      obtain ⟨a, suivante, ha, hnext, hannulee⟩ := pas_phase_eq_some h
      have hsame : a = b := Option.some.inj (ha.symm.trans hb)
      rw [hsame, hphase] at hnext
      have hmission : s'.mission = cloturer b.passe success s.mission := by
        have heq := Option.some.inj hnext
        exact (Prod.mk.inj heq).2.symm
      have hstill := hs' (hannulee ▸ hcancelled)
      rw [hmission] at hstill
      exact cloturer_of_cancelled (hs hcancelled) hstill

/-- In every interleaving, a cancelled mission stays CANCELLED if and only if no call
executes its completion block after the cancellation. -/
theorem resteAnnulee_iff (repli : Int) (m : Mission) (evs : List Evenement) :
    Lib.Always (pas repli) ResteAnnulee (initial m) evs ↔
      Lib.Along (pas repli) PasDeClotureApresAnnulation (initial m) evs := by
  constructor
  · exact Lib.along_of_always (I := ResteAnnulee)
      fun _ _ _ hs h hs' => pas_cloture_overwrites hs h hs'
  · exact Lib.always_of_along (fun s ev s' hs hev h => pas_resteAnnulee hs hev h)
      fun hcancelled => Bool.noConfusion hcancelled

def uneTache : Mission :=
  (startMission (buildGraph (Mission.neuve "m1" "tâche") [MissionNode.neuf "a" "A"] []).1 0).1

def reussite : Passe where
  place := fun _ => true
  executeNode := fun _ => .rend true
  capacite := .places 1
  maintenant := 2
  verification := fun _ => none

/-- The cancellation lands while the only node runs; the step then completes the
mission. -/
def annulationEnVol : List Evenement :=
  [.lancer reussite, .phase 0, .phase 0, .annuler 1, .phase 0, .phase 0, .phase 0, .phase 0]

theorem annulationEnVol_completed :
    (∃ s, Lib.run (pas 1) (initial uneTache) annulationEnVol = some s ∧ s.annulee = true ∧
        s.mission.status = .completed) ∧
      ¬ Lib.Always (pas 1) ResteAnnulee (initial uneTache) annulationEnVol := by
  have hrun : ∃ s, Lib.run (pas 1) (initial uneTache) annulationEnVol = some s ∧
      s.annulee = true ∧ s.mission.status = .completed :=
    ⟨_, rfl, by decide, by decide⟩
  refine ⟨hrun, fun halways => ?_⟩
  obtain ⟨s, hs, hannulee, hcompleted⟩ := hrun
  have hcancelled := halways.run hs hannulee
  rw [hcompleted] at hcancelled
  cases hcancelled

end Hermes.Phases
