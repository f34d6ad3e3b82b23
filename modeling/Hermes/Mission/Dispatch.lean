import Hermes.Lib.Runs
import Hermes.Mission.StepRefinement

/-! # What is dispatched over a whole run

A run of a started mission is any sequence of `execute_step` calls, each with its own environment,
interleaved with writes of the mission's status by the routes.
-/

namespace Hermes

open DependencyResolver GraphExecutor

namespace Dispatch

inductive Evenement where
  | etape (p : Passe)
  | statut (s : MissionStatus)

structure Etat where
  mission : Mission
  journal : List String

/-- The state of a mission that has just been started. -/
def initial (m : Mission) : Etat := { mission := m, journal := [] }

def pas (repli : Int) (s : Etat) : Evenement → Option Etat
  | .etape p =>
      match executeStep repli p s.mission with
      | none => none
      | some e => some { mission := e.mission, journal := s.journal ++ e.dispatched }
  | .statut status => some { s with mission := { s.mission with status := status } }

structure Inv (s : Etat) : Prop where
  construite : s.mission.Construite
  fermes : DagWalk.CompletesFermes s.mission.precede s.mission.statut
  nodup : s.journal.Nodup
  clos : ∀ v ∈ s.journal, estOuvert (s.mission.statut v) = false

theorem inv_initial {m : Mission} (hm : m.Construite)
    (hfermes : DagWalk.CompletesFermes m.precede m.statut) : Inv (initial m) :=
  ⟨hm, hfermes, List.nodup_nil, by simp [initial]⟩

theorem pas_etape_eq_some {repli : Int} {s s' : Etat} {p : Passe}
    (h : pas repli s (.etape p) = some s') :
    ∃ e, executeStep repli p s.mission = some e ∧ s'.mission = e.mission ∧
      s'.journal = s.journal ++ e.dispatched := by
  simp only [pas] at h
  split at h
  · cases h
  · next e he =>
      cases h
      exact ⟨e, he, rfl, rfl⟩

theorem pas_inv {repli : Int} {s s' : Etat} {ev : Evenement} (hs : Inv s)
    (h : pas repli s ev = some s') : Inv s' := by
  cases ev with
  | statut status =>
      cases h
      exact ⟨⟨hs.construite.nodup, hs.construite.dependsOn⟩, hs.fermes, hs.nodup, hs.clos⟩
  | etape p =>
      obtain ⟨e, he, hmission, hjournal⟩ := pas_etape_eq_some h
      obtain ⟨hpas, hsquelette, hdispatched, hpret⟩ := executeStep_spec hs.construite he
      refine ⟨?_, ?_, ?_, ?_⟩
      · rw [hmission]
        exact Mission.construite_of_squelette hsquelette hs.construite
      · rw [hmission, Mission.precede_eq_of_squelette hsquelette]
        exact hpas.completesFermes hs.fermes
      · rw [hjournal]
        refine List.nodup_append.mpr ⟨hs.nodup, hdispatched, ?_⟩
        -- A node of the log is closed, a dispatched node was open.
        intro u hu v hv huv
        have hclosed := hs.clos u hu
        rw [huv, (hpret v hv).1] at hclosed
        cases hclosed
      · rw [hmission, hjournal]
        intro v hv
        rcases List.mem_append.mp hv with hv | hv
        · rw [hpas.inchange_of_ferme (hs.clos v hv)]
          exact hs.clos v hv
        · exact hpas.ferme_of_pret (hpret v hv)

theorem pas_statut_of_ferme {repli : Int} {s s' : Etat} {ev : Evenement} (hs : Inv s)
    (h : pas repli s ev = some s') {v : String}
    (hv : estOuvert (s.mission.statut v) = false) : s'.mission.statut v = s.mission.statut v := by
  cases ev with
  | statut status =>
      cases h
      rfl
  | etape p =>
      obtain ⟨e, he, hmission, -⟩ := pas_etape_eq_some h
      rw [hmission]
      exact (executeStep_spec hs.construite he).1.inchange_of_ferme hv

theorem run_statut_of_ferme {repli : Int} {s s' : Etat} {evs : List Evenement} (hs : Inv s)
    (h : Lib.run (pas repli) s evs = some s') {v : String}
    (hv : estOuvert (s.mission.statut v) = false) : s'.mission.statut v = s.mission.statut v := by
  induction evs generalizing s with
  | nil =>
      cases h
      rfl
  | cons ev evs ih =>
      obtain ⟨middle, hpas, hrest⟩ := Lib.run_cons_eq_some.mp h
      have hsame := pas_statut_of_ferme hs hpas hv
      rw [ih (pas_inv hs hpas) hrest (hsame ▸ hv), hsame]

theorem marquerEnCours_completed {m : Mission} (hm : m.Construite) {u : String}
    (hu : m.statut u = .completed) : (marquerEnCours m).statut u = .completed := by
  have hnot : u ∉ (getReadyNodes m).map MissionNode.nodeId := by
    intro hmem
    have hopen := ((mem_ready_iff hm u).mp hmem).1
    simp [hu, estOuvert] at hopen
  rw [marquerEnCours_statut hm, if_neg hnot, hu]

def toutReussit : Passe where
  place := fun _ => true
  executeNode := fun _ => .rend true
  capacite := .places 1
  maintenant := 1
  verification := fun _ => none

end Dispatch

end Hermes
