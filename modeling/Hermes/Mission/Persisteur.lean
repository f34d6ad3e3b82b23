import Hermes.Mission.Memoire

/-! # The executor with its persister

The calls of the executor on an object of the memory.
-/

namespace Hermes

open DependencyResolver Lib

theorem Mission.missionId_eq_of_enveloppe {m m' : Mission} (h : m'.enveloppe = m.enveloppe) :
    m'.missionId = m.missionId := by
  have hid := congrArg Mission.missionId h
  exact hid

namespace Memoire

section Appels

variable (accepte : Mission → Bool) (r : Ref)

def buildGraph (s : Memoire) (nodes : List MissionNode) (edges : List MissionEdge) : Memoire :=
  s.muter r (GraphExecutor.buildGraph (s.objets r) nodes edges).1

/-- The boolean `start_mission` returns, nothing when the write raises. -/
def startMission (s : Memoire) (now : Instant) : Memoire × Option Bool :=
  match GraphExecutor.startMission (s.objets r) now with
  | (_, false) => (s, some false)
  | (m, true) =>
      match s.transition r m accepte with
      | (s', true) => (s', some true)
      | (s', false) => (s', none)

def cancelMission (s : Memoire) (now : Instant) : Memoire × Option Bool :=
  match GraphExecutor.cancelMission (s.objets r) now with
  | (_, false) => (s, some false)
  | (m, true) =>
      match s.transition r m accepte with
      | (s', true) => (s', some true)
      | (s', false) => (s', none)

def marquer (results : Dict String Bool) (now : Instant) :
    List String → Memoire → Memoire × Bool
  | [], s => (s, true)
  | nodeId :: ids, s =>
      match s.transition r (GraphExecutor.marquerUn results now (s.objets r) nodeId) accepte with
      | (s', true) => marquer results now ids s'
      | (s', false) => (s', false)

def cloturer (s : Memoire) (p : Passe) : Memoire × Bool :=
  let m := s.objets r
  if m.status ≠ .failed ∧ m.status ≠ .completed then
    s.transition r (GraphExecutor.cloturer p (GraphExecutor.allSuccess m) m) accepte
  else (s, true)

/-- The number of nodes, nothing when a write raises; no answer at all when a node never comes
back on the sequential path. -/
def executeStep (repli : Int) (p : Passe) (s : Memoire) : Option (Memoire × Option Nat) :=
  let ids := (getReadyNodes (s.objets r)).map MissionNode.nodeId
  match GraphExecutor.recolter repli p ids with
  | none => none
  | some results =>
      match marquer accepte r results p.maintenant ids
          (s.muter r (GraphExecutor.marquerEnCours (s.objets r))) with
      | (s', false) => some (s', none)
      | (s', true) =>
          if 0 < ids.length ∧ GraphExecutor.toutCompte (s'.objets r) then
            match cloturer accepte r s' p with
            | (s'', true) => some (s'', some ids.length)
            | (s'', false) => some (s'', none)
          else some (s', some ids.length)

/-- `preparer_reprise`: only the start of the new attempt is persisted. -/
def preparerReprise (s : Memoire) (now : Instant) : Memoire × Option Bool :=
  match Hermes.preparerReprise (s.objets r) now with
  | (m, false) => (s.muter r m, some false)
  | (m, true) =>
      match s.transition r m accepte with
      | (s', true) => (s', some true)
      | (s', false) => (s', none)

end Appels

section Executeur

variable {s : Memoire} {r : Ref} {accepte : Mission → Bool} {now : Instant}

/-- The store accepts the missions whose status becomes terminal, from the status of `m`. -/
def AccepteFins (accepte : Mission → Bool) (m : Mission) : Prop :=
  ∀ m', estTerminal m'.status = true → m'.status = m.status ∨ accepte m' = true

theorem suite_transition_fins (h : Durable s) (hr : r < s.prochain)
    (haccepte : AccepteFins accepte (s.objets r)) {m : Mission}
    (hid : m.missionId = (s.objets r).missionId) : Suite s (s.transition r m accepte).1 := by
  refine suite_transition accepte h hr hid fun hterminal => ?_
  exact (haccepte m hterminal).imp_right .inl

theorem buildGraph_missionId (m : Mission) (nodes : List MissionNode) (edges : List MissionEdge) :
    (GraphExecutor.buildGraph m nodes edges).1.missionId = m.missionId := by
  have hstatus := congrArg Mission.missionId (buildGraph_with_status m nodes edges .ready)
  exact hstatus

theorem buildGraph_status (m : Mission) (nodes : List MissionNode) (edges : List MissionEdge) :
    estTerminal (GraphExecutor.buildGraph m nodes edges).1.status = true →
      (GraphExecutor.buildGraph m nodes edges).1.status = m.status := by
  intro hterminal
  by_cases h : MissionGraph.issues (GraphExecutor.construire m nodes edges) = []
  · rw [buildGraph_accepted (by rw [buildGraph_issues, h])] at hterminal
    cases hterminal
  · have hrefus : (GraphExecutor.buildGraph m nodes edges).1 =
        GraphExecutor.construire m nodes edges := by
      simp [GraphExecutor.buildGraph, MissionGraph.validateGraph, h]
    rw [hrefus]
    rfl

theorem suite_buildGraph (h : Durable s) (nodes : List MissionNode) (edges : List MissionEdge) :
    Suite s (s.buildGraph r nodes edges) := by
  refine ⟨h.muter (buildGraph_missionId _ _ _) fun hterminal => ?_, le_refl _⟩
  exact .inl (buildGraph_status _ _ _ hterminal)

theorem suite_startMission (h : Durable s) (hr : r < s.prochain) :
    Suite s (s.startMission accepte r now).1 := by
  unfold startMission GraphExecutor.startMission
  split
  · exact .refl h
  · next m hstart =>
      split at hstart
      · cases hstart
        have hsuite := suite_transition accepte
          (m := { s.objets r with status := .running, startedAt := some now }) h hr rfl
          fun hterminal => by cases hterminal
        split <;> next heq => rwa [heq] at hsuite
      · cases hstart

theorem suite_cancelMission (now : Instant) (h : Durable s) (hr : r < s.prochain)
    (haccepte : AccepteFins accepte (s.objets r)) : Suite s (s.cancelMission accepte r now).1 := by
  unfold cancelMission GraphExecutor.cancelMission
  split
  · exact .refl h
  · next m hcancel =>
      split at hcancel
      · cases hcancel
      · cases hcancel
        have hsuite := suite_transition_fins
          (m := { s.objets r with status := .cancelled, completedAt := some now }) h hr haccepte rfl
        split <;> next heq => rwa [heq] at hsuite

theorem marquerUn_enveloppe (results : Dict String Bool) (now : Instant) (m : Mission)
    (nodeId : String) : (GraphExecutor.marquerUn results now m nodeId).enveloppe = m.enveloppe :=
  marquer_enveloppe results now m [nodeId]

theorem suite_marquer (accepte : Mission → Bool) (results : Dict String Bool) (now : Instant)
    (ids : List String) (h : Durable s) (hr : r < s.prochain) :
    Suite s (marquer accepte r results now ids s).1 ∧
      ((marquer accepte r results now ids s).1.objets r).enveloppe = (s.objets r).enveloppe := by
  induction ids generalizing s with
  | nil => exact ⟨.refl h, rfl⟩
  | cons nodeId ids ih =>
      have henveloppe := marquerUn_enveloppe results now (s.objets r) nodeId
      have hstatus := Mission.status_eq_of_enveloppe henveloppe
      have hid := Mission.missionId_eq_of_enveloppe henveloppe
      have hfirst := suite_transition accepte h hr hid fun _ => .inl hstatus
      have hobjet := transition_objets s r
        (GraphExecutor.marquerUn results now (s.objets r) nodeId) accepte
      unfold marquer
      split
      · next s' heq =>
          rw [heq] at hfirst hobjet
          dsimp only at hobjet
          obtain ⟨hrest, hlast⟩ := ih hfirst.durable (Nat.lt_of_lt_of_le hr hfirst.croit)
          refine ⟨hfirst.trans hrest, ?_⟩
          rw [hlast, hobjet, henveloppe]
      · next s' heq =>
          rw [heq] at hfirst hobjet
          dsimp only at hobjet
          exact ⟨hfirst, by rw [hobjet, henveloppe]⟩

theorem cloturer_missionId (p : Passe) (success : Bool) (m : Mission) :
    (GraphExecutor.cloturer p success m).missionId = m.missionId := by
  unfold GraphExecutor.cloturer GraphExecutor.suggestRetry
  dsimp only
  split
  · split <;> rfl
  · rfl

theorem suite_cloturer (h : Durable s) (hr : r < s.prochain)
    (haccepte : AccepteFins accepte (s.objets r)) (p : Passe) :
    Suite s (cloturer accepte r s p).1 := by
  unfold cloturer
  dsimp only
  split
  · exact suite_transition_fins h hr haccepte (cloturer_missionId _ _ _)
  · exact .refl h

theorem suite_executeStep {repli : Int} {p : Passe} {s' : Memoire} {issue : Option Nat}
    (h : Durable s) (hr : r < s.prochain) (haccepte : AccepteFins accepte (s.objets r))
    (hetape : executeStep accepte r repli p s = some (s', issue)) : Suite s s' := by
  unfold executeStep at hetape
  dsimp only at hetape
  split at hetape
  · cases hetape
  · next results _ =>
      have hcours : Suite s (s.muter r (GraphExecutor.marquerEnCours (s.objets r))) :=
        ⟨h.muter rfl fun _ => .inl rfl, le_refl _⟩
      obtain ⟨hmarques, henveloppe⟩ := suite_marquer accepte results p.maintenant
        ((getReadyNodes (s.objets r)).map MissionNode.nodeId) hcours.durable hr
      rw [muter_self] at henveloppe
      have hsuite := hcours.trans hmarques
      split at hetape
      · next heq =>
          rw [heq] at hsuite
          cases hetape
          exact hsuite
      · next s₁ heq =>
          rw [heq] at hsuite henveloppe
          have hstatus : (s₁.objets r).status = (s.objets r).status :=
            Mission.status_eq_of_enveloppe henveloppe
          have hfins : AccepteFins accepte (s₁.objets r) := by
            unfold AccepteFins
            rw [hstatus]
            exact haccepte
          have hr₁ : r < s₁.prochain := Nat.lt_of_lt_of_le hr hsuite.croit
          have hclose := suite_cloturer hsuite.durable hr₁ hfins p
          split at hetape
          · split at hetape
            all_goals
              next heq' =>
                rw [heq'] at hclose
                cases hetape
                exact hsuite.trans hclose
          · cases hetape
            exact hsuite

theorem preparerReprise_missionId (m : Mission) (now : Instant) :
    (Hermes.preparerReprise m now).1.missionId = m.missionId := by
  unfold Hermes.preparerReprise
  dsimp only
  split
  · rfl
  · split
    · rfl
    · unfold GraphExecutor.startMission
      split <;> exact buildGraph_missionId _ _ _

theorem preparerReprise_status (m : Mission) (now : Instant) :
    (Hermes.preparerReprise m now).1.status = m.status ∨
      (Hermes.preparerReprise m now).1.status = .running := by
  cases hrelance : (Hermes.preparerReprise m now).2 with
  | false => exact .inl (preparerReprise_of_false hrelance).1
  | true =>
      obtain ⟨brief, hbrief, hne⟩ := preparerReprise_eq_true.mp hrelance
      right
      simp [Hermes.preparerReprise, hbrief, hne, GraphExecutor.startMission]

theorem suite_preparerReprise (accepte : Mission → Bool) (now : Instant) (h : Durable s)
    (hr : r < s.prochain) :
    Suite s (s.preparerReprise accepte r now).1 := by
  have hid := preparerReprise_missionId (s.objets r) now
  have hstatus : estTerminal (Hermes.preparerReprise (s.objets r) now).1.status = true →
      (Hermes.preparerReprise (s.objets r) now).1.status = (s.objets r).status := by
    intro hterminal
    refine (preparerReprise_status (s.objets r) now).resolve_right fun hrunning => ?_
    rw [hrunning] at hterminal
    cases hterminal
  unfold preparerReprise
  split
  · next m heq =>
      rw [heq] at hid hstatus
      exact ⟨h.muter hid fun hterminal => .inl (hstatus hterminal), le_refl _⟩
  · next m heq =>
      rw [heq] at hid hstatus
      have hsuite := suite_transition accepte h hr hid
        fun hterminal => .inl (hstatus hterminal)
      split <;> next heq' => rwa [heq'] at hsuite

end Executeur

end Memoire

end Hermes
