import Mathlib.Logic.Relation
import Hermes.Mission.DependencyResolver

/-! # Walking a dependency relation

What a step of the engine is for, without lists or lookups: statuses are a function, every ready
vertex runs, succeeds or fails, and a failure blocks the pending vertices right after it.
-/

namespace Hermes.DagWalk

open DependencyResolver (estOuvert)

variable {α : Type*} {precede : α → α → Prop} {reussit : α → Prop} {st st' : α → NodeStatus}

/-- A vertex that may run: its status is open and all its predecessors completed. -/
def Pret (precede : α → α → Prop) (st : α → NodeStatus) (v : α) : Prop :=
  estOuvert (st v) = true ∧ ∀ u, precede u v → st u = .completed

/-- A pending vertex right after one that runs and fails. -/
def Atteint (precede : α → α → Prop) (reussit : α → Prop) (st : α → NodeStatus) (v : α) : Prop :=
  st v = .pending ∧ ∃ u, precede u v ∧ Pret precede st u ∧ ¬ reussit u

structure Pas (precede : α → α → Prop) (reussit : α → Prop) (st st' : α → NodeStatus) : Prop where
  reussi : ∀ v, Pret precede st v → reussit v → st' v = .completed
  echoue : ∀ v, Pret precede st v → ¬ reussit v → st' v = .failed
  bloque : ∀ v, ¬ Pret precede st v → Atteint precede reussit st v → st' v = .blocked
  inchange : ∀ v, ¬ Pret precede st v → ¬ Atteint precede reussit st v → st' v = st v

namespace Pas

theorem inchange_of_ferme (h : Pas precede reussit st st') {v : α}
    (hv : estOuvert (st v) = false) : st' v = st v := by
  refine h.inchange v (fun hpret => ?_) (fun hatteint => ?_)
  · simp [hpret.1] at hv
  · simp [hatteint.1, estOuvert] at hv

theorem completed_stable (h : Pas precede reussit st st') {v : α} (hv : st v = .completed) :
    st' v = .completed := by
  rw [h.inchange_of_ferme (by simp [hv, estOuvert]), hv]

theorem failed_stable (h : Pas precede reussit st st') {v : α} (hv : st v = .failed) :
    st' v = .failed := by
  rw [h.inchange_of_ferme (by simp [hv, estOuvert]), hv]

theorem ferme_of_pret (h : Pas precede reussit st st') {v : α} (hv : Pret precede st v) :
    estOuvert (st' v) = false := by
  by_cases hr : reussit v
  · simp [h.reussi v hv hr, estOuvert]
  · simp [h.echoue v hv hr, estOuvert]

theorem completed_cases (h : Pas precede reussit st st') {v : α} (hv : st' v = .completed) :
    st v = .completed ∨ Pret precede st v ∧ reussit v := by
  by_cases hpret : Pret precede st v
  · by_cases hr : reussit v
    · exact Or.inr ⟨hpret, hr⟩
    · simp [h.echoue v hpret hr] at hv
  · by_cases hatteint : Atteint precede reussit st v
    · simp [h.bloque v hpret hatteint] at hv
    · exact Or.inl (h.inchange v hpret hatteint ▸ hv)

theorem failed_cases (h : Pas precede reussit st st') {v : α} (hv : st' v = .failed) :
    st v = .failed ∨ Pret precede st v ∧ ¬ reussit v := by
  by_cases hpret : Pret precede st v
  · by_cases hr : reussit v
    · simp [h.reussi v hpret hr] at hv
    · exact Or.inr ⟨hpret, hr⟩
  · by_cases hatteint : Atteint precede reussit st v
    · simp [h.bloque v hpret hatteint] at hv
    · exact Or.inl (h.inchange v hpret hatteint ▸ hv)

theorem blocked_cases (h : Pas precede reussit st st') {v : α} (hv : st' v = .blocked) :
    st v = .blocked ∨ Atteint precede reussit st v := by
  by_cases hpret : Pret precede st v
  · by_cases hr : reussit v
    · simp [h.reussi v hpret hr] at hv
    · simp [h.echoue v hpret hr] at hv
  · by_cases hatteint : Atteint precede reussit st v
    · exact Or.inr hatteint
    · exact Or.inl (h.inchange v hpret hatteint ▸ hv)

theorem pending_cases (h : Pas precede reussit st st') {v : α} (hv : st' v = .pending) :
    st v = .pending ∧ ¬ Atteint precede reussit st v := by
  by_cases hpret : Pret precede st v
  · have hferme := h.ferme_of_pret hpret
    simp [hv, estOuvert] at hferme
  · by_cases hatteint : Atteint precede reussit st v
    · simp [h.bloque v hpret hatteint] at hv
    · exact ⟨h.inchange v hpret hatteint ▸ hv, hatteint⟩

end Pas

def CompletesFermes (precede : α → α → Prop) (st : α → NodeStatus) : Prop :=
  ∀ u v, precede u v → st v = .completed → st u = .completed

theorem Pas.completesFermes (h : Pas precede reussit st st')
    (hfermes : CompletesFermes precede st) : CompletesFermes precede st' := by
  intro u v huv hv
  rcases h.completed_cases hv with hbefore | ⟨hpret, -⟩
  · exact h.completed_stable (hfermes u v huv hbefore)
  · exact h.completed_stable (hpret.2 u huv)

theorem ancetre_completed (hfermes : CompletesFermes precede st) {u v : α}
    (hv : Pret precede st v) (huv : Relation.TransGen precede u v) : st u = .completed := by
  induction huv using Relation.TransGen.head_induction_on with
  | single huv => exact hv.2 _ huv
  | head hab _ ih => exact hfermes _ _ hab ih

/-- What a walk that started with every vertex PENDING keeps true of the vertices of
the graph: each status is explained by the outcomes and by the vertices before. -/
structure Expliquee (sommets : α → Prop) (precede : α → α → Prop) (reussit : α → Prop)
    (st : α → NodeStatus) : Prop where
  connu : ∀ v, sommets v →
    st v = .pending ∨ st v = .completed ∨ st v = .failed ∨ st v = .blocked
  completed : ∀ v, sommets v → st v = .completed →
    reussit v ∧ ∀ u, precede u v → st u = .completed
  failed : ∀ v, sommets v → st v = .failed →
    ¬ reussit v ∧ ∀ u, precede u v → st u = .completed
  blocked : ∀ v, sommets v → st v = .blocked → ∃ u, precede u v ∧ st u = .failed
  pending : ∀ v, sommets v → st v = .pending → ∀ u, precede u v → st u ≠ .failed

variable {sommets : α → Prop}

theorem expliquee_of_pending (h : ∀ v, sommets v → st v = .pending)
    (hends : ∀ u v, precede u v → sommets u) : Expliquee sommets precede reussit st where
  connu v hv := Or.inl (h v hv)
  completed v hv hst := by simp [h v hv] at hst
  failed v hv hst := by simp [h v hv] at hst
  blocked v hv hst := by simp [h v hv] at hst
  pending v _ _ u huv hst := by simp [h u (hends u v huv)] at hst

theorem Pas.expliquee (h : Pas precede reussit st st')
    (he : Expliquee sommets precede reussit st) : Expliquee sommets precede reussit st' where
  connu v hv := by
    by_cases hpret : Pret precede st v
    · by_cases hr : reussit v
      · exact Or.inr (Or.inl (h.reussi v hpret hr))
      · exact Or.inr (Or.inr (Or.inl (h.echoue v hpret hr)))
    · by_cases hatteint : Atteint precede reussit st v
      · exact Or.inr (Or.inr (Or.inr (h.bloque v hpret hatteint)))
      · rw [h.inchange v hpret hatteint]
        exact he.connu v hv
  completed v hv hst := by
    rcases h.completed_cases hst with hbefore | ⟨hpret, hr⟩
    · obtain ⟨hr, hpreds⟩ := he.completed v hv hbefore
      exact ⟨hr, fun u huv => h.completed_stable (hpreds u huv)⟩
    · exact ⟨hr, fun u huv => h.completed_stable (hpret.2 u huv)⟩
  failed v hv hst := by
    rcases h.failed_cases hst with hbefore | ⟨hpret, hr⟩
    · obtain ⟨hr, hpreds⟩ := he.failed v hv hbefore
      exact ⟨hr, fun u huv => h.completed_stable (hpreds u huv)⟩
    · exact ⟨hr, fun u huv => h.completed_stable (hpret.2 u huv)⟩
  blocked v hv hst := by
    rcases h.blocked_cases hst with hbefore | ⟨-, u, huv, hpret, hr⟩
    · obtain ⟨u, huv, hu⟩ := he.blocked v hv hbefore
      exact ⟨u, huv, h.failed_stable hu⟩
    · exact ⟨u, huv, h.echoue u hpret hr⟩
  pending v hv hst u huv hu := by
    obtain ⟨hbefore, hatteint⟩ := h.pending_cases hst
    rcases h.failed_cases hu with hfailed | ⟨hpret, hr⟩
    · exact he.pending v hv hbefore u huv hfailed
    · exact hatteint ⟨hbefore, u, huv, hpret, hr⟩

theorem settled_of_no_pret (he : Expliquee sommets precede reussit st)
    (hends : ∀ u v, precede u v → sommets u) {rank : α → Nat}
    (hrank : ∀ u v, precede u v → rank u < rank v) (hsources : ∀ u v, precede u v → reussit u)
    (hnone : ∀ v, sommets v → ¬ Pret precede st v) :
    ∀ v, sommets v → st v = .completed ∨ st v = .failed := by
  -- Induction on the rank: the vertices before `v` are settled, hence completed.
  have hall : ∀ n v, rank v < n → sommets v → st v = .completed ∨ st v = .failed := by
    intro n
    induction n with
    | zero => exact fun v hv => absurd hv (Nat.not_lt_zero _)
    | succ n ih =>
        intro v hv hsommet
        have hnotFailed : ∀ u, precede u v → st u ≠ .failed := fun u huv hu =>
          (he.failed u (hends u v huv) hu).1 (hsources u v huv)
        have hpreds : ∀ u, precede u v → st u = .completed := by
          intro u huv
          have hlt : rank u < n := by
            have := hrank u v huv
            omega
          exact (ih u hlt (hends u v huv)).resolve_right (hnotFailed u huv)
        rcases he.connu v hsommet with hst | hst | hst | hst
        · exact absurd ⟨by simp [hst, estOuvert], hpreds⟩ (hnone v hsommet)
        · exact Or.inl hst
        · exact Or.inr hst
        · obtain ⟨u, huv, hu⟩ := he.blocked v hsommet hst
          exact absurd hu (hnotFailed u huv)
  exact fun v hv => hall (rank v + 1) v (Nat.lt_succ_self _) hv

theorem reussit_of_settled (he : Expliquee sommets precede reussit st)
    (hends : ∀ u v, precede u v → sommets u) {u v : α} (huv : precede u v) (hsommet : sommets v)
    (hv : st v = .completed ∨ st v = .failed) : reussit u := by
  have hu : st u = .completed := by
    rcases hv with hv | hv
    · exact (he.completed v hsommet hv).2 u huv
    · exact (he.failed v hsommet hv).2 u huv
  exact (he.completed u (hends u v huv) hu).1

end Hermes.DagWalk
