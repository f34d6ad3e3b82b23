import Hermes.Agent.Lifecycle
import Hermes.Agent.Supervisor
import Mathlib.Logic.Relation

/-! # Driving missions

What the ticks are for, without the records: missions with a state, tasks with a status and the
edges between them, agents that work on one task each.
-/

namespace Hermes.Agent.Conduite

open Lifecycle Supervisor
open Relation (ReflTransGen)

structure Fiche where
  mission : String
  tache : String
  etat : AgentState

@[ext]
structure Vue where
  etat : String → Option MissionState
  arcs : String → List (String × String)
  statut : String → String → Option NodeStatus
  fiche : String → Option Fiche

/-- The status that the end of an agent gives to its task. -/
def marque : AgentState → Option NodeStatus
  | .completed => some .completed
  | .failed => some .failed
  | _ => none

namespace Vue

def poserStatut (v : Vue) (mission tache : String) (status : NodeStatus) : Vue :=
  { v with statut := fun m t => if m = mission ∧ t = tache then some status else v.statut m t }

def poserFiche (v : Vue) (id : String) (x : Fiche) : Vue :=
  { v with fiche := fun id' => if id' = id then some x else v.fiche id' }

def poserEtat (v : Vue) (mission : String) (e : MissionState) : Vue :=
  { v with etat := fun m => if m = mission then some e else v.etat m }

/-- A mission that nobody knew, its tasks all pending. -/
def inscrire (v : Vue) (mission : String) (e : MissionState) (arcs : List (String × String))
    (statut : String → Option NodeStatus) : Vue :=
  { v with
    etat := fun m => if m = mission then some e else v.etat m
    arcs := fun m => if m = mission then arcs else v.arcs m
    statut := fun m => if m = mission then statut else v.statut m }

end Vue

/-- What an agent may become: it stays at its task, and its end is final. -/
inductive Evolue : Option Fiche → Option Fiche → Prop
  | absent : Evolue none none
  | present {x x' : Fiche} (mission : x'.mission = x.mission) (tache : x'.tache = x.tache)
      (fin : x.etat.terminal = true → x'.etat = x.etat) : Evolue (some x) (some x')

/-- What a tick may do for a mission, one thing at a time. -/
inductive Geste (mission : String) (v : Vue) : Vue → Prop
  | releve {id : String} {x : Fiche} {status : NodeStatus} (hx : v.fiche id = some x)
      (hmission : x.mission = mission) (hnom : x.tache ≠ "")
      (hmarque : marque x.etat = some status) :
      Geste mission v (v.poserStatut x.mission x.tache status)
  | acheve (hetat : v.etat mission = some .running) (hnon : ∃ t, v.statut mission t ≠ none)
      (hfini : ∀ t st, v.statut mission t = some st → st = .completed) :
      Geste mission v (v.poserEtat mission .completed)
  | lance {tache id : String} (hetat : v.etat mission = some .running)
      (hstatut : v.statut mission tache = some .pending)
      (hamont : ∀ u, (u, tache) ∈ v.arcs mission → v.statut mission u = some .completed)
      (hid : v.fiche id = none) :
      Geste mission v
        ((v.poserFiche id ⟨mission, tache, .running⟩).poserStatut mission tache .running)

def Pas (v v' : Vue) : Prop := ∃ mission, Geste mission v v'

/-- What the tasks remember of the agents. -/
structure Coherente (v : Vue) : Prop where
  connues : ∀ m t st, v.statut m t = some st → v.etat m ≠ none
  posees : ∀ id x, v.fiche id = some x →
    ∃ st, v.statut x.mission x.tache = some st ∧ st ≠ .pending
  unique : ∀ id id' x x', v.fiche id = some x → v.fiche id' = some x' →
    x.mission = x'.mission → x.tache = x'.tache → id = id'
  lancees : ∀ m t st, v.statut m t = some st → st ≠ .pending → ∃ id x, v.fiche id = some x ∧
    x.mission = m ∧ x.tache = t ∧ (st = .completed → x.etat = .completed)
  innommee : ∀ m, v.statut m "" ≠ some .completed
  amont : ∀ m u t st, (u, t) ∈ v.arcs m → v.statut m t = some st → st ≠ .pending →
    v.statut m u = some .completed
  achevees : ∀ m, v.etat m = some .completed → (∃ t, v.statut m t ≠ none) ∧
    ∀ t st, v.statut m t = some st → st = .completed

section Gestes

variable {v v' : Vue} {id mission tache : String} {x : Fiche} {status : NodeStatus}

theorem marque_eq_some (h : marque x.etat = some status) :
    x.etat.terminal = true ∧ status ≠ .pending ∧ (x.etat = .completed ↔ status = .completed) := by
  cases hetat : x.etat <;> rw [hetat] at h <;> cases h <;> exact ⟨rfl, by decide, by decide⟩

theorem Coherente.etat_of_completed (h : Coherente v) (hx : v.fiche id = some x)
    (hstatut : v.statut x.mission x.tache = some .completed) : x.etat = .completed := by
  obtain ⟨id', x', hx', hmission, htache, hfait⟩ :=
    h.lancees _ _ _ hstatut (by decide)
  have hid := h.unique id id' x x' hx hx' hmission.symm htache.symm
  rw [hid, hx'] at hx
  cases hx
  exact hfait rfl

theorem Coherente.releve (h : Coherente v) (hx : v.fiche id = some x) (hnom : x.tache ≠ "")
    (hmarque : marque x.etat = some status) :
    Coherente (v.poserStatut x.mission x.tache status) := by
  obtain ⟨-, hpending, hcompleted⟩ := marque_eq_some hmarque
  obtain ⟨ancien, hancien, hlancee⟩ := h.posees id x hx
  -- a completed task stays completed
  have hreste : ∀ m t, v.statut m t = some .completed →
      (v.poserStatut x.mission x.tache status).statut m t = some .completed := by
    intro m t hmt
    simp only [Vue.poserStatut]
    split
    · next heq =>
        rw [heq.1, heq.2] at hmt
        rw [hcompleted.mp (h.etat_of_completed hx hmt)]
    · exact hmt
  refine ⟨fun m t st hst => ?_, fun id' x' hx' => ?_, h.unique, fun m t st hst hne => ?_,
    fun m => ?_, fun m u t st harc hst hne => ?_, fun m hm => ?_⟩
  · simp only [Vue.poserStatut] at hst
    split at hst
    · next heq =>
        rw [heq.1]
        exact h.connues _ _ _ hancien
    · exact h.connues m t st hst
  · simp only [Vue.poserStatut]
    split
    · exact ⟨status, rfl, hpending⟩
    · exact h.posees id' x' hx'
  · simp only [Vue.poserStatut] at hst
    split at hst
    · next heq =>
        cases hst
        exact ⟨id, x, hx, heq.1.symm, heq.2.symm, hcompleted.mpr⟩
    · exact h.lancees m t st hst hne
  · simp only [Vue.poserStatut]
    rw [if_neg (fun heq => hnom heq.2.symm)]
    exact h.innommee m
  · apply hreste
    simp only [Vue.poserStatut] at hst
    split at hst
    · next heq =>
        rw [heq.2] at harc
        rw [heq.1] at harc ⊢
        exact h.amont _ u _ ancien harc hancien hlancee
    · exact h.amont m u t st harc hst hne
  · obtain ⟨⟨t, ht⟩, hfini⟩ := h.achevees m hm
    refine ⟨⟨t, ?_⟩, fun t' st hst => ?_⟩
    · obtain ⟨st, hst⟩ := Option.ne_none_iff_exists'.mp ht
      rw [hreste m t (hfini t st hst ▸ hst)]
      exact Option.some_ne_none _
    · by_cases heq : m = x.mission ∧ t' = x.tache
      · have hfait := hfini x.tache ancien (heq.1 ▸ hancien)
        rw [hreste m t' (by rw [heq.1, heq.2, ← hfait]; exact hancien)] at hst
        exact (Option.some.inj hst).symm
      · simp only [Vue.poserStatut, if_neg heq] at hst
        exact hfini t' st hst

theorem Coherente.poserEtat {e : MissionState} (h : Coherente v)
    (hacheve : e = .completed → (∃ t, v.statut mission t ≠ none) ∧
      ∀ t st, v.statut mission t = some st → st = .completed) :
    Coherente (v.poserEtat mission e) := by
  refine ⟨fun m t st hst => ?_, h.posees, h.unique, h.lancees, h.innommee, h.amont,
    fun m hm => ?_⟩
  · simp only [Vue.poserEtat]
    split
    · exact Option.some_ne_none _
    · exact h.connues m t st hst
  · simp only [Vue.poserEtat] at hm
    split at hm
    · next heq =>
        rw [heq]
        exact hacheve (Option.some.inj hm)
    · exact h.achevees m hm

theorem Coherente.lance (h : Coherente v) (hetat : v.etat mission = some .running)
    (hstatut : v.statut mission tache = some .pending)
    (hamont : ∀ u, (u, tache) ∈ v.arcs mission → v.statut mission u = some .completed)
    (hid : v.fiche id = none) :
    Coherente ((v.poserFiche id ⟨mission, tache, .running⟩).poserStatut mission tache .running) := by
  have hreste : ∀ m u, v.statut m u = some .completed →
      ¬ (m = mission ∧ u = tache) := by
    rintro m u hmu ⟨rfl, rfl⟩
    rw [hstatut] at hmu
    cases hmu
  have hlibre : ∀ id' x', v.fiche id' = some x' → ¬ (x'.mission = mission ∧ x'.tache = tache) := by
    rintro id' x' hx' ⟨hmission, htache⟩
    obtain ⟨st, hst, hne⟩ := h.posees id' x' hx'
    rw [hmission, htache, hstatut] at hst
    exact hne (Option.some.inj hst).symm
  refine ⟨fun m t st hst => ?_, fun id' x' hx' => ?_, fun id₁ id₂ x₁ x₂ hx₁ hx₂ hm ht => ?_,
    fun m t st hst hne => ?_, fun m => ?_, fun m u t st harc hst hne => ?_, fun m hm => ?_⟩
  · simp only [Vue.poserStatut, Vue.poserFiche] at hst ⊢
    split at hst
    · next heq =>
        rw [heq.1, hetat]
        exact Option.some_ne_none _
    · exact h.connues m t st hst
  · simp only [Vue.poserStatut, Vue.poserFiche] at hx' ⊢
    split at hx'
    · cases hx'
      rw [if_pos ⟨rfl, rfl⟩]
      exact ⟨.running, rfl, by decide⟩
    · rw [if_neg (hlibre id' x' hx')]
      exact h.posees id' x' hx'
  · simp only [Vue.poserStatut, Vue.poserFiche] at hx₁ hx₂
    split at hx₁
    · next hid₁ =>
        cases hx₁
        split at hx₂
        · next hid₂ => exact hid₁.trans hid₂.symm
        · exact absurd ⟨hm.symm, ht.symm⟩ (hlibre id₂ x₂ hx₂)
    · split at hx₂
      · cases hx₂
        exact absurd ⟨hm, ht⟩ (hlibre id₁ x₁ hx₁)
      · exact h.unique id₁ id₂ x₁ x₂ hx₁ hx₂ hm ht
  · simp only [Vue.poserStatut, Vue.poserFiche] at hst ⊢
    split at hst
    · next heq =>
        cases hst
        refine ⟨id, _, if_pos rfl, heq.1.symm, heq.2.symm, fun hfalse => ?_⟩
        cases hfalse
    · obtain ⟨id', x', hx', hmission, htache, hfait⟩ := h.lancees m t st hst hne
      have hautre : id' ≠ id := by
        rintro rfl
        rw [hid] at hx'
        cases hx'
      exact ⟨id', x', by rw [if_neg hautre, hx'], hmission, htache, hfait⟩
  · simp only [Vue.poserStatut, Vue.poserFiche]
    split
    · exact fun hfalse => nomatch hfalse
    · exact h.innommee m
  · simp only [Vue.poserStatut, Vue.poserFiche] at harc hst ⊢
    have hfait : v.statut m u = some .completed := by
      split at hst
      · next heq =>
          rw [heq.1, heq.2] at harc
          rw [heq.1]
          exact hamont u harc
      · exact h.amont m u t st harc hst hne
    rw [if_neg (hreste m u hfait)]
    exact hfait
  · have hautre : m ≠ mission := by
      rintro rfl
      have hm' : v.etat m = some .completed := hm
      rw [hetat] at hm'
      cases hm'
    simp only [Vue.poserStatut, Vue.poserFiche, hautre, false_and, if_false]
    exact h.achevees m hm

theorem Coherente.geste (h : Coherente v) (hgeste : Geste mission v v') : Coherente v' := by
  cases hgeste with
  | releve hx _ hnom hmarque => exact h.releve hx hnom hmarque
  | acheve _ hnon hfini => exact h.poserEtat fun _ => ⟨hnon, hfini⟩
  | lance hetat hstatut hamont hid => exact h.lance hetat hstatut hamont hid

theorem Coherente.tour (h : Coherente v) (htour : ReflTransGen Pas v v') : Coherente v' := by
  induction htour with
  | refl => exact h
  | tail _ hpas ih =>
      obtain ⟨_, hgeste⟩ := hpas
      exact ih.geste hgeste

end Gestes

section Autres

variable {v : Vue} {mission : String} {e : MissionState}

theorem Coherente.agents (h : Coherente v) {fiche : String → Option Fiche}
    (hevolue : ∀ id, Evolue (v.fiche id) (fiche id)) : Coherente { v with fiche := fiche } := by
  have havant : ∀ id x', fiche id = some x' → ∃ x, v.fiche id = some x ∧
      x'.mission = x.mission ∧ x'.tache = x.tache := by
    intro id x' hx'
    have hid := hevolue id
    rw [hx'] at hid
    cases hx : v.fiche id with
    | none =>
        rw [hx] at hid
        cases hid
    | some x =>
        rw [hx] at hid
        cases hid with
        | present hmission htache _ => exact ⟨x, rfl, hmission, htache⟩
  refine ⟨h.connues, fun id x' hx' => ?_, fun id id' x x' hx hx' hm ht => ?_,
    fun m t st hst hne => ?_, h.innommee, h.amont, h.achevees⟩
  · obtain ⟨x, hx, hmission, htache⟩ := havant id x' hx'
    rw [hmission, htache]
    exact h.posees id x hx
  · obtain ⟨y, hy, hmission, htache⟩ := havant id x hx
    obtain ⟨y', hy', hmission', htache'⟩ := havant id' x' hx'
    exact h.unique id id' y y' hy hy' (by rw [← hmission, ← hmission', hm])
      (by rw [← htache, ← htache', ht])
  · obtain ⟨id, x, hx, hmission, htache, hfait⟩ := h.lancees m t st hst hne
    have hid := hevolue id
    rw [hx] at hid
    cases hx' : fiche id with
    | none =>
        rw [hx'] at hid
        cases hid
    | some x' =>
        rw [hx'] at hid
        cases hid with
        | present hmission' htache' hfin =>
            refine ⟨id, x', hx', hmission'.trans hmission, htache'.trans htache, fun hst => ?_⟩
            have hetat := hfait hst
            rw [hfin (by rw [hetat]; rfl), hetat]

theorem Coherente.inscrire (h : Coherente v) (hneuve : v.etat mission = none)
    (hne : e ≠ .completed) {arcs : List (String × String)} {statut : String → Option NodeStatus}
    (hstatut : ∀ t st, statut t = some st → st = .pending) :
    Coherente (v.inscrire mission e arcs statut) := by
  have hautre : ∀ id x, v.fiche id = some x → x.mission ≠ mission := by
    rintro id x hx rfl
    obtain ⟨st, hst, -⟩ := h.posees id x hx
    exact h.connues _ _ _ hst hneuve
  refine ⟨fun m t st hst => ?_, fun id x hx => ?_, h.unique, fun m t st hst hlancee => ?_,
    fun m => ?_, fun m u t st harc hst hlancee => ?_, fun m hm => ?_⟩
  · simp only [Vue.inscrire] at hst ⊢
    split
    · exact Option.some_ne_none _
    · next hm =>
        rw [if_neg hm] at hst
        exact h.connues m t st hst
  · simp only [Vue.inscrire, if_neg (hautre id x hx)]
    exact h.posees id x hx
  · simp only [Vue.inscrire] at hst
    split at hst
    · exact absurd (hstatut t st hst) hlancee
    · exact h.lancees m t st hst hlancee
  · simp only [Vue.inscrire]
    split
    · intro hcompleted
      cases hstatut _ _ hcompleted
    · exact h.innommee m
  · simp only [Vue.inscrire] at harc hst ⊢
    split at hst
    · exact absurd (hstatut t st hst) hlancee
    · next hm =>
        rw [if_neg hm] at harc ⊢
        exact h.amont m u t st harc hst hlancee
  · simp only [Vue.inscrire] at hm ⊢
    split at hm
    · exact absurd (Option.some.inj hm) hne
    · next hm' =>
        rw [if_neg hm']
        exact h.achevees m hm

end Autres

section Tick

variable {v v' : Vue} {mission m : String}

/-- What is done for a mission leaves the others as they are. -/
structure Cadre (m : String) (v v' : Vue) : Prop where
  etat : v'.etat m = v.etat m
  statut : ∀ t, v'.statut m t = v.statut m t
  fiche : ∀ id x, x.mission = m → (v'.fiche id = some x ↔ v.fiche id = some x)

theorem Cadre.refl (m : String) (v : Vue) : Cadre m v v := ⟨rfl, fun _ => rfl, fun _ _ _ => .rfl⟩

theorem Cadre.trans {v'' : Vue} (h : Cadre m v v') (h' : Cadre m v' v'') : Cadre m v v'' :=
  ⟨h'.etat.trans h.etat, fun t => (h'.statut t).trans (h.statut t),
    fun id x hx => (h'.fiche id x hx).trans (h.fiche id x hx)⟩

theorem cadre_of_gestes (h : ReflTransGen (Geste mission) v v') (hm : m ≠ mission) :
    Cadre m v v' := by
  induction h with
  | refl => exact ⟨rfl, fun _ => rfl, fun _ _ _ => .rfl⟩
  | tail _ hgeste ih =>
      cases hgeste with
      | @releve id x status _ hmission _ _ =>
          refine ⟨ih.etat, fun t => ?_, ih.fiche⟩
          simp only [Vue.poserStatut, hmission, hm, false_and, if_false]
          exact ih.statut t
      | acheve _ _ _ =>
          refine ⟨?_, ih.statut, ih.fiche⟩
          simp only [Vue.poserEtat, if_neg hm]
          exact ih.etat
      | @lance tache id _ _ _ hid =>
          refine ⟨ih.etat, fun t => ?_, fun id' x hx => ?_⟩
          · simp only [Vue.poserStatut, Vue.poserFiche, hm, false_and, if_false]
            exact ih.statut t
          · rw [← ih.fiche id' x hx]
            simp only [Vue.poserStatut, Vue.poserFiche]
            by_cases heq : id' = id
            · rw [if_pos heq, heq, hid]
              refine ⟨fun hsome => ?_, fun hnone => nomatch hnone⟩
              rw [← hx, ← Option.some.inj hsome] at hm
              exact absurd rfl hm
            · rw [if_neg heq]

theorem etat_of_tour (h : ReflTransGen Pas v v') :
    v'.etat m = v.etat m ∨ (v.etat m = some .running ∧ v'.etat m = some .completed) := by
  induction h with
  | refl => exact .inl rfl
  | tail _ hpas ih =>
      obtain ⟨mission, hgeste⟩ := hpas
      cases hgeste with
      | releve _ _ _ _ => exact ih
      | lance _ _ _ _ => exact ih
      | acheve hetat _ _ =>
          by_cases hm : m = mission
          · subst hm
            rcases ih with heq | ⟨-, hcompleted⟩
            · exact .inr ⟨heq ▸ hetat, if_pos rfl⟩
            · rw [hetat] at hcompleted
              cases hcompleted
          · simp only [Vue.poserEtat, if_neg hm]
            exact ih

theorem arcs_of_tour (h : ReflTransGen Pas v v') : v'.arcs = v.arcs := by
  induction h with
  | refl => rfl
  | tail _ hpas ih =>
      obtain ⟨_, hgeste⟩ := hpas
      cases hgeste <;> exact ih

theorem Coherente.statut_ne_none_iff (h : Coherente v) (htour : ReflTransGen Pas v v')
    (m t : String) : v'.statut m t ≠ none ↔ v.statut m t ≠ none := by
  induction htour with
  | refl => rfl
  | @tail w w' hdebut hpas ih =>
      rw [← ih]
      obtain ⟨mission, hgeste⟩ := hpas
      cases hgeste with
      | @releve id x status hx _ _ _ =>
          obtain ⟨st, hst, -⟩ := (h.tour hdebut).posees id x hx
          simp only [Vue.poserStatut]
          split
          · next heq => simp [heq.1, heq.2, hst]
          · rfl
      | acheve _ _ _ => rfl
      | @lance tache id _ hstatut _ _ =>
          simp only [Vue.poserStatut, Vue.poserFiche]
          split
          · next heq => simp [heq.1, heq.2, hstatut]
          · rfl

theorem fiche_of_tour (h : ReflTransGen Pas v v') (id : String) :
    v'.fiche id = v.fiche id ∨
      (v.fiche id = none ∧ ∃ x, v'.fiche id = some x ∧ x.etat = .running) := by
  induction h with
  | refl => exact .inl rfl
  | tail _ hpas ih =>
      obtain ⟨_, hgeste⟩ := hpas
      cases hgeste with
      | releve _ _ _ _ => exact ih
      | acheve _ _ _ => exact ih
      | @lance tache id' _ _ _ hid =>
          simp only [Vue.poserStatut, Vue.poserFiche]
          by_cases heq : id = id'
          · subst heq
            rw [if_pos rfl]
            rcases ih with hsame | ⟨-, x, hx, -⟩
            · exact .inr ⟨hsame ▸ hid, _, rfl, rfl⟩
            · rw [hid] at hx
              cases hx
          · rw [if_neg heq]
            exact ih

theorem Coherente.pending_of_tour (h : Coherente v) (htour : ReflTransGen Pas v v') {t : String}
    (ht : v'.statut m t = some .pending) : v.statut m t = some .pending := by
  obtain ⟨st, hst⟩ := Option.ne_none_iff_exists'.mp
    ((h.statut_ne_none_iff htour m t).mp (by rw [ht]; exact Option.some_ne_none _))
  by_contra hne
  obtain ⟨id, x, hx, hmission, htache, -⟩ := h.lancees m t st hst fun heq => hne (heq ▸ hst)
  have hx' : v'.fiche id = some x := by
    rcases fiche_of_tour htour id with heq | ⟨hnone, -⟩
    · rw [heq, hx]
    · rw [hx] at hnone
      cases hnone
  obtain ⟨st', hst', hlancee⟩ := (h.tour htour).posees id x hx'
  rw [hmission, htache, ht] at hst'
  exact hlancee (Option.some.inj hst').symm

theorem Coherente.lancee_a_temps (h : Coherente v) (htour : ReflTransGen Pas v v') {id : String}
    {x : Fiche} (havant : v.fiche id = none) (hx : v'.fiche id = some x) :
    v.etat x.mission = some .running ∧ v.statut x.mission x.tache ≠ none ∧
      ∀ u, (u, x.tache) ∈ v.arcs x.mission → ∃ id' x', v.fiche id' = some x' ∧
        x'.mission = x.mission ∧ x'.tache = u ∧ x'.etat = .completed := by
  induction htour with
  | refl =>
      rw [havant] at hx
      cases hx
  | @tail w w' hdebut hpas ih =>
      obtain ⟨mission, hgeste⟩ := hpas
      cases hgeste with
      | releve _ _ _ _ => exact ih hx
      | acheve _ _ _ => exact ih hx
      | @lance tache id' hetat hstatut hamont hid =>
          simp only [Vue.poserStatut, Vue.poserFiche] at hx
          split at hx
          · cases hx
            refine ⟨?_, ?_, ?_⟩
            · rcases etat_of_tour hdebut with heq | ⟨hrunning, -⟩
              · exact heq ▸ hetat
              · exact hrunning
            · rw [← h.statut_ne_none_iff hdebut, hstatut]
              exact Option.some_ne_none _
            · intro u harc
              rw [← arcs_of_tour hdebut] at harc
              obtain ⟨id₁, x₁, hx₁, hmission, htache, hfait⟩ :=
                (h.tour hdebut).lancees _ _ _ (hamont u harc) (by decide)
              refine ⟨id₁, x₁, ?_, hmission, htache, hfait rfl⟩
              -- a completed agent was not created by this tick
              rcases fiche_of_tour hdebut id₁ with heq | ⟨-, y, hy, hrunning⟩
              · rw [← heq, hx₁]
              · rw [hx₁] at hy
                cases hy
                rw [hfait rfl] at hrunning
                cases hrunning
          · exact ih hx

theorem Coherente.pending_of_neuve (h : Coherente v) (htour : ReflTransGen Pas v v') {id : String}
    {x : Fiche} (havant : v.fiche id = none) (hx : v'.fiche id = some x) :
    v.statut x.mission x.tache = some .pending := by
  obtain ⟨-, hconnue, -⟩ := h.lancee_a_temps htour havant hx
  obtain ⟨st, hst⟩ := Option.ne_none_iff_exists'.mp hconnue
  by_contra hne
  obtain ⟨id', x', hx', hmission, htache, -⟩ := h.lancees _ _ st hst fun heq => hne (heq ▸ hst)
  have hreste : v'.fiche id' = some x' := by
    rcases fiche_of_tour htour id' with heq | ⟨hnone, -⟩
    · rw [heq, hx']
    · rw [hx'] at hnone
      cases hnone
  have hid := (h.tour htour).unique id' id x' x hreste hx hmission htache
  rw [hid, havant] at hx'
  cases hx'

theorem tour_of_gestes (h : ReflTransGen (Geste mission) v v') : ReflTransGen Pas v v' :=
  ReflTransGen.mono (fun _ _ hgeste => ⟨mission, hgeste⟩) _ _ h

end Tick

end Hermes.Agent.Conduite
