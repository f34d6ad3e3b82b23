import Hermes.Lib.Dict
import Hermes.Lib.Flottant
import Hermes.Lib.Parcours

/-! # Selection of skills under a budget

The candidates are examined in their order.
-/

namespace Hermes.Skills

open Lib Lib.Flottant Lib.Parcours

inductive SkillSelectionStrategy where
  | minimal
  | balanced
  | exhaustive
  | performance
  deriving DecidableEq

structure SkillDescriptor where
  id : String
  capabilities : List String := []
  dependencies : List String := []
  estimatedTokens : Int := 0
  deriving DecidableEq

structure SkillRepository where
  skills : Dict String SkillDescriptor
  cles : skills.keys.Nodup

structure Candidat where
  score : Binaire
  skill : SkillDescriptor

structure AdaptiveSkillOrchestrator where
  repository : SkillRepository
  strategy : SkillSelectionStrategy := .balanced
  maxSkills : Int := 10
  maxTokens : Int := 50000

structure Selection where
  selected : List String := []
  rejected : List String := []
  rejectedReasons : Dict String String := []
  totalTokens : Int := 0
  deriving DecidableEq

inductive Decision where
  | retenir (toAdd : List String)
  | rejeter (raison : String)
  /-- `continue`, the skill being selected already. -/
  | passer
  deriving DecidableEq

namespace SkillRepository

variable (r : SkillRepository)

def get (id : String) : Option SkillDescriptor := r.skills.get? id

def dependances (id : String) : List String :=
  match r.get id with
  | none => []
  | some skill => skill.dependencies

def jetons (id : String) : Int :=
  match r.get id with
  | none => 0
  | some skill => skill.estimatedTokens

def tours : Nat := 1 + (r.skills.keys.map fun id => (r.dependances id).length).sum

def resolveDependencies (id : String) (selected : List String) : List String :=
  parcourir r.dependances selected r.tours [id] []

/-- `b` is `a` or one of its dependencies, direct or not. -/
def Depend (a b : String) : Prop := Relation.ReflTransGen (fun x y => y ∈ r.dependances x) a b

end SkillRepository

namespace AdaptiveSkillOrchestrator

variable (o : AdaptiveSkillOrchestrator)

/-- `capabilities & skill.capabilities`. -/
def requis (capabilities : List String) (skill : SkillDescriptor) : Bool :=
  capabilities.any fun capability => capability ∈ skill.capabilities

/-- The strategies that set a candidate aside, whatever the budget. -/
def filtre (capabilities : List String) (c : Candidat) : Option String :=
  match o.strategy with
  | .minimal =>
      if requis capabilities c.skill then none else some "Not required by mission capabilities."
  | .performance =>
      if c.score.le (.fini 0) && !requis capabilities c.skill then some "Low relevance score."
      else none
  | .balanced => none
  | .exhaustive => none

def decider (capabilities : List String) (e : Selection) (c : Candidat) : Decision :=
  match o.filtre capabilities c with
  | some raison => if c.skill.id ∈ e.selected then .passer else .rejeter raison
  | none =>
      let toAdd := o.repository.resolveDependencies c.skill.id e.selected
      if o.maxSkills < e.selected.length + toAdd.length then
        .rejeter ("Would exceed max skills (" ++ toString o.maxSkills ++ ").")
      else if o.maxTokens < e.totalTokens + (toAdd.map o.repository.jetons).sum then
        .rejeter ("Would exceed token budget (" ++ toString o.maxTokens ++ ").")
      else .retenir toAdd

/-- `for sid in to_add`. -/
def ajouter (e : Selection) (sid : String) : Selection :=
  if sid ∈ e.selected then e
  else
    { e with
      selected := e.selected ++ [sid]
      totalTokens := e.totalTokens + o.repository.jetons sid }

def examiner (capabilities : List String) (e : Selection) (c : Candidat) : Selection :=
  match o.decider capabilities e c with
  | .retenir toAdd => toAdd.foldl o.ajouter e
  | .rejeter raison =>
      { e with
        rejected := e.rejected ++ [c.skill.id]
        rejectedReasons := e.rejectedReasons.set c.skill.id raison }
  | .passer => e

def applyStrategy (capabilities : List String) (scored : List Candidat) : Selection :=
  scored.foldl (o.examiner capabilities) {}

/-- The selection is the one that its description announces. -/
structure Coherente (scored : List Candidat) (e : Selection) : Prop where
  disjoints : ∀ id ∈ e.selected, id ∉ e.rejected
  couvrent : ∀ c ∈ scored, c.skill.id ∈ e.selected ∨ c.skill.id ∈ e.rejected
  clos : ∀ id ∈ e.selected, ∀ d ∈ o.repository.dependances id, d ∈ e.selected
  distincts : e.selected.Nodup
  nombre : e.selected.length ≤ o.maxSkills
  somme : e.totalTokens = (e.selected.map o.repository.jetons).sum
  budget : e.totalTokens ≤ o.maxTokens

/-- The candidate is kept when its turn comes after the others. -/
def Retenu (capabilities : List String) (avant : List Candidat) (c : Candidat) : Prop :=
  ∃ toAdd, o.decider capabilities (o.applyStrategy capabilities avant) c = .retenir toAdd

def Rejete (capabilities : List String) (avant : List Candidat) (c : Candidat) : Prop :=
  ∃ raison, o.decider capabilities (o.applyStrategy capabilities avant) c = .rejeter raison

/-- No candidate that is kept depends on one that was rejected before it. -/
def SansRevirement (capabilities : List String) (scored : List Candidat) : Prop :=
  ∀ avant a milieu c apres, scored = avant ++ a :: (milieu ++ c :: apres) →
    o.Rejete capabilities avant a → o.Retenu capabilities (avant ++ a :: milieu) c →
      ¬o.repository.Depend c.skill.id a.skill.id

/-- The budgets leave room for an empty selection, or some candidate is kept. -/
def BudgetsTenables (capabilities : List String) (scored : List Candidat) : Prop :=
  0 ≤ o.maxSkills ∧ (0 ≤ o.maxTokens ∨
    ∃ avant c apres, scored = avant ++ c :: apres ∧ o.Retenu capabilities avant c)

end AdaptiveSkillOrchestrator

section Dependances

variable (r : SkillRepository)

theorem dependances_absent {id : String} (h : id ∉ r.skills.keys) : r.dependances id = [] := by
  simp [SkillRepository.dependances, SkillRepository.get, Dict.get?_eq_none h]

theorem mesure_tours (id : String) :
    mesure r.dependances r.skills.keys [id] [] ≤ r.tours := by
  simp [mesure, restant, SkillRepository.tours]

theorem resolveDependencies_fini (id : String) (selected : List String) (plus : Nat) :
    parcourir r.dependances selected (r.tours + plus) [id] [] =
      r.resolveDependencies id selected :=
  parcourir_fuel r.cles (fun _ => dependances_absent r) plus (mesure_tours r id)

variable {id : String} {selected : List String}

theorem ouvert_resolveDependencies (id : String) (selected : List String) :
    Ouvert r.dependances selected [] (r.resolveDependencies id selected) :=
  (parcourir_spec r.cles (fun _ => dependances_absent r) (mesure_tours r id)
    (ouvert_nil _ _ _)).1

theorem mem_resolveDependencies
    (hclos : ∀ v ∈ selected, ∀ d ∈ r.dependances v, d ∈ selected) (v : String) :
    v ∈ r.resolveDependencies id selected ↔ v ∉ selected ∧ r.Depend id v :=
  mem_parcourir r.cles (fun _ => dependances_absent r) (mesure_tours r id) hclos v

theorem resolveDependencies_of_mem
    (hclos : ∀ v ∈ selected, ∀ d ∈ r.dependances v, d ∈ selected) (h : id ∈ selected) :
    r.resolveDependencies id selected = [] := by
  apply List.eq_nil_iff_forall_not_mem.mpr
  intro v hv
  obtain ⟨hnot, hdepend⟩ := (mem_resolveDependencies r hclos v).mp hv
  apply hnot
  clear hv hnot
  induction hdepend with
  | refl => exact h
  | tail _ hstep ih => exact hclos _ ih _ hstep

end Dependances

section Boucle

variable {o : AdaptiveSkillOrchestrator} {capabilities : List String} {scored : List Candidat}
  {e : Selection} {c : Candidat}

open AdaptiveSkillOrchestrator

theorem foldl_ajouter (toAdd : List String) (e : Selection) (hnodup : toAdd.Nodup)
    (hneufs : ∀ v ∈ toAdd, v ∉ e.selected) :
    toAdd.foldl o.ajouter e =
      { e with
        selected := e.selected ++ toAdd
        totalTokens := e.totalTokens + (toAdd.map o.repository.jetons).sum } := by
  induction toAdd generalizing e with
  | nil => simp
  | cons v toAdd ih =>
      obtain ⟨hv, hrest⟩ := List.nodup_cons.mp hnodup
      have hneuf : v ∉ e.selected := hneufs v List.mem_cons_self
      rw [List.foldl_cons, ajouter, if_neg hneuf, ih]
      · simp [Int.add_assoc]
      · exact hrest
      · intro x hx hmem
        rcases List.mem_append.mp hmem with hmem | hmem
        · exact hneufs x (List.mem_cons_of_mem v hx) hmem
        · exact hv (List.mem_singleton.mp hmem ▸ hx)

/-- What holds after every candidate, whatever became of it. -/
structure Inv (o : AdaptiveSkillOrchestrator) (capabilities : List String)
    (scored : List Candidat) (e : Selection) : Prop where
  clos : ∀ id ∈ e.selected, ∀ d ∈ o.repository.dependances id, d ∈ e.selected
  distincts : e.selected.Nodup
  somme : e.totalTokens = (e.selected.map o.repository.jetons).sum
  tenue : e.selected ≠ [] → e.selected.length ≤ o.maxSkills ∧ e.totalTokens ≤ o.maxTokens
  couvrent : ∀ c ∈ scored, c.skill.id ∈ e.selected ∨ c.skill.id ∈ e.rejected
  retenus : e.selected ≠ [] → ∃ avant c apres, scored = avant ++ c :: apres ∧
    o.Retenu capabilities avant c
  rejetes : ∀ id ∈ e.rejected, ∃ avant a apres, scored = avant ++ a :: apres ∧
    o.Rejete capabilities avant a ∧ a.skill.id = id

theorem inv_nil : Inv o capabilities [] {} where
  clos := nofun
  distincts := List.nodup_nil
  somme := rfl
  tenue := fun h => absurd rfl h
  couvrent := nofun
  retenus := fun h => absurd rfl h
  rejetes := nofun

theorem applyStrategy_concat (capabilities : List String) (scored : List Candidat) (c : Candidat) :
    o.applyStrategy capabilities (scored ++ [c]) =
      o.examiner capabilities (o.applyStrategy capabilities scored) c := by
  rw [applyStrategy, List.foldl_append]
  rfl

theorem decider_spec (hinv : Inv o capabilities scored e) (c : Candidat) :
    (∃ raison, o.decider capabilities e c = .rejeter raison ∧ c.skill.id ∉ e.selected) ∨
      (o.decider capabilities e c = .passer ∧ c.skill.id ∈ e.selected) ∨
      (o.decider capabilities e c =
          .retenir (o.repository.resolveDependencies c.skill.id e.selected) ∧
        e.selected.length + (o.repository.resolveDependencies c.skill.id e.selected).length ≤
          o.maxSkills ∧
        e.totalTokens + ((o.repository.resolveDependencies c.skill.id e.selected).map
          o.repository.jetons).sum ≤ o.maxTokens) := by
  have hplein : c.skill.id ∈ e.selected →
      o.repository.resolveDependencies c.skill.id e.selected = [] ∧
        e.selected.length ≤ o.maxSkills ∧ e.totalTokens ≤ o.maxTokens := by
    intro h
    exact ⟨resolveDependencies_of_mem o.repository hinv.clos h,
      hinv.tenue (List.ne_nil_of_mem h)⟩
  unfold decider
  split
  · next raison _ =>
      by_cases h : c.skill.id ∈ e.selected
      · exact .inr (.inl ⟨if_pos h, h⟩)
      · exact .inl ⟨raison, if_neg h, h⟩
  · dsimp only
    split
    · next hcompte =>
        refine .inl ⟨_, rfl, fun h => ?_⟩
        have hrien := hplein h
        rw [hrien.1, List.length_nil] at hcompte
        omega
    · next hcompte =>
        split
        · next htotal =>
            refine .inl ⟨_, rfl, fun h => ?_⟩
            have hrien := hplein h
            rw [hrien.1, List.map_nil, List.sum_nil] at htotal
            omega
        · next htotal => exact .inr (.inr ⟨rfl, by omega, by omega⟩)

theorem examiner_rejete {raison : String} (h : o.decider capabilities e c = .rejeter raison) :
    o.examiner capabilities e c =
      { e with
        rejected := e.rejected ++ [c.skill.id]
        rejectedReasons := e.rejectedReasons.set c.skill.id raison } := by
  unfold examiner
  rw [h]

theorem examiner_passe (h : o.decider capabilities e c = .passer) :
    o.examiner capabilities e c = e := by
  unfold examiner
  rw [h]

theorem examiner_retenu
    (h : o.decider capabilities e c =
      .retenir (o.repository.resolveDependencies c.skill.id e.selected)) :
    o.examiner capabilities e c =
      { e with
        selected := e.selected ++ o.repository.resolveDependencies c.skill.id e.selected
        totalTokens := e.totalTokens + ((o.repository.resolveDependencies c.skill.id
          e.selected).map o.repository.jetons).sum } := by
  have houvert := ouvert_resolveDependencies o.repository c.skill.id e.selected
  unfold examiner
  rw [h]
  exact foldl_ajouter _ e houvert.nodup houvert.ecarte

theorem decoupe_concat {avant apres : List Candidat} {a : Candidat}
    (h : scored = avant ++ a :: apres) (c : Candidat) :
    scored ++ [c] = avant ++ a :: (apres ++ [c]) := by
  rw [h, List.append_assoc, List.cons_append]

theorem Inv.examiner (hinv : Inv o capabilities scored (o.applyStrategy capabilities scored))
    (c : Candidat) :
    Inv o capabilities (scored ++ [c]) (o.applyStrategy capabilities (scored ++ [c])) := by
  rw [applyStrategy_concat]
  have hrejetes : ∀ id ∈ (o.applyStrategy capabilities scored).rejected,
      ∃ avant a apres, scored ++ [c] = avant ++ a :: apres ∧ o.Rejete capabilities avant a ∧
        a.skill.id = id := by
    intro id hid
    obtain ⟨avant, a, apres, heq, hrejete, hnom⟩ := hinv.rejetes id hid
    exact ⟨avant, a, apres ++ [c], decoupe_concat heq c, hrejete, hnom⟩
  have hretenus : (o.applyStrategy capabilities scored).selected ≠ [] →
      ∃ avant a apres, scored ++ [c] = avant ++ a :: apres ∧ o.Retenu capabilities avant a := by
    intro h
    obtain ⟨avant, a, apres, heq, hretenu⟩ := hinv.retenus h
    exact ⟨avant, a, apres ++ [c], decoupe_concat heq c, hretenu⟩
  rcases decider_spec hinv c with ⟨raison, h, _⟩ | ⟨h, hmem⟩ | ⟨h, hcompte, htotal⟩
  · rw [examiner_rejete h]
    refine ⟨hinv.clos, hinv.distincts, hinv.somme, hinv.tenue, ?_, hretenus, ?_⟩
    · intro x hx
      rcases List.mem_append.mp hx with hx | hx
      · rcases hinv.couvrent x hx with hs | hr
        · exact .inl hs
        · exact .inr (List.mem_append_left _ hr)
      · rw [List.mem_singleton.mp hx]
        exact .inr (List.mem_append_right _ List.mem_cons_self)
    · intro id hid
      rcases List.mem_append.mp hid with hid | hid
      · exact hrejetes id hid
      · exact ⟨scored, c, [], rfl, ⟨raison, h⟩, (List.mem_singleton.mp hid).symm⟩
  · rw [examiner_passe h]
    refine ⟨hinv.clos, hinv.distincts, hinv.somme, hinv.tenue, ?_, hretenus, hrejetes⟩
    intro x hx
    rcases List.mem_append.mp hx with hx | hx
    · exact hinv.couvrent x hx
    · rw [List.mem_singleton.mp hx]
      exact .inl hmem
  · rw [examiner_retenu h]
    have houvert := ouvert_resolveDependencies o.repository c.skill.id
      (o.applyStrategy capabilities scored).selected
    have hvenu : ∀ x ∈ (o.applyStrategy capabilities scored).selected, x ∈
        (o.applyStrategy capabilities scored).selected ++
          o.repository.resolveDependencies c.skill.id
            (o.applyStrategy capabilities scored).selected := fun x hx =>
      List.mem_append_left _ hx
    refine ⟨?_, ?_, ?_, ?_, ?_, ?_, hrejetes⟩
    · intro id hid d hd
      rcases List.mem_append.mp hid with hid | hid
      · exact hvenu d (hinv.clos id hid d hd)
      · rcases houvert.suite id hid d hd with hvu | hselected | hnil
        · exact List.mem_append_right _ hvu
        · exact hvenu d hselected
        · cases hnil
    · apply List.nodup_append.mpr
      refine ⟨hinv.distincts, houvert.nodup, ?_⟩
      intro x hx y hy heq
      exact houvert.ecarte y hy (heq ▸ hx)
    · dsimp only
      rw [hinv.somme, List.map_append, List.sum_append]
    · intro _
      dsimp only
      rw [List.length_append]
      exact ⟨by omega, htotal⟩
    · intro x hx
      rcases List.mem_append.mp hx with hx | hx
      · rcases hinv.couvrent x hx with hs | hr
        · exact .inl (hvenu _ hs)
        · exact .inr hr
      · rw [List.mem_singleton.mp hx]
        by_cases hmem : c.skill.id ∈ (o.applyStrategy capabilities scored).selected
        · exact .inl (hvenu _ hmem)
        · left
          apply List.mem_append_right
          exact (mem_resolveDependencies o.repository hinv.clos _).mpr ⟨hmem, .refl⟩
    · exact fun _ => ⟨scored, c, [], rfl, _, h⟩

theorem inv_applyStrategy (o : AdaptiveSkillOrchestrator) (capabilities : List String)
    (scored : List Candidat) :
    Inv o capabilities scored (o.applyStrategy capabilities scored) := by
  induction scored using List.reverseRecOn with
  | nil => exact inv_nil
  | append_singleton scored c ih => exact ih.examiner c

theorem croit_applyStrategy (o : AdaptiveSkillOrchestrator) (capabilities : List String)
    (scored suite : List Candidat) (id : String) :
    (id ∈ (o.applyStrategy capabilities scored).selected →
        id ∈ (o.applyStrategy capabilities (scored ++ suite)).selected) ∧
      (id ∈ (o.applyStrategy capabilities scored).rejected →
        id ∈ (o.applyStrategy capabilities (scored ++ suite)).rejected) := by
  induction suite using List.reverseRecOn with
  | nil => simp
  | append_singleton suite c ih =>
      rw [← List.append_assoc, applyStrategy_concat]
      have hinv := inv_applyStrategy o capabilities (scored ++ suite)
      rcases decider_spec hinv c with ⟨raison, h, _⟩ | ⟨h, _⟩ | ⟨h, _, _⟩
      · rw [examiner_rejete h]
        exact ⟨ih.1, fun hid => List.mem_append_left _ (ih.2 hid)⟩
      · rw [examiner_passe h]
        exact ih
      · rw [examiner_retenu h]
        exact ⟨fun hid => List.mem_append_left _ (ih.1 hid), ih.2⟩

theorem mem_rejete (h : o.Rejete capabilities scored c) :
    c.skill.id ∈ (o.applyStrategy capabilities (scored ++ [c])).rejected := by
  obtain ⟨raison, h⟩ := h
  rw [applyStrategy_concat, examiner_rejete h]
  exact List.mem_append_right _ List.mem_cons_self

theorem mem_retenu (h : o.Retenu capabilities scored c) {id : String}
    (hid : o.repository.Depend c.skill.id id) :
    id ∈ (o.applyStrategy capabilities (scored ++ [c])).selected := by
  have hinv := inv_applyStrategy o capabilities scored
  obtain ⟨toAdd, h⟩ := h
  rw [applyStrategy_concat]
  rcases decider_spec hinv c with ⟨raison, h', _⟩ | ⟨h', _⟩ | ⟨h', _, _⟩
  · rw [h] at h'
    cases h'
  · rw [h] at h'
    cases h'
  · rw [examiner_retenu h']
    by_cases hmem : id ∈ (o.applyStrategy capabilities scored).selected
    · exact List.mem_append_left _ hmem
    · exact List.mem_append_right _
        ((mem_resolveDependencies o.repository hinv.clos id).mpr ⟨hmem, hid⟩)

theorem disjoints_of_sansRevirement (h : o.SansRevirement capabilities scored) :
    ∀ id ∈ (o.applyStrategy capabilities scored).selected,
      id ∉ (o.applyStrategy capabilities scored).rejected := by
  induction scored using List.reverseRecOn with
  | nil => exact nofun
  | append_singleton scored c ih =>
      have hinv := inv_applyStrategy o capabilities scored
      have hrec := ih (by
        intro avant a milieu x apres heq
        apply h avant a milieu x (apres ++ [c])
        rw [heq]
        simp)
      rw [applyStrategy_concat]
      rcases decider_spec hinv c with ⟨raison, hd, hneuf⟩ | ⟨hd, _⟩ | ⟨hd, _, _⟩
      · rw [examiner_rejete hd]
        intro id hid hrejete
        rcases List.mem_append.mp hrejete with hrejete | hrejete
        · exact hrec id hid hrejete
        · rw [List.mem_singleton.mp hrejete] at hid
          exact hneuf hid
      · rw [examiner_passe hd]
        exact hrec
      · rw [examiner_retenu hd]
        intro id hid hrejete
        rcases List.mem_append.mp hid with hid | hid
        · exact hrec id hid hrejete
        · obtain ⟨avant, a, milieu, heq, ha, hnom⟩ := hinv.rejetes id hrejete
          have hdepend := ((mem_resolveDependencies o.repository hinv.clos id).mp hid).2
          subst hnom
          apply h avant a milieu c [] _ ha ⟨_, heq ▸ hd⟩ hdepend
          rw [heq, List.append_assoc, List.cons_append]

end Boucle

/-- Every search ends, and the selection is the announced one exactly when the budgets are tenable
and no candidate that is kept brings back one that was rejected. -/
theorem selection_coherente_iff (o : AdaptiveSkillOrchestrator) (capabilities : List String)
    (scored : List Candidat) :
    (∀ id selected plus, parcourir o.repository.dependances selected
        (o.repository.tours + plus) [id] [] = o.repository.resolveDependencies id selected) ∧
      (o.Coherente scored (o.applyStrategy capabilities scored) ↔
        o.BudgetsTenables capabilities scored ∧ o.SansRevirement capabilities scored) := by
  refine ⟨resolveDependencies_fini o.repository, ?_⟩
  have hinv := inv_applyStrategy o capabilities scored
  constructor
  · intro h
    refine ⟨⟨?_, ?_⟩, ?_⟩
    · have hnombre := h.nombre
      omega
    · by_cases hvide : (o.applyStrategy capabilities scored).selected = []
      · left
        have hbudget := h.budget
        rw [hinv.somme, hvide] at hbudget
        exact hbudget
      · exact .inr (hinv.retenus hvide)
    · intro avant a milieu c apres heq hrejete hretenu hdepend
      have hrejected := (croit_applyStrategy o capabilities (avant ++ [a])
        (milieu ++ c :: apres) a.skill.id).2 (mem_rejete hrejete)
      have hselected := (croit_applyStrategy o capabilities (avant ++ a :: milieu ++ [c])
        apres a.skill.id).1 (mem_retenu hretenu hdepend)
      have hgauche : avant ++ [a] ++ (milieu ++ c :: apres) = scored := by simp [heq]
      have hdroite : avant ++ a :: milieu ++ [c] ++ apres = scored := by simp [heq]
      rw [hgauche] at hrejected
      rw [hdroite] at hselected
      exact h.disjoints a.skill.id hselected hrejected
  · intro ⟨⟨hskills, htokens⟩, hrevirement⟩
    refine ⟨disjoints_of_sansRevirement hrevirement, hinv.couvrent, hinv.clos, hinv.distincts, ?_,
      hinv.somme, ?_⟩
    · by_cases hvide : (o.applyStrategy capabilities scored).selected = []
      · rw [hvide]
        exact hskills
      · exact (hinv.tenue hvide).1
    · by_cases hvide : (o.applyStrategy capabilities scored).selected = []
      · rcases htokens with htokens | ⟨avant, c, apres, heq, hretenu⟩
        · rw [hinv.somme, hvide]
          exact htokens
        · have hselected := (croit_applyStrategy o capabilities (avant ++ [c]) apres
            c.skill.id).1 (mem_retenu hretenu .refl)
          have hsame : avant ++ [c] ++ apres = scored := by simp [heq]
          rw [hsame, hvide] at hselected
          cases hselected
      · exact (hinv.tenue hvide).2

/-- Two skills, the second one depending on the first. -/
def repertoireTemoin : SkillRepository where
  skills :=
    [("notes", { id := "notes" }),
      ("code", { id := "code", capabilities := ["code"], dependencies := ["notes"] })]
  cles := by decide

/-- A skill that the capabilities do not ask for is rejected, then brought back by one that they
ask for. -/
theorem rejete_puis_retenu :
    let o : AdaptiveSkillOrchestrator := { repository := repertoireTemoin, strategy := .minimal }
    let scored : List Candidat :=
      [⟨.fini 12, { id := "notes" }⟩,
        ⟨.fini 11, { id := "code", capabilities := ["code"], dependencies := ["notes"] }⟩]
    ¬o.Coherente scored (o.applyStrategy ["code"] scored) := by
  intro o scored h
  exact h.disjoints "notes" (by decide +kernel) (by decide +kernel)

end Hermes.Skills
