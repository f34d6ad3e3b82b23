import Hermes.Lib.Index
import Mathlib.Data.List.Dedup
import Mathlib.Data.Finset.Insert

/-! # The registry of skills

One dictionary of the skills by id, and four indexes beside it.
-/

namespace Hermes.Skills

open Lib Lib.Index

inductive SkillCategory where
  | coding
  | reasoning
  | writing
  | analysis
  | security
  | deployment
  | testing
  | documentation
  | general
  deriving DecidableEq

inductive SkillDomain where
  | backend
  | frontend
  | devops
  | data
  | aiMl
  | security
  | architecture
  | infrastructure
  deriving DecidableEq

inductive SkillStatus where
  | active
  | deprecated
  | experimental
  | disabled
  deriving DecidableEq

namespace SkillCategory

def tous : List SkillCategory :=
  [.coding, .reasoning, .writing, .analysis, .security, .deployment, .testing, .documentation,
    .general]

def value : SkillCategory → String
  | .coding => "coding"
  | .reasoning => "reasoning"
  | .writing => "writing"
  | .analysis => "analysis"
  | .security => "security"
  | .deployment => "deployment"
  | .testing => "testing"
  | .documentation => "documentation"
  | .general => "general"

theorem value_injective : Function.Injective value := by
  intro a b
  cases a <;> cases b <;> decide

theorem mem_tous (a : SkillCategory) : a ∈ tous := by cases a <;> decide

end SkillCategory

namespace SkillDomain

def tous : List SkillDomain :=
  [.backend, .frontend, .devops, .data, .aiMl, .security, .architecture, .infrastructure]

def value : SkillDomain → String
  | .backend => "backend"
  | .frontend => "frontend"
  | .devops => "devops"
  | .data => "data"
  | .aiMl => "ai_ml"
  | .security => "security"
  | .architecture => "architecture"
  | .infrastructure => "infrastructure"

theorem value_injective : Function.Injective value := by
  intro a b
  cases a <;> cases b <;> decide

theorem mem_tous (a : SkillDomain) : a ∈ tous := by cases a <;> decide

end SkillDomain

namespace SkillStatus

def tous : List SkillStatus := [.active, .deprecated, .experimental, .disabled]

def value : SkillStatus → String
  | .active => "active"
  | .deprecated => "deprecated"
  | .experimental => "experimental"
  | .disabled => "disabled"

theorem value_injective : Function.Injective value := by
  intro a b
  cases a <;> cases b <;> decide

theorem mem_tous (a : SkillStatus) : a ∈ tous := by cases a <;> decide

end SkillStatus

structure SkillDefinition where
  id : String
  name : String := ""
  category : SkillCategory := .general
  domain : SkillDomain := .backend
  tags : List String := []
  dependencies : List String := []
  status : SkillStatus := .active
  deriving DecidableEq

/-- The indexes by category, domain and status have every value of their enumeration from the
start; the one by tag has only the tags it has met. -/
structure SkillRegistry where
  skills : Dict String SkillDefinition := []
  byCategory : SkillCategory → Finset String := fun _ => ∅
  byDomain : SkillDomain → Finset String := fun _ => ∅
  byTag : Dict String (Finset String) := []
  byStatus : SkillStatus → Finset String := fun _ => ∅

structure Stats where
  total : Nat
  byCategory : Dict String Nat
  byDomain : Dict String Nat
  byStatus : Dict String Nat
  uniqueTags : Nat
  deriving DecidableEq

inductive Operation where
  | register (skill : SkillDefinition)
  | delete (skillId : String)
  deriving DecidableEq

/-- `index[valeur].add(skill_id)`. -/
def ajouter {α : Type*} [DecidableEq α] (index : α → Finset String) (valeur : α)
    (skillId : String) (a : α) : Finset String :=
  if a = valeur then insert skillId (index a) else index a

/-- `index[valeur].discard(skill_id)`. -/
def retirer {α : Type*} [DecidableEq α] (index : α → Finset String) (valeur : α)
    (skillId : String) (a : α) : Finset String :=
  if a = valeur then (index a).erase skillId else index a

/-- `{a.value: len(ids) for a, ids in index.items() if ids}`. -/
def compter {α : Type*} (tous : List α) (value : α → String) (index : α → Finset String) :
    Dict String Nat :=
  tous.filterMap fun a => if index a = ∅ then none else some (value a, (index a).card)

/-- `by_tag.setdefault(tag, set()).add(skill_id)`. -/
def etiqueter (skillId : String) (byTag : Dict String (Finset String)) (tag : String) :
    Dict String (Finset String) :=
  byTag.set tag (insert skillId (byTag.getD tag ∅))

/-- The set of a tag goes with its last skill. -/
def detiqueter (skillId : String) (byTag : Dict String (Finset String)) (tag : String) :
    Dict String (Finset String) :=
  match byTag.get? tag with
  | none => byTag
  | some s =>
      if s = ∅ then byTag
      else if s.erase skillId = ∅ then byTag.erase tag
      else byTag.set tag (s.erase skillId)

@[simp]
theorem mem_ajouter {α : Type*} [DecidableEq α] {index : α → Finset String} {valeur : α}
    {skillId k : String} {a : α} :
    k ∈ ajouter index valeur skillId a ↔ k ∈ index a ∨ k = skillId ∧ valeur = a := by
  unfold ajouter
  split_ifs with h
  · simp [h, or_comm]
  · simp [Ne.symm h]

@[simp]
theorem mem_retirer {α : Type*} [DecidableEq α] {index : α → Finset String} {valeur : α}
    {skillId k : String} {a : α} :
    k ∈ retirer index valeur skillId a ↔ k ∈ index a ∧ ¬ (k = skillId ∧ valeur = a) := by
  unfold retirer
  split_ifs with h
  · simp [h, and_comm]
  · simp [Ne.symm h]

theorem compter_getD {α : Type*} {tous : List α} {value : α → String}
    (hvalue : Function.Injective value) {index : α → Finset String} {a : α} (ha : a ∈ tous) :
    (compter tous value index).getD (value a) 0 = (index a).card := by
  unfold compter
  induction tous with
  | nil => cases ha
  | cons b tous ih =>
      have hreste : (tous.filterMap fun a =>
          if index a = ∅ then none else some (value a, (index a).card)).lookup (value b) =
            none ∨ b ∈ tous := by
        by_contra hnot
        push Not at hnot
        obtain ⟨n, hn⟩ := Option.ne_none_iff_exists'.mp hnot.1
        obtain ⟨c, hc, hsome⟩ := List.mem_filterMap.mp (Dict.mem_of_get? hn)
        split_ifs at hsome
        cases hvalue (congrArg Prod.fst (Option.some.inj hsome))
        exact hnot.2 hc
      by_cases hab : a = b
      · subst hab
        by_cases hvide : index a = ∅
        · rw [List.filterMap_cons_none (by simp [hvide])]
          rcases hreste with hnone | hmem
          · simp [Dict.getD, Dict.get?, hnone, hvide]
          · exact ih hmem
        · rw [List.filterMap_cons_some (by rw [if_neg hvide]), Dict.getD_cons, if_pos rfl]
      · have hmem : a ∈ tous := (List.mem_cons.mp ha).resolve_left hab
        by_cases hvide : index b = ∅
        · rw [List.filterMap_cons_none (by simp [hvide])]
          exact ih hmem
        · rw [List.filterMap_cons_some (by rw [if_neg hvide]), Dict.getD_cons,
            if_neg fun h => hab (hvalue h)]
          exact ih hmem

section Etiquettes

variable {skillId k t tag : String} {byTag : Dict String (Finset String)}

theorem mem_etiqueter :
    k ∈ (etiqueter skillId byTag tag).getD t ∅ ↔
      k ∈ byTag.getD t ∅ ∨ k = skillId ∧ t = tag := by
  rw [etiqueter, Dict.getD_set]
  split_ifs with h
  · simp [h, or_comm]
  · simp [h]

theorem mem_detiqueter :
    k ∈ (detiqueter skillId byTag tag).getD t ∅ ↔
      k ∈ byTag.getD t ∅ ∧ ¬ (k = skillId ∧ t = tag) := by
  by_cases ht : t = tag
  · subst ht
    unfold detiqueter
    cases hget : byTag.get? t with
    | none => simp [Dict.getD, hget]
    | some s =>
        simp only
        split_ifs with hvide hseul
        · simp [Dict.getD, hget, hvide]
        · have hmem : k ∉ s.erase skillId := by simp [hseul]
          simp only [Finset.mem_erase, not_and] at hmem
          simp [Dict.getD, Dict.get?_erase, hget]
          tauto
        · simp [Dict.getD, hget, and_comm]
  · unfold detiqueter
    split
    · simp [ht]
    · split_ifs
      · simp [ht]
      · simp [Dict.getD, Dict.get?_erase, ht]
      · simp [Dict.getD_set, ht]

theorem mem_etiqueter_foldl (tags : List String) :
    k ∈ (tags.foldl (etiqueter skillId) byTag).getD t ∅ ↔
      k ∈ byTag.getD t ∅ ∨ k = skillId ∧ t ∈ tags := by
  induction tags generalizing byTag with
  | nil => simp
  | cons tag tags ih =>
      rw [List.foldl_cons, ih, mem_etiqueter, List.mem_cons]
      tauto

theorem mem_detiqueter_foldl (tags : List String) :
    k ∈ (tags.foldl (detiqueter skillId) byTag).getD t ∅ ↔
      k ∈ byTag.getD t ∅ ∧ ¬ (k = skillId ∧ t ∈ tags) := by
  induction tags generalizing byTag with
  | nil => simp
  | cons tag tags ih =>
      rw [List.foldl_cons, ih, mem_detiqueter, List.mem_cons]
      tauto

/-- One entry a tag, and none with an empty set. -/
structure Pleine (byTag : Dict String (Finset String)) : Prop where
  cles : byTag.keys.Nodup
  pleines : ∀ t ∈ byTag.keys, byTag.getD t ∅ ≠ ∅

theorem Pleine.etiqueter (h : Pleine byTag) : Pleine (etiqueter skillId byTag tag) where
  cles := Dict.nodup_keys_set h.cles _ _
  pleines := by
    intro t ht
    rw [Skills.etiqueter, Dict.keys_set] at ht
    rw [Skills.etiqueter, Dict.getD_set]
    split_ifs with htag
    · exact Finset.insert_ne_empty _ _
    · exact h.pleines t (ht.resolve_left htag)

theorem Pleine.detiqueter (h : Pleine byTag) : Pleine (detiqueter skillId byTag tag) := by
  unfold Skills.detiqueter
  split
  · exact h
  · next s hget =>
    split_ifs with hvide hseul
    · exact h
    · refine ⟨Dict.nodup_keys_erase h.cles tag, ?_⟩
      intro t ht
      obtain ⟨s, hs⟩ := Option.isSome_iff_exists.mp (Dict.isSome_get?.mpr ht)
      rw [Dict.get?_erase] at hs
      split_ifs at hs with htag
      have hpleine := h.pleines t (Dict.isSome_get?.mp (by simp [hs]))
      simpa [Dict.getD, Dict.get?_erase, htag] using hpleine
    · refine ⟨Dict.nodup_keys_set h.cles _ _, ?_⟩
      intro t ht
      rw [Dict.getD_set]
      split_ifs with htag
      · exact hseul
      · exact h.pleines t ((Dict.keys_set byTag tag _ t).mp ht |>.resolve_left htag)

theorem Pleine.foldl {f : Dict String (Finset String) → String → Dict String (Finset String)}
    (hf : ∀ byTag tag, Pleine byTag → Pleine (f byTag tag)) (h : Pleine byTag)
    (tags : List String) : Pleine (tags.foldl f byTag) := by
  induction tags generalizing byTag with
  | nil => exact h
  | cons tag tags ih => exact ih (hf byTag tag h)

end Etiquettes

namespace SkillRegistry

def index (r : SkillRegistry) (skill : SkillDefinition) : SkillRegistry :=
  { r with
    byCategory := ajouter r.byCategory skill.category skill.id
    byDomain := ajouter r.byDomain skill.domain skill.id
    byStatus := ajouter r.byStatus skill.status skill.id
    byTag := skill.tags.foldl (etiqueter skill.id) r.byTag }

def unindex (r : SkillRegistry) (skill : SkillDefinition) : SkillRegistry :=
  { r with
    byCategory := retirer r.byCategory skill.category skill.id
    byDomain := retirer r.byDomain skill.domain skill.id
    byStatus := retirer r.byStatus skill.status skill.id
    byTag := skill.tags.foldl (detiqueter skill.id) r.byTag }

def register (r : SkillRegistry) (skill : SkillDefinition) : SkillRegistry :=
  { r with skills := r.skills.set skill.id skill }.index skill

def get (r : SkillRegistry) (skillId : String) : Option SkillDefinition := r.skills.get? skillId

def listAll (r : SkillRegistry) : List SkillDefinition := r.skills.map Prod.snd

def listByCategory (r : SkillRegistry) (category : SkillCategory) : Multiset SkillDefinition :=
  lister r.skills (r.byCategory category)

def listByDomain (r : SkillRegistry) (domain : SkillDomain) : Multiset SkillDefinition :=
  lister r.skills (r.byDomain domain)

def listByTag (r : SkillRegistry) (tag : String) : Multiset SkillDefinition :=
  lister r.skills (r.byTag.getD tag ∅)

def listByStatus (r : SkillRegistry) (status : SkillStatus) : Multiset SkillDefinition :=
  lister r.skills (r.byStatus status)

def delete (r : SkillRegistry) (skillId : String) : SkillRegistry × Bool :=
  match r.get skillId with
  | none => (r, false)
  | some skill => ({ r with skills := r.skills.erase skillId }.unindex skill, true)

def stats (r : SkillRegistry) : Stats where
  total := r.skills.length
  byCategory := compter SkillCategory.tous SkillCategory.value r.byCategory
  byDomain := compter SkillDomain.tous SkillDomain.value r.byDomain
  byStatus := compter SkillStatus.tous SkillStatus.value r.byStatus
  uniqueTags := r.byTag.length

def appliquer (r : SkillRegistry) : Operation → SkillRegistry
  | .register skill => r.register skill
  | .delete skillId => (r.delete skillId).1

/-- The registry after some operations, from the one that `__init__` builds. -/
def apres (operations : List Operation) : SkillRegistry := operations.foldl appliquer {}

/-- Every list is the registered skills of the requested value, and the counts are theirs. -/
structure Exact (r : SkillRegistry) : Prop where
  categories : ∀ c, r.listByCategory c = r.listAll.filter (fun skill => skill.category = c)
  domains : ∀ d, r.listByDomain d = r.listAll.filter (fun skill => skill.domain = d)
  tags : ∀ t, r.listByTag t = r.listAll.filter (fun skill => t ∈ skill.tags)
  statuses : ∀ s, r.listByStatus s = r.listAll.filter (fun skill => skill.status = s)
  total : r.stats.total = r.listAll.length
  byCategory : ∀ c, r.stats.byCategory.getD c.value 0 = Multiset.card (r.listByCategory c)
  byDomain : ∀ d, r.stats.byDomain.getD d.value 0 = Multiset.card (r.listByDomain d)
  byStatus : ∀ s, r.stats.byStatus.getD s.value 0 = Multiset.card (r.listByStatus s)
  uniqueTags : r.stats.uniqueTags = (r.listAll.flatMap SkillDefinition.tags).dedup.length

/-- A registration that takes no value away from the skill it writes over. -/
def Conserve (r : SkillRegistry) : Operation → Prop
  | .register skill =>
      ∀ ancien, r.get skill.id = some ancien →
        ancien.category = skill.category ∧ ancien.domain = skill.domain ∧
          ancien.status = skill.status ∧ ancien.tags ⊆ skill.tags
  | .delete _ => True

/-- The invariant behind `Exact`: each index is the preimage of the skills, and no tag is kept for
nothing. -/
structure Coherent (r : SkillRegistry) : Prop where
  cles : r.skills.keys.Nodup
  ids : ∀ id skill, r.get id = some skill → skill.id = id
  categories : Juste r.skills (fun skill c => skill.category = c) r.byCategory
  domains : Juste r.skills (fun skill d => skill.domain = d) r.byDomain
  statuses : Juste r.skills (fun skill s => skill.status = s) r.byStatus
  tags : Juste r.skills (fun skill t => t ∈ skill.tags) fun t => r.byTag.getD t ∅
  etiquettes : Pleine r.byTag

variable {r : SkillRegistry} {skill : SkillDefinition}

theorem coherent_vide : Coherent {} where
  cles := List.nodup_nil
  ids := by simp [get, Dict.get?]
  categories := juste_nil
  domains := juste_nil
  statuses := juste_nil
  tags := juste_nil
  etiquettes := ⟨List.nodup_nil, by simp [Dict.keys]⟩

theorem Coherent.register (h : Coherent r) (hconserve : r.Conserve (.register skill)) :
    Coherent (r.register skill) where
  cles := Dict.nodup_keys_set h.cles _ _
  ids := by
    intro id s hs
    change (r.skills.set skill.id skill).get? id = some s at hs
    rw [Dict.get?_set] at hs
    split_ifs at hs with hid
    · rw [← Option.some.inj hs, hid]
    · exact h.ids id s hs
  categories := by
    apply h.categories.set
    · intro ancien hget c hc
      exact (hconserve ancien hget).1 ▸ hc
    · intro k c
      exact mem_ajouter
  domains := by
    apply h.domains.set
    · intro ancien hget d hd
      exact (hconserve ancien hget).2.1 ▸ hd
    · intro k d
      exact mem_ajouter
  statuses := by
    apply h.statuses.set
    · intro ancien hget s hs
      exact (hconserve ancien hget).2.2.1 ▸ hs
    · intro k s
      exact mem_ajouter
  tags := by
    apply h.tags.set
    · intro ancien hget t ht
      exact (hconserve ancien hget).2.2.2 ht
    · intro k t
      exact mem_etiqueter_foldl skill.tags
  etiquettes := h.etiquettes.foldl (fun _ _ hpleine => hpleine.etiqueter) skill.tags

theorem Coherent.delete (h : Coherent r) (skillId : String) : Coherent (r.delete skillId).1 := by
  unfold SkillRegistry.delete
  cases hget : r.get skillId with
  | none => exact h
  | some skill =>
      obtain rfl := h.ids skillId skill hget
      exact
        { cles := Dict.nodup_keys_erase h.cles _
          ids := by
            intro id s hs
            change (r.skills.erase skill.id).get? id = some s at hs
            rw [Dict.get?_erase] at hs
            split_ifs at hs
            exact h.ids id s hs
          categories := h.categories.erase hget fun k c => mem_retirer
          domains := h.domains.erase hget fun k d => mem_retirer
          statuses := h.statuses.erase hget fun k s => mem_retirer
          tags := h.tags.erase hget fun k t => mem_detiqueter_foldl skill.tags
          etiquettes := h.etiquettes.foldl (fun _ _ hpleine => hpleine.detiqueter) skill.tags }

theorem Coherent.appliquer (h : Coherent r) {operation : Operation}
    (hconserve : r.Conserve operation) : Coherent (r.appliquer operation) := by
  cases operation with
  | register skill => exact h.register hconserve
  | delete skillId => exact h.delete skillId

theorem Coherent.uniqueTags (h : Coherent r) :
    r.byTag.length = (r.listAll.flatMap SkillDefinition.tags).dedup.length := by
  have hperm : r.byTag.keys.Perm (r.listAll.flatMap SkillDefinition.tags).dedup := by
    apply (List.perm_ext_iff_of_nodup h.etiquettes.cles (List.nodup_dedup _)).mpr
    intro t
    rw [List.mem_dedup, List.mem_flatMap]
    constructor
    · intro ht
      obtain ⟨k, hk⟩ := Finset.nonempty_iff_ne_empty.mpr (h.etiquettes.pleines t ht)
      obtain ⟨skill, hget, htag⟩ := (h.tags k t).mp hk
      exact ⟨skill, List.mem_map.mpr ⟨(k, skill), Dict.mem_of_get? hget, rfl⟩, htag⟩
    · rintro ⟨skill, hskill, htag⟩
      obtain ⟨⟨k, s⟩, hitem, rfl⟩ := List.mem_map.mp hskill
      have hk := (h.tags k t).mpr ⟨s, Dict.get?_of_mem h.cles hitem, htag⟩
      by_contra hnot
      simp [Dict.getD, Dict.get?_eq_none hnot] at hk
  simpa [Dict.keys] using hperm.length_eq

theorem Coherent.exact (h : Coherent r) : Exact r where
  categories := fun c => h.categories.lister_eq h.cles c
  domains := fun d => h.domains.lister_eq h.cles d
  tags := fun t => h.tags.lister_eq h.cles t
  statuses := fun s => h.statuses.lister_eq h.cles s
  total := by simp [stats, listAll]
  byCategory := by
    intro c
    rw [listByCategory, h.categories.card_lister]
    exact compter_getD SkillCategory.value_injective (SkillCategory.mem_tous c)
  byDomain := by
    intro d
    rw [listByDomain, h.domains.card_lister]
    exact compter_getD SkillDomain.value_injective (SkillDomain.mem_tous d)
  byStatus := by
    intro s
    rw [listByStatus, h.statuses.card_lister]
    exact compter_getD SkillStatus.value_injective (SkillStatus.mem_tous s)
  uniqueTags := h.uniqueTags

theorem porte_of_mem_filter {rows : List SkillDefinition} {p : SkillDefinition → Prop}
    [DecidablePred p] : ∀ skill ∈ (rows.filter fun skill => p skill : Multiset _), p skill := by
  intro skill hskill
  simpa using (List.mem_filter.mp hskill).2

theorem Coherent.conserve_of_exact (h : Coherent r) (hexact : Exact (r.register skill)) :
    r.Conserve (.register skill) := by
  intro ancien hancien
  have hcategory : skill.category = ancien.category :=
    h.categories.garde hancien rfl (fun _ hk => mem_ajouter.mpr (Or.inl hk)) porte_of_mem_filter
      (hexact.categories ancien.category)
  have hdomain : skill.domain = ancien.domain :=
    h.domains.garde hancien rfl (fun _ hk => mem_ajouter.mpr (Or.inl hk)) porte_of_mem_filter
      (hexact.domains ancien.domain)
  have hstatus : skill.status = ancien.status :=
    h.statuses.garde hancien rfl (fun _ hk => mem_ajouter.mpr (Or.inl hk)) porte_of_mem_filter
      (hexact.statuses ancien.status)
  have htags : ancien.tags ⊆ skill.tags := by
    intro t ht
    exact h.tags.garde hancien ht (fun _ hk => (mem_etiqueter_foldl skill.tags).mpr (Or.inl hk))
      porte_of_mem_filter (hexact.tags t)
  exact ⟨hcategory.symm, hdomain.symm, hstatus.symm, htags⟩

theorem Coherent.conserve_iff (h : Coherent r) (operation : Operation) :
    r.Conserve operation ↔ Exact (r.appliquer operation) := by
  constructor
  · intro hconserve
    exact (h.appliquer hconserve).exact
  · intro hexact
    cases operation with
    | register skill => exact h.conserve_of_exact hexact
    | delete skillId => trivial

theorem apres_concat (operations : List Operation) (operation : Operation) :
    apres (operations ++ [operation]) = (apres operations).appliquer operation := by
  rw [apres, List.foldl_append]
  rfl

/-- Every operation, in the registry it meets, takes no value away. -/
def Conservatrices (operations : List Operation) : Prop :=
  ∀ debut operation, debut ++ [operation] <+: operations → (apres debut).Conserve operation

theorem coherent_apres {operations : List Operation} (h : Conservatrices operations) :
    Coherent (apres operations) := by
  induction operations using List.reverseRecOn with
  | nil => exact coherent_vide
  | append_singleton operations operation ih =>
      rw [apres_concat]
      apply (ih _).appliquer
      · exact h operations operation (List.prefix_refl _)
      · intro debut op hdebut
        exact h debut op (hdebut.trans (List.prefix_append _ _))

/-- The lists and the counts stay right all along exactly when no registration moves a skill out
of a category, a domain, a status or a tag. -/
theorem toujours_exact_iff (operations : List Operation) :
    (∀ debut, debut <+: operations → Exact (apres debut)) ↔ Conservatrices operations := by
  constructor
  · intro hexact
    induction operations using List.reverseRecOn with
    | nil =>
        intro debut operation h
        simp at h
    | append_singleton operations operation ih =>
        have hdebuts : Conservatrices operations :=
          ih fun debut h => hexact debut (h.trans (List.prefix_append _ _))
        intro debut op h
        rcases List.prefix_concat_iff.mp h with heq | hpre
        · obtain ⟨rfl, hop⟩ := List.append_inj' heq rfl
          obtain rfl : op = operation := by simpa using hop
          apply ((coherent_apres hdebuts).conserve_iff op).mpr
          rw [← apres_concat]
          exact hexact _ h
        · exact hdebuts debut op hpre
  · intro hconserve debut hdebut
    exact (coherent_apres fun d op h => hconserve d op (h.trans hdebut)).exact

def relecture : SkillDefinition := { id := "relecture", category := .writing }

/-- A skill moved from writing to testing is listed under both. -/
theorem relecture_partout :
    ¬ ∀ operations, Exact (apres operations) := by
  intro h
  have hexact := h [.register relecture, .register { relecture with category := .testing }]
  exact absurd (hexact.categories .writing) (by decide)

end SkillRegistry

end Hermes.Skills
