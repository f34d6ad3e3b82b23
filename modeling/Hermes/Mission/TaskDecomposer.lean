import Hermes.Lib.Json
import Hermes.Lib.Rang
import Hermes.Lib.Texte
import Hermes.Mission.PlannerModels

/-! # Decomposing a request into tasks

The planning model answers an array.
-/

namespace Hermes.Planner

open Lib (Dict Json)
open Lib.Rang

abbrev SousTache := String × String × TaskCategory

structure TaskDecomposer where
  /-- `str(x)` of a number with a point, an array or an object. -/
  repr : Json → String
  /-- `s.lower()`. -/
  minuscules : String → String
  /-- `uuid4().hex`, for the task made in that place. -/
  identifiant : Nat → String
  taskPatterns : List (String × List SousTache)
  genericPattern : List SousTache
  categoryKeywords : List (TaskCategory × List String)

def MAX_LLM_TASKS : Nat := 12

def MAX_LIVRABLES : Nat := 8

namespace TaskDecomposer

variable (p : TaskDecomposer)

def str : Json → String
  | .texte s => s
  | .null => "None"
  | .bool b => if b then "True" else "False"
  | .entier n => toString n
  | v => p.repr v

/-- `item.get(cle)`: the last value given to a key. -/
def get (champs : List (String × Json)) (cle : String) : Option Json :=
  Dict.get? champs.reverse cle

/-- `str(item.get(cle, "")).strip()[:n]`. -/
def lireChamp (champs : List (String × Json)) (cle : String) (n : Nat) : String :=
  Lib.Texte.premiers n (Lib.Texte.strip (((get champs cle).map p.str).getD ""))

def title (champs : List (String × Json)) : String := p.lireChamp champs "title" 200

def category (champs : List (String × Json)) : TaskCategory :=
  let nom := p.minuscules (Lib.Texte.strip (((get champs "category").map p.str).getD ""))
  (TaskCategory.toutes.find? fun c => c.value = nom).getD .custom

/-- `isinstance(d, int)`, which a truth value satisfies. -/
def entier : Json → Option Int
  | .entier n => some n
  | .bool b => some (if b then 1 else 0)
  | _ => none

/-- What the value of `depends_on` lists. -/
def listes : Option Json → List Json
  | some (.tableau valeurs) => valeurs
  | _ => []

/-- The indices that lead to a task made before. -/
def depIndices (rawDeps : Option Json) (faites : Nat) : List Nat :=
  (listes rawDeps).filterMap fun d =>
    match entier d with
    | some n => if 0 ≤ n ∧ n < faites then some n.toNat else none
    | none => none

/-- `while chemin.startswith("./")`. -/
def sansPoint : List Char → List Char
  | '.' :: '/' :: cs => sansPoint cs
  | cs => cs

/-- The path that an output names, if it can be kept. -/
def livrable : Json → Option String
  | .texte s =>
      let chemin := (Lib.Texte.strip s).toList.map fun c => if c = Char.ofNat 92 then '/' else c
      if chemin = [] ∨ 200 < chemin.length then none
      else if chemin.head? = some '/' ∨ ['.', '.'] ∈ chemin.splitOn '/' ∨ ':' ∈ chemin then none
      else if sansPoint chemin = [] then none
      else some (String.ofList (sansPoint chemin))
  | _ => none

def livrables (brut : Option Json) : List String :=
  (((listes brut).filterMap livrable).foldl
    (fun propres chemin => if chemin ∈ propres then propres else propres ++ [chemin]) []).take
      MAX_LIVRABLES

def tache (faites : List TaskBreakdown) (champs : List (String × Json)) : TaskBreakdown where
  taskId := p.identifiant faites.length
  title := p.title champs
  description := p.lireChamp champs "description" 1000
  category := p.category champs
  order := faites.length
  dependsOn := (depIndices (get champs "depends_on") faites.length).filterMap fun d =>
    faites[d]?.map TaskBreakdown.taskId
  expectedOutputs := livrables (get champs "outputs")

def ajouter (faites : List TaskBreakdown) : Json → List TaskBreakdown
  | .objet champs =>
      if p.title champs = "" then faites else faites ++ [p.tache faites champs]
  | _ => faites

/-- `_decompose_with_llm`, from the array that was read in the answer. -/
def decomposeWithLlm (items : List Json) : Option (List TaskBreakdown) :=
  match (items.take MAX_LLM_TASKS).foldl p.ajouter [] with
  | [] => none
  | faites => some faites

/-- The tasks of a table, numbered after those made before. -/
def ajouterTable (faites : List TaskBreakdown) (table : List SousTache) : List TaskBreakdown :=
  table.foldl (fun faites s => faites ++ [{
    taskId := p.identifiant faites.length
    title := s.1
    description := s.2.1
    category := s.2.2
    order := faites.length }]) faites

def contient (texte motif : String) : Bool := decide (motif.toList <:+: texte.toList)

def parRegles (request : PlanningRequest) : List TaskBreakdown × String :=
  let texte := p.minuscules (request.userRequest ++ " " ++ request.objective ++ " " ++
    request.specification ++ " " ++ request.githubIssue)
  let reconnus := p.taskPatterns.filter fun motif => contient texte motif.1
  let faites := reconnus.foldl (fun faites motif => p.ajouterTable faites motif.2) []
  if faites = [] then (p.ajouterTable [] p.genericPattern, "generic_fallback")
  else (faites, "pattern:" ++ "+".intercalate ((reconnus.map Prod.fst).mergeSort fun a b => a ≤ b))

def classifyTask (texte : String) : TaskCategory :=
  let bas := p.minuscules texte
  let meilleur := p.categoryKeywords.foldl (fun (meilleur : TaskCategory × Nat) ligne =>
    let score := ligne.2.countP (contient bas)
    if meilleur.2 < score then (ligne.1, score) else meilleur) (.custom, 0)
  if 0 < meilleur.2 then meilleur.1 else .implementation

def classer (t : TaskBreakdown) : TaskBreakdown :=
  if t.category = .custom then
    { t with category := p.classifyTask (t.title ++ " " ++ t.description) }
  else t

def validationFinale (faites : List TaskBreakdown) : TaskBreakdown where
  taskId := p.identifiant faites.length
  title := "Validation finale"
  description := "Final validation: ensure all criteria are met and outputs are correct"
  category := .review
  order := faites.length
  dependsOn := faites.map TaskBreakdown.taskId

def decomposeWithMethod (request : PlanningRequest) (items : Option (List Json)) :
    List TaskBreakdown × String :=
  let (faites, methode) :=
    match items.bind p.decomposeWithLlm with
    | some faites => (faites, "llm")
    | none => p.parRegles request
  ((faites ++ [p.validationFinale faites]).map p.classer, methode)

section Numerotation

variable {p} {items : List Json} {a : Json} {i j : Nat} {t : TaskBreakdown}

def pris (items : List Json) : List Json := items.take MAX_LLM_TASKS

def champs : Json → List (String × Json)
  | .objet champs => champs
  | _ => []

/-- An element that is kept: an object with a title. -/
def estTache (p : TaskDecomposer) : Json → Bool
  | .objet champs => p.title champs ≠ ""
  | _ => false

/-- The tasks kept, none when the model gives nothing. -/
def gardees (p : TaskDecomposer) (items : List Json) : List TaskBreakdown :=
  (p.decomposeWithLlm items).getD []

/-- The integers that `depends_on` lists. -/
def indices (a : Json) : List Int :=
  (listes (get (champs a) "depends_on")).filterMap fun d =>
    match d with
    | .entier n => some n
    | _ => none

def entiers (a : Json) : List Int :=
  (listes (get (champs a) "depends_on")).filterMap entier

theorem ajouter_eq (faites : List TaskBreakdown) (a : Json) :
    p.ajouter faites a =
      if p.estTache a then faites ++ [p.tache faites (champs a)] else faites := by
  cases a with
  | objet c =>
      by_cases hc : p.title c = ""
      · simp [ajouter, estTache, hc]
      · simp [ajouter, estTache, champs, hc]
  | _ => rfl

theorem gardees_eq (p : TaskDecomposer) (items : List Json) :
    p.gardees items = garder p.estTache (fun faites a => p.tache faites (champs a)) (pris items) := by
  have hboucle : (items.take MAX_LLM_TASKS).foldl p.ajouter [] =
      garder p.estTache (fun faites a => p.tache faites (champs a)) (pris items) := by
    unfold garder pris
    congr 1
    funext faites a
    exact ajouter_eq faites a
  rw [gardees, decomposeWithLlm, hboucle]
  split
  · next h => rw [h, Option.getD_none]
  · rfl

/-- The task is the one made from the element at the position `i` of the array. -/
structure FaiteDe (p : TaskDecomposer) (items : List Json) (i : Nat) (a : Json)
    (t : TaskBreakdown) : Prop where
  item : (pris items)[i]? = some a
  garde : p.estTache a = true
  tache : (p.gardees items)[rang p.estTache (pris items) i]? = some t

theorem FaiteDe.eq (h : FaiteDe p items i a t) :
    ∃ faites : List TaskBreakdown, faites.length = rang p.estTache (pris items) i ∧
      faites <+: p.gardees items ∧ t = p.tache faites (champs a) := by
  let f := fun faites a => p.tache faites (champs a)
  refine ⟨garder p.estTache f ((pris items).take i), length_garder _ _ _, ?_, ?_⟩
  · have hprefixe := garder_prefix p.estTache f ((pris items).take i) ((pris items).drop i)
    rwa [List.take_append_drop, ← gardees_eq] at hprefixe
  · have htache := h.tache
    rw [gardees_eq, getElem?_garder _ h.item h.garde] at htache
    exact (Option.some.inj htache).symm

theorem FaiteDe.taskId (h : FaiteDe p items i a t) :
    t.taskId = p.identifiant (rang p.estTache (pris items) i) := by
  obtain ⟨faites, hlongueur, -, rfl⟩ := h.eq
  rw [← hlongueur]
  rfl

theorem exists_faiteDe (hitem : (pris items)[i]? = some a) (hgarde : p.estTache a = true) :
    ∃ t, FaiteDe p items i a t := by
  have h := getElem?_garder (fun faites a => p.tache faites (champs a)) hitem hgarde
  rw [← gardees_eq] at h
  exact ⟨_, hitem, hgarde, h⟩

theorem taskId_gardees {r : Nat} (h : (p.gardees items)[r]? = some t) :
    t.taskId = p.identifiant r := by
  have hr : r < rang p.estTache (pris items) (pris items).length := by
    obtain ⟨hlt, -⟩ := List.getElem?_eq_some_iff.mp h
    rwa [gardees_eq, length_garder, ← List.take_length (l := pris items)] at hlt
  obtain ⟨i, -, a, hitem, hgarde, hrang⟩ := exists_of_lt_rang hr
  have hfaite : FaiteDe p items i a t := ⟨hitem, hgarde, hrang ▸ h⟩
  rw [hfaite.taskId, hrang]

theorem mem_depIndices {rawDeps : Option Json} {n d : Nat} :
    d ∈ depIndices rawDeps n ↔ d < n ∧ (d : Int) ∈ (listes rawDeps).filterMap entier := by
  unfold depIndices
  simp only [List.mem_filterMap]
  constructor
  · intro h
    obtain ⟨v, hv, hd⟩ := h
    cases hn : entier v with
    | none =>
        rw [hn] at hd
        cases hd
    | some m =>
        rw [hn] at hd
        dsimp only at hd
        split at hd
        · next hborne =>
            cases hd
            have hm : ((m.toNat : Nat) : Int) = m := Int.toNat_of_nonneg hborne.1
            exact ⟨by omega, v, hv, by rw [hm, hn]⟩
        · cases hd
  · intro h
    obtain ⟨hlt, v, hv, hd⟩ := h
    refine ⟨v, hv, ?_⟩
    rw [hd]
    dsimp only
    rw [if_pos ⟨Int.natCast_nonneg d, by omega⟩, Int.toNat_natCast]

theorem FaiteDe.mem_dependsOn (h : FaiteDe p items j a t) {id : String} :
    id ∈ t.dependsOn ↔ ∃ r, r < rang p.estTache (pris items) j ∧ (r : Int) ∈ entiers a ∧
      id = p.identifiant r := by
  obtain ⟨faites, hlongueur, hprefixe, rfl⟩ := h.eq
  have hlu : ∀ r < faites.length, ∃ t', faites[r]? = some t' ∧ t'.taskId = p.identifiant r := by
    intro r hr
    refine ⟨faites[r], List.getElem?_eq_getElem hr, @taskId_gardees p items faites[r] r ?_⟩
    obtain ⟨suite, hsuite⟩ := hprefixe
    rw [← hsuite, List.getElem?_append_left hr, List.getElem?_eq_getElem hr]
  unfold TaskDecomposer.tache
  dsimp only
  rw [List.mem_filterMap, ← hlongueur]
  refine exists_congr fun r => ?_
  rw [mem_depIndices, and_assoc]
  refine and_congr_right fun hr => and_congr_right fun _ => ?_
  obtain ⟨t', ht', hid⟩ := hlu r hr
  rw [ht', Option.map_some, Option.some.injEq, hid]
  exact eq_comm

@[simp] theorem classer_taskId (t : TaskBreakdown) : (p.classer t).taskId = t.taskId := by
  unfold classer
  split
  · rfl
  · rfl

@[simp] theorem classer_dependsOn (t : TaskBreakdown) :
    (p.classer t).dependsOn = t.dependsOn := by
  unfold classer
  split
  · rfl
  · rfl

theorem liens_decomposeWithMethod {faites : List TaskBreakdown} (request : PlanningRequest)
    (h : p.decomposeWithLlm items = some faites) :
    (p.decomposeWithMethod request (some items)).1.map (fun t => (t.taskId, t.dependsOn)) =
      faites.map (fun t => (t.taskId, t.dependsOn)) ++
        [(p.identifiant faites.length, faites.map TaskBreakdown.taskId)] := by
  rw [decomposeWithMethod, Option.bind_some, h]
  dsimp only
  have hliens : ((fun t => (t.taskId, t.dependsOn)) ∘ p.classer) =
      fun t : TaskBreakdown => (t.taskId, t.dependsOn) := funext fun t => by simp
  rw [List.map_map, hliens, List.map_append]
  rfl

/-- Each task depends on the tasks made from the earlier elements that its indices name, and the
last one on all of them. -/
structure Fidele (p : TaskDecomposer) (request : PlanningRequest) (items : List Json) : Prop where
  dependances : ∀ j a t, FaiteDe p items j a t → ∀ id, id ∈ t.dependsOn ↔
    ∃ i b t', i < j ∧ FaiteDe p items i b t' ∧ (i : Int) ∈ indices a ∧ id = t'.taskId
  validation : ∀ faites, p.decomposeWithLlm items = some faites →
    ∃ v, (p.decomposeWithMethod request (some items)).1.map (fun t => (t.taskId, t.dependsOn)) =
        faites.map (fun t => (t.taskId, t.dependsOn)) ++ [v] ∧
      v.2 = faites.map TaskBreakdown.taskId

/-- For each element kept and each one kept before it, the rank of the latter among those kept is
listed, as a number or as a truth value, when its position in the array is listed as a number, and
only then. -/
def SansDecalage (p : TaskDecomposer) (items : List Json) : Prop :=
  ∀ j a, (pris items)[j]? = some a → p.estTache a = true →
    ∀ i b, i < j → (pris items)[i]? = some b → p.estTache b = true →
      ((rang p.estTache (pris items) i : Int) ∈ entiers a ↔ (i : Int) ∈ indices a)

theorem fidele_of_sansDecalage (request : PlanningRequest) (h : SansDecalage p items) :
    Fidele p request items := by
  refine ⟨fun j a t ht id => ?_, fun faites hfaites => ?_⟩
  · rw [ht.mem_dependsOn]
    constructor
    · intro hdepend
      obtain ⟨r, hr, hliste, rfl⟩ := hdepend
      obtain ⟨i, hij, b, hb, hgarde, rfl⟩ := exists_of_lt_rang hr
      obtain ⟨t', ht'⟩ := exists_faiteDe hb hgarde
      have hnomme := (h j a ht.item ht.garde i b hij hb hgarde).mp hliste
      exact ⟨i, b, t', hij, ht', hnomme, ht'.taskId.symm⟩
    · intro hnomme
      obtain ⟨i, b, t', hij, ht', hnomme, rfl⟩ := hnomme
      have hliste := (h j a ht.item ht.garde i b hij ht'.item ht'.garde).mpr hnomme
      exact ⟨_, rang_lt hij ht'.item ht'.garde, hliste, ht'.taskId⟩
  · exact ⟨_, liens_decomposeWithMethod request hfaites, rfl⟩

theorem position_eq_of_taskId {i' : Nat} {b b' : Json} {t' : TaskBreakdown}
    (hid : Function.Injective p.identifiant) (ht : FaiteDe p items i b t)
    (ht' : FaiteDe p items i' b' t') (h : t.taskId = t'.taskId) : i = i' := by
  rw [ht.taskId, ht'.taskId] at h
  exact rang_inj ht.item ht.garde ht'.item ht'.garde (hid h)

theorem sansDecalage_of_fidele {request : PlanningRequest}
    (hid : Function.Injective p.identifiant) (h : Fidele p request items) :
    SansDecalage p items := by
  intro j a ha hgarde i b hij hb hgardeb
  obtain ⟨t, ht⟩ := exists_faiteDe ha hgarde
  obtain ⟨t', ht'⟩ := exists_faiteDe hb hgardeb
  have hdepend := (h.dependances j a t ht t'.taskId).symm.trans ht.mem_dependsOn
  constructor
  · intro hliste
    have hlt : rang p.estTache (pris items) i < rang p.estTache (pris items) j :=
      rang_lt hij hb hgardeb
    obtain ⟨i', b', t'', -, ht'', hnomme, heq⟩ := hdepend.mpr ⟨_, hlt, hliste, ht'.taskId⟩
    rwa [position_eq_of_taskId hid ht' ht'' heq]
  · intro hnomme
    obtain ⟨r, -, hliste, heq⟩ := hdepend.mp ⟨i, b, t', hij, ht', hnomme, rfl⟩
    rwa [hid (ht'.taskId.symm.trans heq)]

/-- The tasks are linked as the prompt says exactly when no index is shifted. -/
theorem decomposition_fidele_iff (p : TaskDecomposer) (hid : Function.Injective p.identifiant)
    (request : PlanningRequest) (items : List Json) :
    Fidele p request items ↔ SansDecalage p items :=
  ⟨sansDecalage_of_fidele hid, fidele_of_sansDecalage request⟩

end Numerotation

def sansTable : TaskDecomposer where
  repr := fun _ => "x"
  minuscules := id
  identifiant := fun n => String.ofList (List.replicate n 'i')
  taskPatterns := []
  genericPattern := []
  categoryKeywords := []

theorem sansTable_injective : Function.Injective sansTable.identifiant := by
  intro m n h
  have hlistes : List.replicate m 'i' = List.replicate n 'i' := String.ofList_injective h
  exact (List.replicate_inj.mp hlistes).1

def demande : PlanningRequest := ⟨"un module", "", "", ""⟩

/-- An element that is no object comes first, and the last one names the one between. -/
def decale : List Json :=
  [.null, .objet [("title", .texte "A")],
    .objet [("title", .texte "B"), ("depends_on", .tableau [.entier 1])]]

theorem decomposition_fidele_iff_decale :
    Fidele sansTable demande decale ↔ SansDecalage sansTable decale :=
  decomposition_fidele_iff sansTable sansTable_injective demande decale

/-- The task B depends on nothing. -/
theorem dependance_decalee :
    ¬ ∀ (p : TaskDecomposer) (request : PlanningRequest) (items : List Json),
        Function.Injective p.identifiant → Fidele p request items := by
  intro h
  have hfidele := (h sansTable demande decale sansTable_injective).dependances
  have hA : FaiteDe sansTable decale 1 (.objet [("title", .texte "A")])
      ⟨"", "A", "", .custom, [], [], 0, true⟩ :=
    ⟨rfl, by decide +kernel, by decide +kernel⟩
  have hB : FaiteDe sansTable decale 2
      (.objet [("title", .texte "B"), ("depends_on", .tableau [.entier 1])])
      ⟨"i", "B", "", .custom, [], [], 1, true⟩ :=
    ⟨rfl, by decide +kernel, by decide +kernel⟩
  have hdepend := (hfidele 2 _ _ hB "").mpr ⟨1, _, _, by decide, hA, by decide +kernel, rfl⟩
  cases hdepend

end TaskDecomposer

end Hermes.Planner
