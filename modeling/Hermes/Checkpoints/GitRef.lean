import Hermes.Lib.Chemin
import Hermes.Lib.Git
import Hermes.Lib.Texte
import Mathlib.Data.List.Sort
import Mathlib.Data.String.Basic

/-! # The checkpoint of a repository

A checkpoint is a detached commit of the workspace, built on an index of its own. A restoration
writes the captured files again, then deletes what appeared since.
-/

namespace Hermes.GitRef

open Lib Git

def PREFIXE : String := "refs/hermes/checkpoints/"

structure Commit (ω : Type*) where
  arbre : Fichiers ω
  message : String
  parent : Option String

/-- A repository: its working tree, what the user has of it, its references and its commits. -/
structure Depot (ω : Type*) where
  travail : Fichiers ω
  tete : Option String
  branche : Option String
  index : Fichiers ω
  refs : Dict String String
  objets : Dict String (Commit ω)

structure Ecart where
  aRestaurer : List String := []
  aRecreer : List String := []
  aSupprimer : List String := []
  deriving DecidableEq

variable {ω : Type*}

section Commandes

variable (exclu : List (Option ω) → Bool → Lieu → Bool)

-- the identifier git gives to a commit
variable (identifiant : Commit ω → String)

def arbreDeLEtat (d : Depot ω) (sous : Lieu) : Except Erreur (Fichiers ω) :=
  (add exclu d.travail sous).map writeTree

def prendre (d : Depot ω) (sous : Lieu) (message : String) : Except Erreur (Depot ω × String) :=
  (arbreDeLEtat exclu d sous).map fun arbre =>
    let commit := identifiant { arbre := arbre, message := message, parent := d.tete }
    ({ d with
        objets := d.objets.set commit { arbre := arbre, message := message, parent := d.tete }
        refs := d.refs.set (PREFIXE ++ Texte.premiers 12 commit) commit }, commit)

end Commandes

def morceaux (sortie : List Char) : List (List Char) :=
  (sortie.splitOn '\x00').filter fun m => m ≠ []

/-- `zip(l[::2], l[1::2])`. -/
def paires {α : Type*} : List α → List (α × α)
  | a :: b :: l => (a, b) :: paires l
  | _ => []

def sorted (chemins : List String) : List String := chemins.insertionSort fun p q => p ≤ q

/-- The paths of the entries whose status satisfies `f`. -/
def chemins (f : Option Char → Bool) (entrees : List (List Char × List Char)) : List String :=
  sorted ((entrees.filter fun e => f e.1.head?).map fun e => String.ofList e.2)

def lireEcart (sortie : List Char) : Ecart :=
  let entrees := paires (morceaux sortie)
  { aRestaurer := chemins (fun etat => etat ≠ some 'A' ∧ etat ≠ some 'D') entrees
    aRecreer := chemins (fun etat => etat = some 'D') entrees
    aSupprimer := chemins (fun etat => etat = some 'A') entrees }

section Restauration

variable [DecidableEq ω] (exclu : List (Option ω) → Bool → Lieu → Bool)

def ecart (d : Depot ω) (sous : Lieu) (commit : String) : Except Erreur Ecart :=
  match arbreDeLEtat exclu d sous with
  | .error e => .error e
  | .ok courant =>
      match d.objets.get? commit with
      | none => .error (.objetInconnu commit)
      | some c => .ok (lireEcart (Texte.universel (sortieZ (diffTree c.arbre courant))))

/-- `racine / chemin` is the file that is unlinked: the path was written from the root of the
repository, and is read from the workspace. -/
def cible (sous : Lieu) (chemin : String) : Lieu := sous ++ (Chemin.lire chemin).parts

def supprimerTous (sous : Lieu) (chemins : List String) (t : Fichiers ω) : Fichiers ω :=
  chemins.foldl (fun t chemin => t.garder fun p => p ≠ cible sous chemin) t

def restaurer (d : Depot ω) (sous : Lieu) (commit : String) : Depot ω × Except Erreur Ecart :=
  match ecart exclu d sous commit with
  | .error e => (d, .error e)
  | .ok fait =>
      match d.objets.get? commit with
      | none => (d, .error (.objetInconnu commit))
      | some c =>
          let ecrit :=
            if fait.aRestaurer ≠ [] ∨ fait.aRecreer ≠ [] then
              checkoutIndex (readTree c.arbre) d.travail
            else d.travail
          ({ d with travail := supprimerTous sous fait.aSupprimer ecrit }, .ok fait)

end Restauration

/-- A name, and a path, as text mode reads them. -/
def nomLu (x : String) : String := String.ofList (Texte.universel x.toList)

def cheminLu (p : Lieu) : String := String.ofList (Texte.universel (posix p).toList)

theorem toList_nomLu (x : String) : (nomLu x).toList = Texte.universel x.toList :=
  String.toList_ofList

section Lecture

variable {p : Lieu} {entrees : List (Statut × Lieu)}

theorem morceaux_clos {champs : List (List Char)} (h : ∀ m ∈ champs, m ≠ [] ∧ '\x00' ∉ m) :
    morceaux (champs.flatMap fun m => m ++ ['\x00']) = champs := by
  have hclos : champs.flatMap (fun m => m ++ ['\x00']) =
      ['\x00'].intercalate (champs ++ [[]]) := by
    clear h
    induction champs with
    | nil => rfl
    | cons m champs ih =>
        rw [List.flatMap_cons, ih, List.cons_append, List.intercalate_cons_of_ne_nil (by simp)]
  unfold morceaux
  rw [hclos, List.splitOn_intercalate _ _ (by simp), List.filter_append]
  · have hgarde : champs.filter (fun m => m ≠ []) = champs := by
      rw [List.filter_eq_self]
      intro m hm
      simpa using (h m hm).1
    rw [hgarde]
    exact List.append_nil champs
  · intro m hm
    rw [List.mem_append] at hm
    cases hm with
    | inl hm => exact (h m hm).2
    | inr hm =>
        rw [List.mem_singleton] at hm
        rw [hm]
        exact List.not_mem_nil

theorem toList_posix (p : Lieu) : (posix p).toList = ['/'].intercalate (p.map String.toList) := by
  rw [posix, String.toList_intercalate]
  rfl

theorem universel_posix (p : Lieu) :
    Texte.universel (posix p).toList = ['/'].intercalate (p.map fun x => (nomLu x).toList) := by
  rw [toList_posix]
  induction p with
  | nil => rfl
  | cons x p ih =>
      cases p with
      | nil => simp [nomLu]
      | cons y p =>
          simp only [List.map_cons, List.intercalate_cons_cons, List.append_assoc,
            List.singleton_append] at ih ⊢
          rw [Texte.universel_append (by decide) (by decide), ih, toList_nomLu x]

theorem posix_nom (hnil : p ≠ []) (hnoms : ∀ x ∈ p, Nom x) :
    (posix p).toList ≠ [] ∧ '\x00' ∉ (posix p).toList := by
  rw [toList_posix]
  induction p with
  | nil => exact absurd rfl hnil
  | cons x p ih =>
      obtain ⟨hvide, _, _, _, hnul⟩ := hnoms x List.mem_cons_self
      cases p with
      | nil => simpa using ⟨hvide, hnul⟩
      | cons y p =>
          have hsuite := ih (List.cons_ne_nil y p) fun z hz => hnoms z (List.mem_cons_of_mem x hz)
          simp only [List.map_cons, List.intercalate_cons_cons, List.append_assoc,
            List.singleton_append, List.mem_append, List.mem_cons, not_or] at hsuite ⊢
          exact ⟨by simp, hnul, by decide, hsuite.2⟩

theorem nomLu_nom {x : String} (h : Nom x) :
    nomLu x ≠ "" ∧ nomLu x ≠ "." ∧ '/' ∉ (nomLu x).toList ∧ '\x00' ∉ (nomLu x).toList := by
  obtain ⟨hvide, hpoint, _, hbarre, hnul⟩ := h
  rw [toList_nomLu]
  unfold nomLu
  refine ⟨fun hlu => ?_, fun hlu => ?_, fun hlu => ?_, fun hlu => ?_⟩
  · have hnil : Texte.universel x.toList = [] := String.ofList_eq_empty_iff.mp hlu
    exact hvide (String.toList_eq_nil_iff.mp (Texte.universel_eq_nil.mp hnil))
  · have hseul : Texte.universel x.toList = ['.'] := by
      rw [← String.toList_ofList (l := Texte.universel x.toList), hlu]
      rfl
    have hlist := Texte.universel_eq_singleton (by decide) hseul
    apply hpoint
    rw [← String.ofList_toList (s := x), hlist]
  · cases Texte.mem_universel hlu with
    | inl hmem => exact hbarre hmem
    | inr heq => exact absurd heq (by decide)
  · cases Texte.mem_universel hlu with
    | inl hmem => exact hnul hmem
    | inr heq => exact absurd heq (by decide)

theorem parts_cheminLu (hnil : p ≠ []) (hnoms : ∀ x ∈ p, Nom x) :
    (Chemin.lire (cheminLu p)).parts = p.map nomLu := by
  unfold Chemin.lire cheminLu
  dsimp only
  rw [String.toList_ofList, universel_posix, List.splitOn_intercalate _ _ (by simpa using hnil)]
  · rw [List.map_map, List.filter_eq_self.mpr]
    · exact List.map_congr_left fun x _ => String.ofList_toList
    · intro x hx
      obtain ⟨y, hmem, rfl⟩ := List.mem_map.mp hx
      have hlu := nomLu_nom (hnoms y hmem)
      have hy : (String.ofList ∘ fun x => (nomLu x).toList) y = nomLu y := String.ofList_toList
      rw [hy]
      simp [hlu.1, hlu.2.1]
  · intro l hl
    obtain ⟨x, hx, rfl⟩ := List.mem_map.mp hl
    exact (nomLu_nom (hnoms x hx)).2.2.1

theorem mem_chemins {f : Option Char → Bool} {l : List (List Char × List Char)} {x : String} :
    x ∈ chemins f l ↔ ∃ e ∈ l, f e.1.head? = true ∧ String.ofList e.2 = x := by
  simp [chemins, sorted, and_assoc]

theorem paires_entrees (entrees : List (Statut × Lieu)) :
    paires (entrees.flatMap fun e => [[e.1.lettre], Texte.universel (posix e.2).toList]) =
      entrees.map fun e => ([e.1.lettre], Texte.universel (posix e.2).toList) := by
  induction entrees with
  | nil => rfl
  | cons e entrees ih =>
      rw [List.flatMap_cons, List.map_cons, ← ih]
      rfl

theorem morceaux_sortieZ (h : ∀ e ∈ entrees, e.2 ≠ [] ∧ ∀ x ∈ e.2, Nom x) :
    morceaux (Texte.universel (sortieZ entrees)) =
      entrees.flatMap fun e => [[e.1.lettre], Texte.universel (posix e.2).toList] := by
  have hlettre : ∀ s : Statut, s.lettre ≠ '\r' ∧ s.lettre ≠ '\x00' := by
    intro s
    cases s <;> decide
  have hclos : Texte.universel (sortieZ entrees) =
      (entrees.flatMap fun e => [[e.1.lettre], Texte.universel (posix e.2).toList]).flatMap
        fun m => m ++ ['\x00'] := by
    clear h
    induction entrees with
    | nil => rfl
    | cons e entrees ih =>
        have hsortie : sortieZ (e :: entrees) =
            e.1.lettre :: '\x00' :: ((posix e.2).toList ++ '\x00' :: sortieZ entrees) := by
          simp [sortieZ]
        rw [hsortie, Texte.universel_cons (hlettre e.1).1, Texte.universel_cons (by decide),
          Texte.universel_append (by decide) (by decide), ih]
        simp
  rw [hclos]
  apply morceaux_clos
  intro m hm
  obtain ⟨e, he, hm⟩ := List.mem_flatMap.mp hm
  rw [List.mem_cons, List.mem_singleton] at hm
  cases hm with
  | inl hm =>
      rw [hm]
      exact ⟨List.cons_ne_nil _ _, by simpa using (hlettre e.1).2.symm⟩
  | inr hm =>
      have hposix := posix_nom (h e he).1 (h e he).2
      rw [hm]
      refine ⟨fun hlu => hposix.1 (Texte.universel_eq_nil.mp hlu), fun hlu => ?_⟩
      cases Texte.mem_universel hlu with
      | inl hmem => exact hposix.2 hmem
      | inr heq => exact absurd heq (by decide)

theorem mem_chemins_sortieZ {f : Option Char → Bool} (statut : Statut)
    (hf : ∀ s : Statut, f (some s.lettre) = true ↔ s = statut)
    (h : ∀ e ∈ entrees, e.2 ≠ [] ∧ ∀ x ∈ e.2, Nom x) {x : String} :
    x ∈ chemins f (paires (morceaux (Texte.universel (sortieZ entrees)))) ↔
      ∃ p, (statut, p) ∈ entrees ∧ cheminLu p = x := by
  rw [mem_chemins, morceaux_sortieZ h, paires_entrees]
  simp only [List.mem_map, exists_exists_and_eq_and, List.head?_cons, hf]
  constructor
  · intro hx
    obtain ⟨e, he, hstatut, hchemin⟩ := hx
    exact ⟨e.2, by rw [← hstatut]; exact he, hchemin⟩
  · intro hx
    obtain ⟨p, hp, hchemin⟩ := hx
    exact ⟨(statut, p), hp, rfl, hchemin⟩

end Lecture

section Listes

variable [DecidableEq ω] {a courant : Fichiers ω} {p : Lieu} {x : String}

def ecartDe (a b : Fichiers ω) : Ecart := lireEcart (Texte.universel (sortieZ (diffTree a b)))

theorem mem_aRestaurer :
    x ∈ (ecartDe a courant).aRestaurer ↔
      ∃ p, (.modifie, p) ∈ diffTree a courant ∧ cheminLu p = x := by
  unfold ecartDe lireEcart
  dsimp only
  apply mem_chemins_sortieZ .modifie
  · intro s
    cases s <;> decide
  · exact fun _ he => noms_diffTree he

theorem mem_aRecreer :
    x ∈ (ecartDe a courant).aRecreer ↔
      ∃ p, (.supprime, p) ∈ diffTree a courant ∧ cheminLu p = x := by
  unfold ecartDe lireEcart
  dsimp only
  apply mem_chemins_sortieZ .supprime
  · intro s
    cases s <;> decide
  · exact fun _ he => noms_diffTree he

theorem mem_aSupprimer :
    x ∈ (ecartDe a courant).aSupprimer ↔
      ∃ p, (.ajoute, p) ∈ diffTree a courant ∧ cheminLu p = x := by
  unfold ecartDe lireEcart
  dsimp only
  apply mem_chemins_sortieZ .ajoute
  · intro s
    cases s <;> decide
  · exact fun _ he => noms_diffTree he

theorem vide_iff {l : List String} {statut : Statut}
    (h : ∀ x, x ∈ l ↔ ∃ p, (statut, p) ∈ diffTree a courant ∧ cheminLu p = x) :
    l = [] ↔ ∀ p, (statut, p) ∉ diffTree a courant := by
  rw [List.eq_nil_iff_forall_not_mem]
  constructor
  · intro hl p hp
    exact hl (cheminLu p) ((h _).mpr ⟨p, hp, rfl⟩)
  · intro hp x hx
    obtain ⟨p, hmem, _⟩ := (h x).mp hx
    exact hp p hmem

theorem rien_a_ecrire :
    (ecartDe a courant).aRestaurer = [] ∧ (ecartDe a courant).aRecreer = [] ↔
      ∀ p, (a.lire p).isSome = true → courant.lire p = a.lire p := by
  rw [vide_iff fun _ => mem_aRestaurer, vide_iff fun _ => mem_aRecreer, ← forall_and]
  refine forall_congr' fun p => ?_
  rw [modifie_mem_diffTree, supprime_mem_diffTree]
  cases ha : a.lire p with
  | none => simp
  | some c =>
      cases hcourant : courant.lire p with
      | none => simp
      | some c' => simp

theorem rien_a_supprimer :
    (ecartDe a courant).aSupprimer = [] ↔
      ∀ p, a.lire p = none → courant.lire p = none := by
  rw [vide_iff fun _ => mem_aSupprimer]
  refine forall_congr' fun p => ?_
  rw [ajoute_mem_diffTree]
  cases courant.lire p <;> simp

theorem ecartDe_vide : ecartDe a courant = {} ↔ ∀ p, courant.lire p = a.lire p := by
  have hchamps : ecartDe a courant = {} ↔
      ((ecartDe a courant).aRestaurer = [] ∧ (ecartDe a courant).aRecreer = []) ∧
        (ecartDe a courant).aSupprimer = [] := by
    generalize ecartDe a courant = e
    cases e
    simp [and_assoc]
  rw [hchamps, rien_a_ecrire, rien_a_supprimer, ← forall_and]
  refine forall_congr' fun p => ?_
  cases a.lire p <;> simp

end Listes

section Vise

variable (exclu : List (Option ω) → Bool → Lieu → Bool) (t₀ t₁ : Fichiers ω) (sous : Lieu)

/-- A file that is seen now and was not captured. -/
def intrus (p : Lieu) : Bool :=
  (ajout exclu t₁ sous p).isSome && (ajout exclu t₀ sous p).isNone

/-- The file that stands where the deletion of a new file strikes. -/
def vise (q : Lieu) : Bool :=
  t₁.contenus.keys.any fun p => intrus exclu t₀ t₁ sous p && q = sous ++ p.map nomLu

variable {exclu t₀ t₁ sous} {p : Lieu}

theorem mem_of_ajout (h : (ajout exclu t₀ sous p).isSome = true) : p ∈ t₀.contenus.keys := by
  obtain ⟨c, hc⟩ := Option.isSome_iff_exists.mp h
  exact Fichiers.lire_isSome.mp (by rw [(ajout_eq_some.mp hc).2.2]; rfl)

theorem vise_iff :
    vise exclu t₀ t₁ sous p = true ↔
      ∃ q, intrus exclu t₀ t₁ sous q = true ∧ p = sous ++ q.map nomLu := by
  simp only [vise, List.any_eq_true, Bool.and_eq_true, decide_eq_true_eq]
  constructor
  · intro h
    obtain ⟨q, _, hq⟩ := h
    exact ⟨q, hq⟩
  · intro h
    obtain ⟨q, hintrus, hp⟩ := h
    have hvu := hintrus
    unfold intrus at hvu
    rw [Bool.and_eq_true] at hvu
    exact ⟨q, mem_of_ajout hvu.1, hintrus, hp⟩

theorem lire_supprimerTous (chemins : List String) (t : Fichiers ω) :
    (supprimerTous sous chemins t).lire p =
      if ∃ x ∈ chemins, p = cible sous x then none else t.lire p := by
  unfold supprimerTous
  induction chemins generalizing t with
  | nil => simp
  | cons x chemins ih =>
      rw [List.foldl_cons, ih, Fichiers.lire_garder]
      by_cases hx : p = cible sous x
      · simp [hx]
      · simp [hx]

theorem cible_cheminLu {t : Fichiers ω} (hp : p ∈ t.contenus.keys) :
    cible sous (cheminLu p) = sous ++ p.map nomLu := by
  unfold cible
  rw [parts_cheminLu (t.noms p hp).1 (t.noms p hp).2]

end Vise

section Restitution

variable [DecidableEq ω] (exclu : List (Option ω) → Bool → Lieu → Bool) (t₀ t₁ : Fichiers ω)
  (sous : Lieu)

def change : Bool :=
  t₀.contenus.keys.any fun p =>
    (ajout exclu t₀ sous p).isSome && ajout exclu t₁ sous p ≠ ajout exclu t₀ sous p

/-- The file is above or below a captured one, and the captured files are written again. -/
def recouvert (p : Lieu) : Bool :=
  change exclu t₀ t₁ sous && t₀.contenus.keys.any fun q =>
    (ajout exclu t₀ sous q).isSome && Fichiers.genes p q

variable {exclu t₀ t₁ sous} {a courant : Fichiers ω} {p : Lieu}

theorem change_iff :
    change exclu t₀ t₁ sous = true ↔
      ¬ ∀ p, (ajout exclu t₀ sous p).isSome = true →
        ajout exclu t₁ sous p = ajout exclu t₀ sous p := by
  simp only [change, List.any_eq_true, Bool.and_eq_true, decide_eq_true_eq, not_forall]
  constructor
  · intro h
    obtain ⟨p, _, hsome, hne⟩ := h
    exact ⟨p, hsome, hne⟩
  · intro h
    obtain ⟨p, hsome, hne⟩ := h
    exact ⟨p, mem_of_ajout hsome, hsome, hne⟩

theorem recouvert_eq (ha : ∀ p, a.lire p = ajout exclu t₀ sous p) :
    recouvert exclu t₀ t₁ sous p = (change exclu t₀ t₁ sous && Fichiers.gene a p) := by
  unfold recouvert
  congr 1
  rw [Bool.eq_iff_iff, Fichiers.gene_iff]
  simp only [List.any_eq_true, Bool.and_eq_true, Fichiers.genes_iff, ha]
  constructor
  · intro h
    obtain ⟨q, _, hq⟩ := h
    exact ⟨q, hq⟩
  · intro h
    obtain ⟨q, hsome, hgenes⟩ := h
    exact ⟨q, mem_of_ajout hsome, hsome, hgenes⟩

theorem vise_of_ecart (ha : ∀ p, a.lire p = ajout exclu t₀ sous p)
    (hcourant : ∀ p, courant.lire p = ajout exclu t₁ sous p) :
    (∃ x ∈ (ecartDe a courant).aSupprimer, p = cible sous x) ↔
      vise exclu t₀ t₁ sous p = true := by
  simp only [mem_aSupprimer, ajoute_mem_diffTree, vise_iff, intrus, Bool.and_eq_true, ← ha,
    ← hcourant, Option.isNone_iff_eq_none]
  constructor
  · intro h
    obtain ⟨x, ⟨q, ⟨hnone, hsome⟩, hx⟩, hp⟩ := h
    rw [← hx, cible_cheminLu (Fichiers.lire_isSome.mp hsome)] at hp
    exact ⟨q, ⟨hsome, hnone⟩, hp⟩
  · intro h
    obtain ⟨q, ⟨hsome, hnone⟩, hp⟩ := h
    rw [← cible_cheminLu (Fichiers.lire_isSome.mp hsome)] at hp
    exact ⟨_, ⟨q, ⟨hnone, hsome⟩, rfl⟩, hp⟩

variable {d₁ : Depot ω} {commit : String} {c : Commit ω}

theorem ecart_eq (hadd : add exclu d₁.travail sous = .ok courant)
    (hobjet : d₁.objets.get? commit = some c) :
    ecart exclu d₁ sous commit = .ok (ecartDe c.arbre courant) := by
  unfold ecart arbreDeLEtat
  rw [hadd]
  simp only [Except.map, writeTree, hobjet]
  rfl

theorem restaurer_eq (hadd : add exclu d₁.travail sous = .ok courant)
    (hobjet : d₁.objets.get? commit = some c)
    (harbre : ∀ p, c.arbre.lire p = ajout exclu t₀ sous p) :
    ∃ t₃, restaurer exclu d₁ sous commit =
        ({ d₁ with travail := t₃ }, .ok (ecartDe c.arbre courant)) ∧
      ∀ p, t₃.lire p = if vise exclu t₀ d₁.travail sous p then none else
        (ajout exclu t₀ sous p).or
          (if recouvert exclu t₀ d₁.travail sous p then none else d₁.travail.lire p) := by
  have hcourant : ∀ p, courant.lire p = ajout exclu d₁.travail sous p := fun p => lire_add hadd p
  unfold restaurer
  rw [ecart_eq hadd hobjet]
  simp only [hobjet, readTree]
  refine ⟨_, rfl, fun p => ?_⟩
  rw [lire_supprimerTous]
  simp only [vise_of_ecart harbre hcourant]
  congr 1
  have hecrire := @rien_a_ecrire ω _ c.arbre courant
  simp only [harbre, hcourant] at hecrire
  split
  · next hcond =>
      have hchange : change exclu t₀ d₁.travail sous = true := by
        rw [change_iff, ← hecrire]
        tauto
      unfold checkoutIndex
      rw [Fichiers.lire_poser, harbre, recouvert_eq harbre, hchange, Bool.true_and]
  · next hcond =>
      have hmeme : ∀ p, (ajout exclu t₀ sous p).isSome = true →
          ajout exclu d₁.travail sous p = ajout exclu t₀ sous p := by
        rw [← hecrire]
        tauto
      have hchange : change exclu t₀ d₁.travail sous = false := by
        rw [← Bool.not_eq_true, change_iff, not_not]
        exact hmeme
      rw [recouvert_eq harbre, hchange, Bool.false_and]
      cases hcap : ajout exclu t₀ sous p with
      | none => rfl
      | some contenu =>
          have hvu := hmeme p (by rw [hcap]; rfl)
          rw [hcap] at hvu
          rw [(ajout_eq_some.mp hvu).2.2]
          rfl

end Restitution

/-- No file stands at a directory, or above it. -/
def EstDossier (t : Fichiers ω) (p : Lieu) : Prop := ∀ q, q <+: p → t.lire q = none

section Prise

variable {exclu : List (Option ω) → Bool → Lieu → Bool} {identifiant : Commit ω → String}
  {sous p : Lieu} {t₀ t₁ : Fichiers ω} {d d₀ : Depot ω} {message commit : String}

theorem ajout_of_lire (hp : sous <+: p) :
    ajout exclu t₀ sous p = if ignore exclu t₀.lire p = false then t₀.lire p else none := by
  unfold ajout
  simp only [hp, true_and]

theorem prendre_ok (h : prendre exclu identifiant d sous message = .ok (d₀, commit)) :
    ∃ c, d₀.objets.get? commit = some c ∧ add exclu d.travail sous = .ok c.arbre := by
  unfold prendre arbreDeLEtat at h
  cases hadd : add exclu d.travail sous with
  | error e =>
      rw [hadd] at h
      cases h
  | ok arbre =>
      rw [hadd] at h
      cases h
      exact ⟨_, Dict.get?_set_self _ _ _, rfl⟩

theorem regle_dehors {e : Lieu} (hdossier₀ : EstDossier t₀ sous) (hdossier₁ : EstDossier t₁ sous)
    (hdehors : ∀ p, ¬ sous <+: p → t₁.lire p = t₀.lire p) (he : e <+: sous) (hne : e ≠ sous) :
    t₁.lire (e ++ [".gitignore"]) = t₀.lire (e ++ [".gitignore"]) := by
  by_cases hsous : sous <+: e ++ [".gitignore"]
  · have heq : sous = e ++ [".gitignore"] := by
      apply hsous.eq_of_length
      have hle := hsous.length_le
      have hlt : e.length < sous.length :=
        lt_of_le_of_ne he.length_le fun hlen => hne (he.eq_of_length hlen)
      rw [List.length_append, List.length_singleton] at hle ⊢
      omega
    rw [← heq, hdossier₁ sous List.prefix_rfl, hdossier₀ sous List.prefix_rfl]
  · exact hdehors _ hsous

theorem add_de_dehors {arbre : Fichiers ω} (hadd : add exclu t₀ sous = .ok arbre)
    (hdossier₀ : EstDossier t₀ sous) (hdossier₁ : EstDossier t₁ sous)
    (hdehors : ∀ p, ¬ sous <+: p → t₁.lire p = t₀.lire p) :
    ∃ courant, add exclu t₁ sous = .ok courant := by
  apply add_ok
  rw [← ignoreDossier_of_add hadd]
  apply ignoreDossier_congr
  intro e he hne
  exact regle_dehors hdossier₀ hdossier₁ hdehors he hne

end Prise

section Retour

variable [DecidableEq ω] (exclu : List (Option ω) → Bool → Lieu → Bool)

/-- The captured files are back, nothing else has changed and nothing is left to restore. -/
def Retour (sous : Lieu) (t₀ : Fichiers ω) (d₁ : Depot ω) (commit : String) : Prop :=
  ∃ d₂ fait, restaurer exclu d₁ sous commit = (d₂, .ok fait) ∧
    (∀ p, sous <+: p → ignore exclu t₀.lire p = false → d₂.travail.lire p = t₀.lire p) ∧
    (∀ p, ¬ sous <+: p → d₂.travail.lire p = d₁.travail.lire p) ∧
    d₂.tete = d₁.tete ∧ d₂.branche = d₁.branche ∧ d₂.index = d₁.index ∧
    ecart exclu d₂ sous commit = .ok {}

variable (sous : Lieu) (t₀ t₁ : Fichiers ω)

/-- The files that stay: what was captured, and what is neither in its way nor struck. -/
def restant (p : Lieu) : Option ω :=
  (ajout exclu t₀ sous p).or
    (if recouvert exclu t₀ t₁ sous p || vise exclu t₀ t₁ sous p then none else t₁.lire p)

/-- Each deletion strikes a new file and not a captured one, each new file that the first rules do
not hide is struck or in the way, and the rules that stay hide what the first ones hid. -/
structure Fidele : Prop where
  epargnes : ∀ p, (ajout exclu t₀ sous p).isSome = true → vise exclu t₀ t₁ sous p = false
  restes : ∀ p, sous <+: p → ignore exclu t₀.lire p = false → t₀.lire p = none →
    (t₁.lire p).isSome = true →
    recouvert exclu t₀ t₁ sous p = true ∨ vise exclu t₀ t₁ sous p = true
  regles : ∀ p, sous <+: p → (restant exclu sous t₀ t₁ p).isSome = true →
    ignore exclu (restant exclu sous t₀ t₁) p = ignore exclu t₀.lire p

variable {exclu sous t₀ t₁} {t₃ : Fichiers ω} {p : Lieu}

theorem dehors_inchange (hdossier : EstDossier t₁ sous) (hp : ¬ sous <+: p) :
    (if vise exclu t₀ t₁ sous p then none else
      (ajout exclu t₀ sous p).or
        (if recouvert exclu t₀ t₁ sous p then none else t₁.lire p)) = t₁.lire p := by
  have hvise : ¬ vise exclu t₀ t₁ sous p = true := by
    rw [vise_iff]
    intro h
    obtain ⟨q, _, heq⟩ := h
    rw [heq] at hp
    exact hp (List.prefix_append sous _)
  have hajout : ajout exclu t₀ sous p = none := if_neg fun h => hp h.1
  rw [if_neg hvise, hajout, Option.none_or]
  split
  · next hrec =>
      -- above a captured file, and not in the workspace: above the workspace
      unfold recouvert at hrec
      rw [Bool.and_eq_true, List.any_eq_true] at hrec
      obtain ⟨q, _, hq⟩ := hrec.2
      rw [Bool.and_eq_true, Fichiers.genes_iff] at hq
      obtain ⟨c, hc⟩ := Option.isSome_iff_exists.mp hq.1
      have hsous := (ajout_eq_some.mp hc).1
      cases hq.2 with
      | inl hpq =>
          cases List.prefix_or_prefix_of_prefix hpq hsous with
          | inl hdessus => exact (hdossier p hdessus).symm
          | inr hdessous => exact absurd hdessous hp
      | inr hqp => exact absurd (hsous.trans hqp) hp
  · rfl

section Fidelite

variable (ht₃ : ∀ p, t₃.lire p = if vise exclu t₀ t₁ sous p then none else
  (ajout exclu t₀ sous p).or (if recouvert exclu t₀ t₁ sous p then none else t₁.lire p))

include ht₃

theorem lire_eq_restant
    (h : ∀ p, (ajout exclu t₀ sous p).isSome = true → vise exclu t₀ t₁ sous p = false) :
    t₃.lire = restant exclu sous t₀ t₁ := by
  funext p
  rw [ht₃, restant]
  cases hvise : vise exclu t₀ t₁ sous p with
  | true =>
      cases hcap : ajout exclu t₀ sous p with
      | none => simp
      | some c =>
          rw [h p (by rw [hcap]; rfl)] at hvise
          cases hvise
  | false => simp

theorem fidele_of_contenu
    (hcontenu : ∀ p, sous <+: p → ignore exclu t₀.lire p = false → t₃.lire p = t₀.lire p)
    (hajout : ∀ p, ajout exclu t₃ sous p = ajout exclu t₀ sous p) :
    Fidele exclu sous t₀ t₁ := by
  have hepargnes : ∀ p, (ajout exclu t₀ sous p).isSome = true →
      vise exclu t₀ t₁ sous p = false := by
    intro p hsome
    obtain ⟨c, hc⟩ := Option.isSome_iff_exists.mp hsome
    obtain ⟨hp, hignore, hlu⟩ := ajout_eq_some.mp hc
    have hfin := hcontenu p hp hignore
    rw [hlu, ht₃] at hfin
    cases hvise : vise exclu t₀ t₁ sous p with
    | true =>
        rw [hvise] at hfin
        cases hfin
    | false => rfl
  refine ⟨hepargnes, fun p hp hignore hlu hsome => ?_, fun p hp hsome => ?_⟩
  · have hfin := hcontenu p hp hignore
    have hcap : ajout exclu t₀ sous p = none := by
      rw [ajout_of_lire hp, hlu, ite_self]
    rw [hlu, ht₃, hcap, Option.none_or] at hfin
    by_contra hnon
    rw [not_or] at hnon
    rw [if_neg hnon.2, if_neg hnon.1] at hfin
    rw [hfin] at hsome
    cases hsome
  · have hlire := lire_eq_restant ht₃ hepargnes
    rw [← hlire] at hsome ⊢
    have hvu := hajout p
    rw [ajout_of_lire hp, ajout_of_lire hp] at hvu
    obtain ⟨c, hc⟩ := Option.isSome_iff_exists.mp hsome
    cases hignore : ignore exclu t₀.lire p with
    | true =>
        rw [hignore, hc] at hvu
        cases h₃ : ignore exclu t₃.lire p with
        | true => rfl
        | false =>
            rw [h₃] at hvu
            cases hvu
    | false =>
        rw [hignore, ← hcontenu p hp hignore, hc] at hvu
        cases h₃ : ignore exclu t₃.lire p with
        | true =>
            rw [h₃] at hvu
            cases hvu
        | false => rfl

theorem contenu_of_fidele (h : Fidele exclu sous t₀ t₁) (hp : sous <+: p)
    (hignore : ignore exclu t₀.lire p = false) : t₃.lire p = t₀.lire p := by
  have hcap : ajout exclu t₀ sous p = t₀.lire p := by
    rw [ajout_of_lire hp, hignore]
    rfl
  rw [lire_eq_restant ht₃ h.epargnes, restant, hcap]
  cases hlu : t₀.lire p with
  | some c => rfl
  | none =>
      rw [Option.none_or]
      split
      · rfl
      · next hnon =>
          rw [← Option.not_isSome_iff_eq_none]
          intro hsome
          apply hnon
          rw [Bool.or_eq_true]
          exact h.restes p hp hignore hlu hsome

theorem ajout_of_fidele (h : Fidele exclu sous t₀ t₁) (p : Lieu) :
    ajout exclu t₃ sous p = ajout exclu t₀ sous p := by
  by_cases hp : sous <+: p
  · rw [ajout_of_lire hp, ajout_of_lire hp]
    have hlire := lire_eq_restant ht₃ h.epargnes
    cases hlu : t₃.lire p with
    | none =>
        rw [ite_self]
        split
        · next hignore => rw [← contenu_of_fidele ht₃ h hp hignore, hlu]
        · rfl
    | some c =>
        have hregles := h.regles p hp (by rw [← hlire, hlu]; rfl)
        rw [← hlire] at hregles
        rw [hregles]
        split
        · next hignore => rw [← contenu_of_fidele ht₃ h hp hignore, hlu]
        · rfl
  · unfold ajout
    rw [if_neg fun h => hp h.1, if_neg fun h => hp h.1]

end Fidelite

theorem fidele_racine (hnoms : ∀ p ∈ t₁.contenus.keys, ∀ x ∈ p, '\r' ∉ x.toList)
    (hcaches : ∀ p, (t₁.lire p).isSome = true → ignore exclu t₁.lire p = true →
      ignore exclu t₀.lire p = true ∨ (t₀.lire p).isSome = true)
    (hregles : ∀ d, (t₀.lire (d ++ [".gitignore"])).isSome = true ∨
      (t₁.lire (d ++ [".gitignore"])).isSome = true →
        ignore exclu t₀.lire (d ++ [".gitignore"]) = false) :
    Fidele exclu [] t₀ t₁ := by
  have hvise : ∀ p, vise exclu t₀ t₁ [] p = true ↔ intrus exclu t₀ t₁ [] p = true := by
    intro p
    have hlu : ∀ q, intrus exclu t₀ t₁ [] q = true → q.map nomLu = q := by
      intro q hq
      unfold intrus at hq
      rw [Bool.and_eq_true] at hq
      have hmap : q.map nomLu = q.map id := by
        apply List.map_congr_left
        intro x hx
        unfold nomLu
        rw [Texte.universel_of_notMem (hnoms q (mem_of_ajout hq.1) x hx)]
        exact String.ofList_toList
      rw [hmap, List.map_id]
    rw [vise_iff]
    constructor
    · intro h
      obtain ⟨q, hq, heq⟩ := h
      rw [List.nil_append, hlu q hq] at heq
      rw [heq]
      exact hq
    · intro h
      exact ⟨p, h, by rw [List.nil_append, hlu p h]⟩
  have hrestes : ∀ p, ignore exclu t₀.lire p = false → t₀.lire p = none →
      (t₁.lire p).isSome = true → vise exclu t₀ t₁ [] p = true := by
    intro p hignore hlu hsome
    have hvu : ignore exclu t₁.lire p = false := by
      rw [← Bool.not_eq_true]
      intro hcache
      cases hcaches p hsome hcache with
      | inl h =>
          rw [hignore] at h
          cases h
      | inr h =>
          rw [hlu] at h
          cases h
    rw [hvise, intrus, ajout_of_lire List.nil_prefix, ajout_of_lire List.nil_prefix, hvu, hignore,
      hlu]
    simpa using hsome
  refine ⟨fun p hsome => ?_, fun p _ hignore hlu hsome => .inr (hrestes p hignore hlu hsome),
    fun p _ _ => ?_⟩
  · rw [← Bool.not_eq_true, hvise, intrus, Bool.and_eq_true]
    intro h
    rw [Option.isNone_iff_eq_none] at h
    rw [h.2] at hsome
    cases hsome
  · -- the ignore files that stay are those that were captured
    apply ignore_congr
    intro e
    unfold restant
    cases hlu : t₀.lire (e ++ [".gitignore"]) with
    | some c =>
        have hignore := hregles e (.inl (by rw [hlu]; rfl))
        rw [ajout_of_lire List.nil_prefix, hignore, hlu]
        rfl
    | none =>
        rw [ajout_of_lire List.nil_prefix, hlu, ite_self, Option.none_or]
        cases hlu₁ : t₁.lire (e ++ [".gitignore"]) with
        | none => exact ite_self none
        | some c =>
            have hsome : (t₁.lire (e ++ [".gitignore"])).isSome = true := by
              rw [hlu₁]
              rfl
            rw [hrestes _ (hregles e (.inr hsome)) hlu hsome, Bool.or_true]
            rfl

variable {identifiant : Commit ω → String} {d d₀ d₁ : Depot ω} {message commit : String}

/-- A checkpoint of a workspace, whatever becomes of its files afterwards: the restoration gives
back what was captured exactly when its deletions and the rules that stay are faithful. -/
theorem retour_iff (hprise : prendre exclu identifiant d sous message = .ok (d₀, commit))
    (hobjet : d₁.objets.get? commit = d₀.objets.get? commit)
    (hdossier₀ : EstDossier d.travail sous) (hdossier₁ : EstDossier d₁.travail sous)
    (hdehors : ∀ p, ¬ sous <+: p → d₁.travail.lire p = d.travail.lire p) :
    Retour exclu sous d.travail d₁ commit ↔ Fidele exclu sous d.travail d₁.travail := by
  obtain ⟨c, hc, hadd₀⟩ := prendre_ok hprise
  rw [hc] at hobjet
  have harbre : ∀ p, c.arbre.lire p = ajout exclu d.travail sous p := lire_add hadd₀
  obtain ⟨courant, hadd₁⟩ := add_de_dehors hadd₀ hdossier₀ hdossier₁ hdehors
  obtain ⟨t₃, hrestaurer, ht₃⟩ := restaurer_eq hadd₁ hobjet harbre
  have hdehors₃ : ∀ p, ¬ sous <+: p → t₃.lire p = d₁.travail.lire p := by
    intro p hp
    rw [ht₃]
    exact dehors_inchange hdossier₁ hp
  have hdossier₃ : EstDossier t₃ sous := by
    intro q hq
    have hcap : ajout exclu d.travail sous q = none := by
      unfold ajout
      rw [hdossier₀ q hq, ite_self]
    rw [ht₃, hcap, hdossier₁ q hq, ite_self, Option.none_or, ite_self]
  obtain ⟨courant₃, hadd₃⟩ := add_de_dehors hadd₀ hdossier₀ hdossier₃ fun p hp =>
    (hdehors₃ p hp).trans (hdehors p hp)
  -- the second difference compares the two captures
  have hsecond : ecart exclu { d₁ with travail := t₃ } sous commit = .ok {} ↔
      ∀ p, ajout exclu t₃ sous p = ajout exclu d.travail sous p := by
    have hecart : ecart exclu { d₁ with travail := t₃ } sous commit =
        .ok (ecartDe c.arbre courant₃) := ecart_eq hadd₃ hobjet
    rw [hecart, Except.ok.injEq, ecartDe_vide]
    simp only [harbre, lire_add hadd₃]
  unfold Retour
  rw [hrestaurer]
  constructor
  · intro h
    obtain ⟨d₂, fait, heq, hcontenu, _, _, _, _, hecart⟩ := h
    cases heq
    exact fidele_of_contenu ht₃ hcontenu (hsecond.mp hecart)
  · intro h
    exact ⟨_, _, rfl, fun p hp hignore => contenu_of_fidele ht₃ h hp hignore, hdehors₃, rfl, rfl,
      rfl, hsecond.mpr (ajout_of_fidele ht₃ h)⟩

end Retour

section Exemples

def unFichier : Fichiers String where
  contenus := [(["s", "a"], "1")]
  cles := by decide
  noms := by decide +kernel
  antichaine := by decide

def deuxFichiers : Fichiers String where
  contenus := [(["s", "a"], "1"), (["s", "n"], "2")]
  cles := by decide
  noms := by decide +kernel
  antichaine := by decide

/-- The file was added, and the ignore file that names it. -/
def fichierCache : Fichiers String where
  contenus := [(["s", "a"], "1"), (["s", "n"], "2"), ([".gitignore"], "n\n")]
  cles := by decide
  noms := by decide +kernel
  antichaine := by decide

def depotPris : Depot String :=
  { travail := unFichier, tete := none, branche := some "main", index := unFichier, refs := [],
    objets := [] }

/-- The pattern of the only ignore file: whatever has the name `n`. -/
def excluN (regles : List (Option String)) (_ : Bool) (p : Lieu) : Bool :=
  some "n\n" ∈ regles && p.getLast? = some "n"

def empreinteCommit (_ : Commit String) : String := "3b18e512dba79e4c8300dd08aeb37f8e728b8dad"

/-- At the root and without ignore files, the new file is deleted. -/
theorem restaurer_a_la_racine :
    ∃ d₀, prendre excluN empreinteCommit depotPris [] "m" =
        .ok (d₀, "3b18e512dba79e4c8300dd08aeb37f8e728b8dad") ∧
      Retour excluN [] unFichier { d₀ with travail := deuxFichiers }
        "3b18e512dba79e4c8300dd08aeb37f8e728b8dad" := by
  have hracine : ∀ t : Fichiers String, t.lire [] = none → EstDossier t [] := by
    intro t ht q hq
    rw [List.prefix_nil.mp hq]
    exact ht
  have hvisible : ∀ p ∈ deuxFichiers.contenus.keys, ignore excluN deuxFichiers.lire p = false := by
    decide +kernel
  have hregles : ∀ p ∈ deuxFichiers.contenus.keys, p.getLast? ≠ some ".gitignore" := by decide
  have hregles' : ∀ p ∈ unFichier.contenus.keys, p.getLast? ≠ some ".gitignore" := by decide
  obtain ⟨d₀, hprise⟩ : ∃ d₀, prendre excluN empreinteCommit depotPris [] "m" =
      .ok (d₀, "3b18e512dba79e4c8300dd08aeb37f8e728b8dad") := ⟨_, rfl⟩
  have hiff : Retour excluN [] unFichier { d₀ with travail := deuxFichiers }
      "3b18e512dba79e4c8300dd08aeb37f8e728b8dad" ↔ Fidele excluN [] unFichier deuxFichiers :=
    retour_iff hprise rfl (hracine unFichier rfl) (hracine deuxFichiers rfl)
      fun p hp => absurd List.nil_prefix hp
  refine ⟨d₀, hprise, hiff.mpr (fidele_racine ?_ ?_ ?_)⟩
  · decide +kernel
  · intro p hsome hignore
    rw [hvisible p (Fichiers.lire_isSome.mp hsome)] at hignore
    cases hignore
  · intro e h
    cases h with
    | inl h => exact absurd List.getLast?_concat (hregles' _ (Fichiers.lire_isSome.mp h))
    | inr h => exact absurd List.getLast?_concat (hregles _ (Fichiers.lire_isSome.mp h))

/-- In the workspace `s`, the new file `s/n` is looked for at `s/s/n`; at the root, a new file that
a new ignore file hides is not seen. Both stay. -/
theorem restaurer_laisse_un_fichier :
    (∃ d₀, prendre excluN empreinteCommit depotPris ["s"] "m" =
        .ok (d₀, "3b18e512dba79e4c8300dd08aeb37f8e728b8dad") ∧
      ¬ Retour excluN ["s"] unFichier { d₀ with travail := deuxFichiers }
        "3b18e512dba79e4c8300dd08aeb37f8e728b8dad") ∧
    ∃ d₀, prendre excluN empreinteCommit depotPris [] "m" =
        .ok (d₀, "3b18e512dba79e4c8300dd08aeb37f8e728b8dad") ∧
      ¬ Retour excluN [] unFichier { d₀ with travail := fichierCache }
        "3b18e512dba79e4c8300dd08aeb37f8e728b8dad" := by
  refine ⟨⟨_, rfl, fun h => ?_⟩, ⟨_, rfl, fun h => ?_⟩⟩
  · obtain ⟨d₂, fait, heq, hcontenu, _⟩ := h
    have hfin := hcontenu ["s", "n"] (by decide) (by decide +kernel)
    have hd₂ := congrArg (fun r => r.1.travail.lire ["s", "n"]) heq
    dsimp only at hd₂
    rw [← hd₂] at hfin
    exact absurd hfin (by decide +kernel)
  · obtain ⟨d₂, fait, heq, hcontenu, _⟩ := h
    have hfin := hcontenu ["s", "n"] (by decide) (by decide +kernel)
    have hd₂ := congrArg (fun r => r.1.travail.lire ["s", "n"]) heq
    dsimp only at hd₂
    rw [← hd₂] at hfin
    exact absurd hfin (by decide +kernel)

end Exemples

end Hermes.GitRef
