import Hermes.Lib.Boucles
import Hermes.Lib.Dict
import Mathlib.Data.List.Sort
import Mathlib.Data.String.Basic

/-! # Do the modules of a deliverable import each other in a circle?

A bounded walk from every module looks for the elementary cycles of the import graph.
-/

namespace Hermes.ImportsLocaux

open Lib (Dict)
open Lib.Boucles

abbrev Graphe := Dict String (List String)

def sorted (noms : List String) : List String := noms.insertionSort fun a b => a ≤ b

/-- `sorted(graphe.get(courant, ()))`, for a set of names. -/
def voisins (graphe : Graphe) (courant : String) : List String :=
  sorted (graphe.getD courant []).dedup

def LONGUEUR_MAX : Nat := 8

/-- `trouves` and `vus`. -/
structure Trouves where
  trouves : List (List String) := []
  vus : List (List String) := []
  deriving DecidableEq

local instance lawfulBoucles : LawfulBEq (List String) := inferInstance

def Trouves.fermer (t : Trouves) (depart : String) (chemin : List String) : Trouves :=
  let canonique := sorted chemin
  if canonique ∈ t.vus then t
  else { trouves := t.trouves ++ [chemin ++ [depart]], vus := t.vus ++ [canonique] }

def marcher (graphe : Graphe) (depart : String) : Nat → String → List String → Trouves → Trouves
  | 0, _, _, t => t
  | fuel + 1, courant, chemin, t =>
      (voisins graphe courant).foldl (fun t suivant =>
        if suivant = depart ∧ 2 ≤ chemin.length then t.fermer depart chemin
        else if suivant ∉ chemin ∧ chemin.length < LONGUEUR_MAX then
          marcher graphe depart fuel suivant (chemin ++ [suivant]) t
        else t) t

def cycles (graphe : Graphe) : List (List String) :=
  ((sorted graphe.keys).foldl (fun t module =>
    marcher graphe module LONGUEUR_MAX module [module] t) {}).trouves

def boucle (c : List String) : List String := c ++ c.take 1

def modules (b : List String) : List String := b.dropLast

theorem modules_boucle {c : List String} (h : c ≠ []) : modules (boucle c) = c := by
  cases c with
  | nil => exact absurd rfl h
  | cons a c =>
      show (a :: c ++ [a]).dropLast = a :: c
      rw [List.dropLast_concat]

def vue (t : List (List String) × List (List String)) : Trouves where
  trouves := t.1.map boucle
  vus := t.2

theorem fermer_vue (t : List (List String) × List (List String)) {depart : String}
    {chemin : List String} (h : chemin.head? = some depart) :
    (vue t).fermer depart chemin = vue (garder sorted t chemin) := by
  have hboucle : chemin ++ [depart] = boucle chemin := by
    cases chemin with
    | nil => cases h
    | cons a chemin =>
        cases h
        rfl
  unfold Trouves.fermer garder vue
  dsimp only
  split
  · rfl
  · rw [hboucle, List.map_append, List.map_singleton]

theorem marcher_vue (graphe : Graphe) (depart : String) {fuel : Nat} {courant : String}
    {chemin : List String} (t : List (List String) × List (List String))
    (h : chemin.head? = some depart) :
    marcher graphe depart fuel courant chemin (vue t) =
      vue ((fermetures (voisins graphe) LONGUEUR_MAX depart fuel courant chemin).foldl
        (garder sorted) t) := by
  induction fuel generalizing courant chemin t with
  | zero => rfl
  | succ fuel ih =>
      simp only [marcher, fermetures]
      generalize voisins graphe courant = suivants
      induction suivants generalizing t with
      | nil => rfl
      | cons suivant suivants ihs =>
          rw [List.foldl_cons, List.flatMap_cons, List.foldl_append, ← ihs]
          congr 1
          split
          · exact fermer_vue t h
          · split
            · refine ih t ?_
              cases chemin with
              | nil => cases h
              | cons a chemin => exact h
            · rfl

def gardes (graphe : Graphe) : List (List String) × List (List String) :=
  (toutes (voisins graphe) LONGUEUR_MAX (sorted graphe.keys)).foldl (garder sorted) ([], [])

theorem cycles_eq (graphe : Graphe) : cycles graphe = (gardes graphe).1.map boucle := by
  have hfold : ∀ (noms : List String) (t : List (List String) × List (List String)),
      noms.foldl (fun t module => marcher graphe module LONGUEUR_MAX module [module] t) (vue t) =
        vue ((toutes (voisins graphe) LONGUEUR_MAX noms).foldl (garder sorted) t) := by
    intro noms
    induction noms with
    | nil => exact fun _ => rfl
    | cons nom noms ih =>
        intro t
        have hcons : toutes (voisins graphe) LONGUEUR_MAX (nom :: noms) =
            fermetures (voisins graphe) LONGUEUR_MAX nom LONGUEUR_MAX nom [nom] ++
              toutes (voisins graphe) LONGUEUR_MAX noms := List.flatMap_cons
        rw [List.foldl_cons, marcher_vue graphe nom t rfl, ih, hcons, List.foldl_append]
  exact congrArg Trouves.trouves (hfold (sorted graphe.keys) ([], []))

/-- An elementary cycle of two to eight modules. -/
abbrev Elementaire (graphe : Graphe) : List String → Prop :=
  Lib.Boucles.Elementaire (voisins graphe) LONGUEUR_MAX

theorem mem_toutes_iff {graphe : Graphe} {c : List String} :
    c ∈ toutes (voisins graphe) LONGUEUR_MAX (sorted graphe.keys) ↔ Elementaire graphe c := by
  apply mem_toutes (by decide)
  intro v hv
  rw [sorted, List.mem_insertionSort]
  by_contra hnot
  have hnone : graphe.getD v [] = [] := by
    rw [Dict.getD, Dict.get?_eq_none hnot, Option.getD_none]
  rw [voisins, hnone] at hv
  exact hv rfl

theorem sorted_eq_iff {c c' : List String} : sorted c = sorted c' ↔ c.Perm c' := by
  constructor
  · intro h
    have hperm := (List.perm_insertionSort (fun a b => a ≤ b) c).symm
    have hperm' := List.perm_insertionSort (fun a b => a ≤ b) c'
    exact hperm.trans ((List.Perm.of_eq h).trans hperm')
  · intro h
    apply List.Perm.eq_of_pairwise' (r := fun a b => a ≤ b)
    · exact List.pairwise_insertionSort _ c
    · exact List.pairwise_insertionSort _ c'
    · exact (List.perm_insertionSort _ c).trans (h.trans (List.perm_insertionSort _ c').symm)

theorem gardes_tamis (graphe : Graphe) :
    Tamis sorted (toutes (voisins graphe) LONGUEUR_MAX (sorted graphe.keys)) (gardes graphe) :=
  tamis_foldl sorted _

theorem elementaire_of_mem_cycles {graphe : Graphe} {b : List String} (h : b ∈ cycles graphe) :
    ∃ c, Elementaire graphe c ∧ b = boucle c := by
  rw [cycles_eq, List.mem_map] at h
  obtain ⟨c, hc, rfl⟩ := h
  exact ⟨c, mem_toutes_iff.mp ((gardes_tamis graphe).issus c hc), rfl⟩

/-- Each elementary cycle is returned once, from one of its modules. -/
def UneFois (graphe : Graphe) : Prop :=
  ∀ c, Elementaire graphe c → (cycles graphe).countP (fun b => modules b ~r c) = 1

/-- Elementary cycles through the same modules go through them in the same order. -/
def Distingues (graphe : Graphe) : Prop :=
  ∀ c, Elementaire graphe c → ∀ c', Elementaire graphe c' → c.Perm c' → c ~r c'

theorem ne_nil_of_elementaire {graphe : Graphe} {c : List String} (h : Elementaire graphe c) :
    c ≠ [] := by
  intro hnil
  have hlong := h.long
  rw [hnil] at hlong
  simp at hlong

theorem uneFois_iff (graphe : Graphe) : UneFois graphe ↔ Distingues graphe := by
  have htamis := gardes_tamis graphe
  have hiff := htamis.countP_eq_one_iff (r := fun c c' => c ~r c') List.IsRotated.eqv
    fun c c' h => sorted_eq_iff.mpr h.perm
  have hcount : ∀ c, (cycles graphe).countP (fun b => modules b ~r c) =
      (gardes graphe).1.countP fun c' => c' ~r c := by
    intro c
    rw [cycles_eq, List.countP_map]
    apply List.countP_congr
    intro c' hc'
    have helementaire := mem_toutes_iff.mp (htamis.issus c' hc')
    simp [modules_boucle (ne_nil_of_elementaire helementaire)]
  simp only [mem_toutes_iff, sorted_eq_iff] at hiff
  simp only [UneFois, Distingues, hcount]
  exact hiff

/-- What the analysis of a module reads at its top level: its imports (the module, the name taken
from it, the line) and the line of each definition. -/
structure Aretes where
  imports : List (String × Option String × Int)
  definitions : Dict String Int
  deriving DecidableEq

/-- `from cible import nom` fails when the name is never defined, or only after an import by which
the target comes back into the cycle. -/
def importLeve (b : List String) (analyseCible : Aretes) (cible : String) :
    String × Option String × Int → Bool
  | (_, none, _) => false
  | (moduleImporte, some nom, _) =>
      if moduleImporte ≠ cible then false
      else
        match analyseCible.definitions.get? nom with
        | none => true
        | some ligneDefinition =>
            match ((analyseCible.imports.filter fun i => i.1 ∈ b).map fun i => i.2.2).min? with
            | none => false
            | some premiere => premiere < ligneDefinition

def pasLeve (b : List String) (analyses : Dict String Aretes) (pas : String × String) : Bool :=
  match analyses.get? pas.2, analyses.get? pas.1 with
  | some analyseCible, some analyseSource =>
      analyseSource.imports.any (importLeve b analyseCible pas.2)
  | _, _ => false

def estFatale (b : List String) (analyses : Dict String Aretes) : Bool :=
  (b.zip b.tail).any (pasLeve b analyses)

/-- The local imports of each module that was analysed. -/
def grapheDe (analyses : Dict String Aretes) : Graphe :=
  analyses.map fun item =>
    (item.1, (item.2.imports.map Prod.fst).filter fun cible =>
      cible ∈ analyses.keys ∧ cible ≠ item.1)

structure Rapport where
  modules : Nat
  cycles : List String
  fatals : List String
  deriving DecidableEq

def texte (b : List String) : String := " -> ".intercalate b

/-- `verdict`, from the modules that could be analysed on. -/
def verdict (analyses : Dict String Aretes) : Option Rapport :=
  if analyses = [] then none
  else
    let boucles := cycles (grapheDe analyses)
    some
      { modules := analyses.length
        cycles := boucles.map texte
        fatals := (boucles.filter fun b => estFatale b analyses).map texte }

/-- A cycle of the analysed modules that is fatal is reported as one. -/
def Signale (analyses : Dict String Aretes) : Prop :=
  (∃ c, Elementaire (grapheDe analyses) c ∧ estFatale (boucle c) analyses = true) →
    ∃ r, verdict analyses = some r ∧ r.fatals ≠ []

theorem zip_boucle (c : List String) : (boucle c).zip (boucle c).tail = c.zip (c.rotate 1) := by
  cases c with
  | nil => rfl
  | cons a c =>
      have hrotate : (a :: c).rotate 1 = c ++ [a] := by simp
      rw [hrotate]
      show (a :: (c ++ [a])).zip (c ++ [a]) = _
      rw [← List.cons_append, ← List.append_nil (c ++ [a]),
        List.zip_append (by simp), List.append_nil]
      simp

theorem estFatale_of_isRotated {c c' : List String} (h : c ~r c')
    (analyses : Dict String Aretes) :
    estFatale (boucle c) analyses = true → estFatale (boucle c') analyses = true := by
  obtain ⟨n, rfl⟩ := h
  have hmem : ∀ (l : List String) (m : String), m ∈ boucle l ↔ m ∈ l := by
    intro l m
    rw [boucle, List.mem_append, or_iff_left_of_imp List.mem_of_mem_take]
  have hpas : pasLeve (boucle (c.rotate n)) analyses = pasLeve (boucle c) analyses := by
    have himport : importLeve (boucle (c.rotate n)) = importLeve (boucle c) := by
      funext analyseCible cible i
      unfold importLeve
      simp only [hmem, List.mem_rotate]
    funext pas
    unfold pasLeve
    rw [himport]
  have hsteps : (c.rotate n).zip ((c.rotate n).rotate 1) = (c.zip (c.rotate 1)).rotate n := by
    rw [List.rotate_rotate, Nat.add_comm, ← List.rotate_rotate]
    exact (List.zipWith_rotate_distrib Prod.mk c (c.rotate 1) n (by simp)).symm
  simp only [estFatale, zip_boucle, hsteps, hpas, List.any_eq_true, List.mem_rotate, imp_self]

theorem signale_of_uneFois {analyses : Dict String Aretes} (h : UneFois (grapheDe analyses)) :
    Signale analyses := by
  rintro ⟨c, helementaire, hfatale⟩
  have hpos : 0 < (cycles (grapheDe analyses)).countP fun b => modules b ~r c := by
    rw [h c helementaire]
    exact Nat.one_pos
  obtain ⟨b, hb, hrotated⟩ := List.countP_pos_iff.mp hpos
  obtain ⟨c', helementaire', rfl⟩ := elementaire_of_mem_cycles hb
  rw [modules_boucle (ne_nil_of_elementaire helementaire')] at hrotated
  have hfatale' := estFatale_of_isRotated (of_decide_eq_true hrotated).symm analyses hfatale
  have hne : analyses ≠ [] := by
    rintro rfl
    cases hb
  refine ⟨_, if_neg hne, ?_⟩
  have hmem : boucle c' ∈
      (cycles (grapheDe analyses)).filter fun b => estFatale b analyses :=
    List.mem_filter.mpr ⟨hb, hfatale'⟩
  exact List.ne_nil_of_mem (List.mem_map_of_mem hmem)

/-- Every elementary cycle is returned once, and every fatal one reported, exactly on the graphs
where no two elementary cycles go through the same modules in different orders. -/
theorem cycles_uneFois_iff (graphe : Graphe) :
    ((∀ b ∈ cycles graphe, ∃ c, Elementaire graphe c ∧ b = boucle c) ∧ UneFois graphe ∧
      ∀ analyses, grapheDe analyses = graphe → Signale analyses) ↔ Distingues graphe := by
  constructor
  · intro h
    exact (uneFois_iff graphe).mp h.2.1
  · intro h
    have hune := (uneFois_iff graphe).mpr h
    refine ⟨fun b hb => elementaire_of_mem_cycles hb, hune, ?_⟩
    rintro analyses rfl
    exact signale_of_uneFois hune

def trio : Dict String Aretes :=
  [("a", { imports := [("c", some "X", 1), ("b", none, 2)], definitions := [] }),
    ("b", { imports := [("a", none, 1), ("c", none, 2)], definitions := [] }),
    ("c", { imports := [("b", none, 1), ("a", none, 3)], definitions := [("X", 2)] })]

/-- The cycle from `a` to `c` to `b` is fatal; it is neither returned nor reported. -/
theorem trio_silencieux :
    Elementaire (grapheDe trio) ["a", "c", "b"] ∧ estFatale ["a", "c", "b", "a"] trio = true ∧
      (∃ r, verdict trio = some r ∧ r.fatals = []) ∧ ¬ UneFois (grapheDe trio) ∧
      ¬ Signale trio := by
  have hc : Elementaire (grapheDe trio) ["a", "c", "b"] :=
    ⟨by decide, by decide +kernel, by decide, by decide, by
      intro x hx y hy
      cases hx
      cases hy
      decide +kernel⟩
  have hfatale : estFatale ["a", "c", "b", "a"] trio = true := by decide +kernel
  have hverdict : ∃ r, verdict trio = some r ∧ r.fatals = [] := ⟨_, rfl, by decide +kernel⟩
  refine ⟨hc, hfatale, hverdict, fun hune => ?_, fun hsignale => ?_⟩
  · have hone := hune _ hc
    revert hone
    decide +kernel
  · obtain ⟨r, hr, hvide⟩ := hverdict
    obtain ⟨r', hr', hne⟩ := hsignale ⟨_, hc, hfatale⟩
    rw [hr] at hr'
    cases hr'
    exact hne hvide

end Hermes.ImportsLocaux
