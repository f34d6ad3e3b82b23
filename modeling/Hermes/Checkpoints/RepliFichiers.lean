import Hermes.Lib.Fichiers
import Mathlib.Algebra.GroupWithZero.Nat
import Mathlib.Data.List.Lex
import Mathlib.Data.List.Sort
import Mathlib.Data.String.Basic

/-! # The checkpoint of a folder that is not a repository

The files of the workspace are copied beside a manifest of their fingerprints.
-/

namespace Hermes.RepliFichiers

open Lib Fichiers

abbrev Octets := List UInt8

def IGNORED_DIRS : List String :=
  [".git", "__pycache__", ".venv", "venv", "node_modules", ".pytest_cache", ".mypy_cache",
    ".ruff_cache", ".next", "dist", "build", ".idea", ".vscode", ".hermes"]

def ignore (p : Parts) : Bool := p.any fun part => part ∈ IGNORED_DIRS

def fichiers (racine : Arbre Octets) : Dict Parts Octets :=
  (racine.insertionSort fun a b => a.1 ≤ b.1).filterMap fun item =>
    match item.2 with
    | .fichier contenu => if ignore item.1 then none else some (item.1, contenu)
    | .dossier => none

structure Ecart where
  aRestaurer : List Parts := []
  aRecreer : List Parts := []
  aSupprimer : List Parts := []
  deriving DecidableEq

inductive Manifeste where
  | absent
  | illisible
  | lu (empreintes : Dict Parts String)

structure Destination where
  manifeste : Manifeste
  contenu : Arbre Octets

inductive Echec where
  | tropGros (mesure plafond : Nat)
  | manifesteAbsent
  | manifesteIllisible
  | repliCorrompu (message : String)
  | systeme (e : Erreur)
  deriving DecidableEq

def taille (racine : Arbre Octets) : Nat := ((fichiers racine).map fun item => item.2.length).sum

/-- `as_posix()`. -/
def posix (p : Parts) : String := "/".intercalate p

/-- `sorted` on the paths as they are written. -/
def trier (chemins : List Parts) : List Parts := chemins.insertionSort fun p q => posix p ≤ posix q

section Repli

-- the hexadecimal digest of SHA-256
variable (hacher : Octets → String)

/-- The manifest: the fingerprint of each file. -/
def empreintes (racine : Arbre Octets) : Dict Parts String :=
  (fichiers racine).map fun item => (item.1, hacher item.2)

def prendre (racine : Arbre Octets) (plafond : Option Nat) : Except Echec Destination :=
  match plafond.filter fun plafond => plafond < taille racine with
  | some plafond => .error (.tropGros (taille racine) plafond)
  | none =>
      match deposerTous (fichiers racine) [] with
      | (_, some e) => .error (.systeme e)
      | (contenu, none) => .ok { manifeste := .lu (empreintes hacher racine), contenu := contenu }

def lireManifeste (d : Destination) : Except Echec (Dict Parts String) :=
  match d.manifeste with
  | .absent => .error .manifesteAbsent
  | .illisible => .error .manifesteIllisible
  | .lu empreintes => .ok empreintes

def conforme (contenu : Arbre Octets) (item : Parts × String) : Bool :=
  match lire contenu item.1 with
  | some (.fichier copie) => hacher copie = item.2
  | _ => false

def verifier (d : Destination) : Except Echec (List Parts) :=
  (lireManifeste d).map fun manifeste =>
    trier ((manifeste.filter fun item => !conforme hacher d.contenu item).map Prod.fst)

def ecart (racine : Arbre Octets) (d : Destination) : Except Echec Ecart :=
  (lireManifeste d).map fun manifeste =>
    let presents := fichiers racine
    { aRestaurer := trier ((manifeste.filter fun item =>
        (presents.get? item.1).any fun contenu => hacher contenu ≠ item.2).map Prod.fst)
      aRecreer := trier (manifeste.keys.filter fun p => (presents.get? p).isNone)
      aSupprimer := trier (presents.keys.filter fun p => (manifeste.get? p).isNone) }

def remettre (contenu : Arbre Octets) : List Parts → Arbre Octets → Arbre Octets × Option Erreur
  | [], racine => (racine, none)
  | p :: chemins, racine =>
      match lire contenu p with
      | some (.fichier copie) =>
          match deposer racine p copie with
          | (racine', some e) => (racine', some e)
          | (racine', none) => remettre contenu chemins racine'
      | _ =>
          match mkdir racine p.dropLast with
          | .error e => (racine, some e)
          | .ok racine' => (racine', some (.fileNotFound p))

def messageCorrompu (abimes : List Parts) : String :=
  toString abimes.length ++ " fichier(s) du point de reprise ne correspondent plus à leur " ++
    "empreinte : " ++ ", ".intercalate ((abimes.take 5).map posix) ++
    " — restaurer depuis là laisserait un état intermédiaire"

def restaurer (racine : Arbre Octets) (d : Destination) : Arbre Octets × Except Echec Ecart :=
  match verifier hacher d with
  | .error e => (racine, .error e)
  | .ok abimes =>
      if abimes ≠ [] then (racine, .error (.repliCorrompu (messageCorrompu abimes)))
      else
        match ecart hacher racine d with
        | .error e => (racine, .error e)
        | .ok fait =>
            match remettre d.contenu (fait.aRestaurer ++ fait.aRecreer) racine with
            | (racine', some e) => (racine', .error (.systeme e))
            | (racine', none) =>
                match effacerTous fait.aSupprimer racine' with
                | (racine'', some e) => (racine'', .error (.systeme e))
                | (racine'', none) => (racine'', .ok fait)

end Repli

def capture (racine : Arbre Octets) (p : Parts) : Option Octets :=
  match lire racine p with
  | some (.fichier contenu) => if ignore p then none else some contenu
  | _ => none

section Capture

variable {racine : Arbre Octets} {p : Parts} {c : Octets}

theorem capture_eq_some :
    capture racine p = some c ↔ lire racine p = some (.fichier c) ∧ ignore p = false := by
  unfold capture
  split
  · next contenu h =>
      rw [h]
      cases ignore p <;> simp
  · next h =>
      simp only [reduceCtorEq, false_iff, not_and]
      intro hfichier
      exact absurd hfichier (h c)

theorem mem_fichiers (h : Valide racine) :
    (p, c) ∈ fichiers racine ↔ capture racine p = some c := by
  simp only [fichiers, List.mem_filterMap, List.mem_insertionSort, capture_eq_some]
  constructor
  · rintro ⟨⟨q, n⟩, hmem, hitem⟩
    cases n with
    | dossier => cases hitem
    | fichier contenu =>
        dsimp only at hitem
        split at hitem
        · cases hitem
        · next hignore =>
            cases hitem
            have hnil : p ≠ [] := by
              rintro rfl
              exact h.racine (List.mem_map_of_mem hmem)
            exact ⟨(lire_of_ne _ hnil).trans (Dict.get?_of_mem h.cles hmem), by simpa using hignore⟩
  · rintro ⟨hlu, hignore⟩
    have hnil : p ≠ [] := by
      rintro rfl
      cases hlu
    rw [lire_of_ne _ hnil] at hlu
    exact ⟨(p, .fichier c), Dict.mem_of_get? hlu, by simp [hignore]⟩

theorem nodup_fichiers (h : Valide racine) : (fichiers racine).keys.Nodup := by
  have hsorted : ((racine.insertionSort fun a b => a.1 ≤ b.1).map Prod.fst).Nodup :=
    ((List.perm_insertionSort _ _).map _).nodup_iff.mpr h.cles
  refine hsorted.sublist (Dict.keys_filterMap_sublist ?_ _)
  intro item item' hitem
  split at hitem
  · split at hitem <;> cases hitem
    rfl
  · cases hitem

theorem get?_fichiers (h : Valide racine) (p : Parts) :
    (fichiers racine).get? p = capture racine p := by
  cases hcap : capture racine p with
  | some c => exact Dict.get?_of_mem (nodup_fichiers h) ((mem_fichiers h).mpr hcap)
  | none =>
      apply Dict.get?_eq_none
      intro hmem
      obtain ⟨item, hitem, rfl⟩ := List.mem_map.mp hmem
      rw [(mem_fichiers h).mp hitem] at hcap
      cases hcap

end Capture

theorem mem_trier {chemins : List Parts} {p : Parts} : p ∈ trier chemins ↔ p ∈ chemins :=
  List.mem_insertionSort _

theorem nodup_trier {chemins : List Parts} (h : chemins.Nodup) : (trier chemins).Nodup :=
  (List.perm_insertionSort _ chemins).nodup_iff.mpr h

section Ecart

variable {hacher : Octets → String} {racine : Arbre Octets} {manifeste : Dict Parts String}
  {contenu : Arbre Octets} {e : Ecart} {p : Parts}

structure EcartJuste (hacher : Octets → String) (racine : Arbre Octets)
    (manifeste : Dict Parts String) (e : Ecart) : Prop where
  aRestaurer : ∀ p, p ∈ e.aRestaurer ↔ ∃ c empreinte, capture racine p = some c ∧
    manifeste.get? p = some empreinte ∧ hacher c ≠ empreinte
  aRecreer : ∀ p, p ∈ e.aRecreer ↔ capture racine p = none ∧ (manifeste.get? p).isSome = true
  aSupprimer : ∀ p, p ∈ e.aSupprimer ↔ (capture racine p).isSome = true ∧ manifeste.get? p = none
  uniques : (e.aRestaurer ++ e.aRecreer).Nodup
  uniquesSupprimes : e.aSupprimer.Nodup

theorem ecart_juste (hacher : Octets → String) (contenu : Arbre Octets) (h : Valide racine)
    (hcles : manifeste.keys.Nodup) :
    ∃ e, ecart hacher racine ⟨.lu manifeste, contenu⟩ = .ok e ∧
      EcartJuste hacher racine manifeste e := by
  have hrestaurer : ∀ p, p ∈ (manifeste.filter fun item =>
      ((fichiers racine).get? item.1).any fun contenu => hacher contenu ≠ item.2).map Prod.fst ↔
        ∃ c empreinte, capture racine p = some c ∧ manifeste.get? p = some empreinte ∧
          hacher c ≠ empreinte := by
    intro p
    simp only [List.mem_map, List.mem_filter, get?_fichiers h, Option.any_eq_true,
      decide_eq_true_eq]
    constructor
    · rintro ⟨item, ⟨hitem, c, hc, hne⟩, rfl⟩
      exact ⟨c, item.2, hc, Dict.get?_of_mem hcles hitem, hne⟩
    · rintro ⟨c, empreinte, hc, hget, hne⟩
      exact ⟨(p, empreinte), ⟨Dict.mem_of_get? hget, c, hc, hne⟩, rfl⟩
  refine ⟨_, rfl, fun p => ?_, fun p => ?_, fun p => ?_, ?_, ?_⟩
  · rw [mem_trier]
    exact hrestaurer p
  · rw [mem_trier, List.mem_filter, ← Dict.isSome_get?, get?_fichiers h, Option.isNone_iff_eq_none]
    exact and_comm
  · rw [mem_trier, List.mem_filter, ← Dict.isSome_get?, get?_fichiers h, Option.isNone_iff_eq_none]
  · refine List.nodup_append.mpr ⟨nodup_trier ?_, nodup_trier (hcles.filter _), ?_⟩
    · exact hcles.sublist (List.filter_sublist.map _)
    · intro a ha b hb hab
      rw [mem_trier] at ha hb
      obtain ⟨c, _, hc, _⟩ := (hrestaurer a).mp ha
      rw [← hab, List.mem_filter, get?_fichiers h, hc] at hb
      cases hb.2
  · exact nodup_trier ((nodup_fichiers h).filter _)

end Ecart

section Prise

variable {hacher : Octets → String} {racine racine₁ contenu : Arbre Octets} {p q : Parts}
  {c c' : Octets}

theorem lire_of_capture (h : capture racine p = some c) : lire racine p = some (.fichier c) :=
  (capture_eq_some.mp h).1

theorem get?_empreintes (h : Valide racine) (p : Parts) :
    (empreintes hacher racine).get? p = (capture racine p).map hacher := by
  rw [← get?_fichiers h]
  exact Dict.get?_map hacher (fichiers racine) p

theorem nodup_empreintes (hacher : Octets → String) (h : Valide racine) :
    (empreintes hacher racine).keys.Nodup := by
  have hkeys : (empreintes hacher racine).keys = (fichiers racine).keys := by
    simp [empreintes, Dict.keys, Function.comp_def]
  rw [hkeys]
  exact nodup_fichiers h

theorem capture_antichaine (h : Valide racine) (hp : capture racine p = some c)
    (hq : capture racine q = some c') (hpre : p <+: q) : p = q := by
  by_contra hne
  have hlu := lire_of_capture hq
  exact h.not_fichier (by rw [hlu]; rfl) hpre hne (lire_of_capture hp)

theorem ignore_of_prefixe (h : p <+: q) (hq : ignore q = false) : ignore p = false := by
  unfold ignore at hq ⊢
  rw [List.any_eq_false] at hq ⊢
  exact fun part hpart => hq part (h.subset hpart)

/-- No captured path is now a directory, or below a file. -/
structure SansConflit (racine racine₁ : Arbre Octets) : Prop where
  dossier : ∀ p, (capture racine p).isSome = true → lire racine₁ p ≠ some .dossier
  libre : ∀ p, (capture racine p).isSome = true → Libre racine₁ p.dropLast

theorem deposable {items : List (Parts × Octets)} (h : Valide racine)
    (hconflit : SansConflit racine racine₁)
    (hitems : ∀ item ∈ items, capture racine item.1 = some item.2)
    (huniques : (items.map Prod.fst).Nodup) : Deposable racine₁ items := by
  have hsome : ∀ item ∈ items, (capture racine item.1).isSome = true := fun item hitem => by
    rw [hitems item hitem]
    rfl
  refine ⟨fun item hitem hnil => ?_, fun item hitem => hconflit.dossier _ (hsome item hitem),
    fun item hitem => hconflit.libre _ (hsome item hitem),
    fun i hi j hj => capture_antichaine h (hitems i hi) (hitems j hj), huniques⟩
  have hcap := hitems item hitem
  rw [hnil] at hcap
  cases hcap

def Intacte (racine contenu : Arbre Octets) : Prop :=
  ∀ p c, capture racine p = some c → lire contenu p = some (.fichier c)

theorem sansConflit_vide (racine : Arbre Octets) : SansConflit racine [] := by
  refine ⟨fun p hp => ?_, fun p _ q _ c hlu => ?_⟩
  · have hnil : p ≠ [] := by
      rintro rfl
      cases hp
    rw [lire_of_ne _ hnil]
    intro hlu
    cases hlu
  · by_cases hnil : q = []
    · subst hnil
      cases hlu
    · rw [lire_of_ne _ hnil] at hlu
      cases hlu

theorem copie_intacte (h : Valide racine) :
    ∃ contenu, deposerTous (fichiers racine) [] = (contenu, none) ∧ Intacte racine contenu := by
  have hitems : ∀ item ∈ fichiers racine, capture racine item.1 = some item.2 :=
    fun item hitem => (mem_fichiers h).mp hitem
  obtain ⟨contenu, hdeposer, hdepose⟩ :=
    deposerTous_ok (deposable h (sansConflit_vide racine) hitems (nodup_fichiers h))
  refine ⟨contenu, hdeposer, fun p c hcap => ?_⟩
  exact hdepose.fichiers (p, c) ((mem_fichiers h).mpr hcap)

theorem prendre_spec (hacher : Octets → String) (h : Valide racine) (plafond : Option Nat) :
    (∃ n ∈ plafond, n < taille racine ∧
      prendre hacher racine plafond = .error (.tropGros (taille racine) n)) ∨
    ∃ copie, prendre hacher racine plafond = .ok copie ∧
      copie.manifeste = .lu (empreintes hacher racine) ∧ Intacte racine copie.contenu := by
  obtain ⟨contenu, hdeposer, hintacte⟩ := copie_intacte h
  unfold prendre
  split
  · next n hplafond =>
      obtain ⟨hn, hlt⟩ := Option.filter_eq_some_iff.mp hplafond
      exact .inl ⟨n, hn, by simpa using hlt, rfl⟩
  · rw [hdeposer]
    exact .inr ⟨_, rfl, rfl, hintacte⟩

end Prise

section Restauration

variable {hacher : Octets → String} {racine racine₁ contenu : Arbre Octets} {e : Ecart}

theorem remettre_eq_deposerTous {items : List (Parts × Octets)}
    (h : ∀ item ∈ items, lire contenu item.1 = some (.fichier item.2)) (racine₁ : Arbre Octets) :
    remettre contenu (items.map Prod.fst) racine₁ = deposerTous items racine₁ := by
  induction items generalizing racine₁ with
  | nil => rfl
  | cons item items ih =>
      have hnext := ih fun i hi => h i (List.mem_cons_of_mem _ hi)
      simp only [List.map_cons, remettre, deposerTous, h item List.mem_cons_self]
      cases hdepose : deposer racine₁ item.1 item.2 with
      | mk racine₂ erreur =>
          cases erreur with
          | some e => rfl
          | none => exact hnext racine₂

/-- No file of `racine₁` has the fingerprint of another content, captured under its name. -/
def SansCollision (hacher : Octets → String) (racine racine₁ : Arbre Octets) : Prop :=
  ∀ p c c', capture racine p = some c → lire racine₁ p = some (.fichier c') →
    hacher c' = hacher c → c' = c

/-- The files a restoration writes, with what was captured of them. -/
def aEcrire (racine : Arbre Octets) (e : Ecart) : List (Parts × Octets) :=
  (e.aRestaurer ++ e.aRecreer).map fun p => (p, (capture racine p).getD [])

theorem aEcrire_fst (racine : Arbre Octets) (e : Ecart) :
    (aEcrire racine e).map Prod.fst = e.aRestaurer ++ e.aRecreer := by
  simp [aEcrire, Function.comp_def]

variable (h : Valide racine) (he : EcartJuste hacher racine₁ (empreintes hacher racine) e)

include h he

theorem mem_aEcrire {p : Parts} {c : Octets} :
    (p, c) ∈ aEcrire racine e ↔
      capture racine p = some c ∧ (capture racine₁ p).map hacher ≠ some (hacher c) := by
  have hcible : p ∈ e.aRestaurer ++ e.aRecreer ↔ ∃ c, capture racine p = some c ∧
      (capture racine₁ p).map hacher ≠ some (hacher c) := by
    rw [List.mem_append, he.aRestaurer, he.aRecreer, get?_empreintes h]
    cases hcap : capture racine p with
    | none => simp
    | some c => cases capture racine₁ p <;> simp
  simp only [aEcrire, List.mem_map, Prod.mk.injEq]
  constructor
  · rintro ⟨p, hp, rfl, rfl⟩
    obtain ⟨c, hcap, hne⟩ := hcible.mp hp
    rw [hcap]
    exact ⟨rfl, hne⟩
  · rintro ⟨hcap, hne⟩
    refine ⟨p, hcible.mpr ⟨c, hcap, hne⟩, rfl, ?_⟩
    rw [hcap]
    rfl

theorem mem_aSupprimer {p : Parts} :
    p ∈ e.aSupprimer ↔ (capture racine₁ p).isSome = true ∧ capture racine p = none := by
  rw [he.aSupprimer, get?_empreintes h, Option.map_eq_none_iff]

theorem capture_aEcrire {item : Parts × Octets} (hitem : item ∈ aEcrire racine e) :
    capture racine item.1 = some item.2 := ((mem_aEcrire h he).mp hitem).1

theorem aEcrire_deposable (hconflit : SansConflit racine racine₁) :
    Deposable racine₁ (aEcrire racine e) := by
  apply deposable h hconflit fun item hitem => capture_aEcrire h he hitem
  rw [aEcrire_fst]
  exact he.uniques

theorem ne_of_not_capture {p : Parts} {item : Parts × Octets} (hitem : item ∈ aEcrire racine e)
    (hcap : capture racine p = none) : p ≠ item.1 := by
  rintro rfl
  rw [capture_aEcrire h he hitem] at hcap
  cases hcap

section Ecrit

variable {racine₂ : Arbre Octets} {p : Parts} {c : Octets}
  (hdepose : Depose racine₁ racine₂ (aEcrire racine e))

include hdepose

theorem lire_intrus (hconflit : SansConflit racine racine₁) (hcap₁ : capture racine₁ p = some c)
    (hcap : capture racine p = none) : lire racine₂ p = some (.fichier c) := by
  rw [hdepose.autres p, lire_of_capture hcap₁]
  intro item hitem hpre
  have hitemCap := capture_aEcrire h he hitem
  have hnil := (aEcrire_deposable h he hconflit).nonVide item hitem
  have hdessous : p <+: item.1.dropLast :=
    (prefix_dropLast_iff hnil).mpr ⟨hpre, ne_of_not_capture h he hitem hcap⟩
  exact hconflit.libre item.1 (by rw [hitemCap]; rfl) p hdessous c (lire_of_capture hcap₁)

theorem lire_captures (hcollision : SansCollision hacher racine racine₁)
    (hcap : capture racine p = some c) : lire racine₂ p = some (.fichier c) := by
  by_cases hp : (p, c) ∈ aEcrire racine e
  · exact hdepose.fichiers (p, c) hp
  · -- the file has the fingerprint of what was captured: it was not touched
    have hmeme : (capture racine₁ p).map hacher = some (hacher c) := by
      by_contra hne
      exact hp ((mem_aEcrire h he).mpr ⟨hcap, hne⟩)
    obtain ⟨c₁, hcap₁, hhash⟩ := Option.map_eq_some_iff.mp hmeme
    have hc₁ : c₁ = c := hcollision p c c₁ hcap (lire_of_capture hcap₁) hhash
    subst hc₁
    rw [hdepose.autres p, lire_of_capture hcap₁]
    intro item hitem hpre
    have hitemCap := capture_aEcrire h he hitem
    have heq : p = item.1 := capture_antichaine h hcap hitemCap hpre
    subst heq
    rw [Option.some.inj (hcap.symm.trans hitemCap)] at hp
    exact hp hitem

theorem lire_non_captures (hcap : capture racine p = none)
    (hlu : lire racine₂ p = some (.fichier c)) : lire racine₁ p = some (.fichier c) := by
  rw [← hdepose.autres p, hlu]
  intro item hitem hpre
  have hne := ne_of_not_capture h he hitem hcap
  rw [hdepose.dossiers p ⟨item, hitem, hpre, hne⟩] at hlu
  cases hlu

theorem lire_ignores (hignore : ignore p = true) : lire racine₂ p = lire racine₁ p := by
  rw [hdepose.autres p]
  intro item hitem hpre
  have hitemCap := capture_eq_some.mp (capture_aEcrire h he hitem)
  rw [ignore_of_prefixe hpre hitemCap.2] at hignore
  cases hignore

end Ecrit

theorem restitution (h₁ : Valide racine₁) (hconflit : SansConflit racine racine₁)
    (hcollision : SansCollision hacher racine racine₁) :
    ∃ racine₂ racine₃, deposerTous (aEcrire racine e) racine₁ = (racine₂, none) ∧
      effacerTous e.aSupprimer racine₂ = (racine₃, none) ∧ Valide racine₃ ∧
      (∀ p, capture racine₃ p = capture racine p) ∧
      (∀ p, ignore p = true → lire racine₃ p = lire racine₁ p) := by
  have hdeposable := aEcrire_deposable h he hconflit
  obtain ⟨racine₂, hdeposer, hdepose⟩ := deposerTous_ok hdeposable
  have hfichiers : ∀ p ∈ e.aSupprimer, estFichier racine₂ p = true := by
    intro p hp
    obtain ⟨hsome, hcap⟩ := (mem_aSupprimer h he).mp hp
    obtain ⟨c, hcap₁⟩ := Option.isSome_iff_exists.mp hsome
    exact estFichier_iff.mpr ⟨c, lire_intrus h he hdepose hconflit hcap₁ hcap⟩
  obtain ⟨racine₃, heffacer, hlu₃⟩ := effacerTous_ok he.uniquesSupprimes hfichiers
  have hliste₂ : Liste racine₂ := by
    have hliste := h₁.liste.deposerTous (aEcrire racine e)
    rwa [hdeposer] at hliste
  have hliste₃ : Liste racine₃ := by
    have hliste := hliste₂.effacerTous e.aSupprimer
    rwa [heffacer] at hliste
  have hvalide₂ : Valide racine₂ := h₁.depose hdeposable hdepose hliste₂
  refine ⟨racine₂, racine₃, hdeposer, heffacer, hvalide₂.efface hfichiers hlu₃ hliste₃,
    fun p => ?_, fun p hignore => ?_⟩
  · cases hcap : capture racine p with
    | some c =>
        have hgarde : p ∉ e.aSupprimer := by
          rw [mem_aSupprimer h he, hcap]
          simp
        rw [capture_eq_some, hlu₃, if_neg hgarde]
        exact ⟨lire_captures h he hdepose hcollision hcap, (capture_eq_some.mp hcap).2⟩
    | none =>
        rw [← Option.not_isSome_iff_eq_none, Option.isSome_iff_exists]
        rintro ⟨c, hcap₃⟩
        rw [capture_eq_some, hlu₃] at hcap₃
        obtain ⟨hlu, hignore⟩ := hcap₃
        split at hlu
        · cases hlu
        · next hgarde =>
            have hlu₁ := lire_non_captures h he hdepose hcap hlu
            have hcap₁ : capture racine₁ p = some c := capture_eq_some.mpr ⟨hlu₁, hignore⟩
            exact hgarde ((mem_aSupprimer h he).mpr ⟨by rw [hcap₁]; rfl, hcap⟩)
  · have hgarde : p ∉ e.aSupprimer := by
      rw [mem_aSupprimer h he]
      rintro ⟨hsome, -⟩
      obtain ⟨c, hcap₁⟩ := Option.isSome_iff_exists.mp hsome
      rw [(capture_eq_some.mp hcap₁).2] at hignore
      cases hignore
    rw [hlu₃, if_neg hgarde]
    exact lire_ignores h he hdepose hignore

end Restauration

section Verification

variable {hacher : Octets → String} {racine racine₁ racine₂ contenu : Arbre Octets}

theorem conforme_iff_intacte {item : Parts × String} :
    conforme hacher contenu item = true ↔
      ∃ c, lire contenu item.1 = some (.fichier c) ∧ hacher c = item.2 := by
  unfold conforme
  split
  · next c hlu => simp [hlu]
  · next hlu =>
      simp only [Bool.false_eq_true, false_iff, not_exists, not_and]
      intro c hc
      exact absurd hc (hlu c)

theorem verifier_conforme {manifeste : Dict Parts String}
    (h : ∀ item ∈ manifeste, conforme hacher contenu item = true) :
    verifier hacher ⟨.lu manifeste, contenu⟩ = .ok [] := by
  have hfilter : (manifeste.filter fun item => !conforme hacher contenu item) = [] := by
    rw [List.filter_eq_nil_iff]
    intro item hitem
    rw [h item hitem]
    decide
  simp only [verifier, lireManifeste, Except.map, hfilter]
  rfl

theorem restaurer_refuse (d : Destination)
    (h : ∀ manifeste, d.manifeste = .lu manifeste →
      ∃ item ∈ manifeste, conforme hacher d.contenu item = false) (racine : Arbre Octets) :
    ∃ e, restaurer hacher racine d = (racine, .error e) := by
  unfold restaurer
  split
  · next e _ => exact ⟨e, rfl⟩
  · next abimes hverifier =>
      have hne : abimes ≠ [] := by
        rintro rfl
        unfold verifier lireManifeste at hverifier
        split at hverifier
        · cases hverifier
        · cases hverifier
        · next manifeste hlu =>
            obtain ⟨item, hitem, hnon⟩ := h manifeste hlu
            have hmem : item.1 ∈ trier ((manifeste.filter fun item =>
                !conforme hacher d.contenu item).map Prod.fst) := by
              rw [mem_trier]
              refine List.mem_map_of_mem (List.mem_filter.mpr ⟨hitem, ?_⟩)
              rw [hnon]
              rfl
            simp only [Except.map, Except.ok.injEq] at hverifier
            rw [hverifier] at hmem
            cases hmem
      rw [if_pos hne]
      exact ⟨_, rfl⟩

theorem conforme_empreintes (hacher : Octets → String) (h : Valide racine)
    (hintacte : Intacte racine contenu) :
    ∀ item ∈ empreintes hacher racine, conforme hacher contenu item = true := by
  intro item hitem
  obtain ⟨⟨p, c⟩, hmem, rfl⟩ := List.mem_map.mp hitem
  exact conforme_iff_intacte.mpr ⟨c, hintacte p c ((mem_fichiers h).mp hmem), rfl⟩

theorem not_conforme_of_not_intacte (h : Valide racine)
    (hcollision : SansCollision hacher racine contenu) (hnon : ¬ Intacte racine contenu) :
    ∃ item ∈ empreintes hacher racine, conforme hacher contenu item = false := by
  unfold Intacte at hnon
  push Not at hnon
  obtain ⟨p, c, hcap, hlu⟩ := hnon
  refine ⟨(p, hacher c), List.mem_map.mpr ⟨(p, c), (mem_fichiers h).mpr hcap, rfl⟩, ?_⟩
  rw [← Bool.not_eq_true, conforme_iff_intacte]
  rintro ⟨c', hc', hhash⟩
  have hmeme : c' = c := hcollision p c c' hcap hc' hhash
  rw [hmeme] at hc'
  exact hlu hc'

theorem ecart_vide (h : Valide racine) (h₂ : Valide racine₂)
    (hcaptures : ∀ p, capture racine₂ p = capture racine p) :
    ecart hacher racine₂ ⟨.lu (empreintes hacher racine), contenu⟩ = .ok {} := by
  obtain ⟨e, hecart, he⟩ := ecart_juste hacher contenu h₂ (nodup_empreintes hacher h)
  have hecrire : aEcrire racine e = [] := by
    apply List.eq_nil_iff_forall_not_mem.mpr
    rintro ⟨p, c⟩ hmem
    obtain ⟨hcap, hne⟩ := (mem_aEcrire h he).mp hmem
    rw [hcaptures, hcap] at hne
    exact hne rfl
  have hsupprimer : e.aSupprimer = [] := by
    apply List.eq_nil_iff_forall_not_mem.mpr
    intro p hp
    rw [mem_aSupprimer h he, hcaptures] at hp
    rw [hp.2] at hp
    cases hp.1
  have hchemins := aEcrire_fst racine e
  rw [hecrire] at hchemins
  obtain ⟨hrestaurer, hrecreer⟩ := List.append_eq_nil_iff.mp hchemins.symm
  rw [hecart]
  cases e
  simp only at hrestaurer hrecreer hsupprimer
  subst hrestaurer hrecreer hsupprimer
  rfl

end Verification

section Retour

variable {hacher : Octets → String} {racine racine₁ : Arbre Octets} {plafond : Option Nat}
  {copie : Destination}

/-- What was captured is given back, from a copy that still holds it, to a workspace that no
captured path is a directory of; from any other copy nothing is written. -/
theorem restaurer_apres_prendre (contenu : Arbre Octets) (h : Valide racine)
    (h₁ : Valide racine₁) (hprise : prendre hacher racine plafond = .ok copie)
    (hracine₁ : SansCollision hacher racine racine₁)
    (hcontenu : SansCollision hacher racine contenu) :
    Intacte racine copie.contenu ∧
    (Intacte racine contenu → SansConflit racine racine₁ →
      ∃ racine₂ fait,
        restaurer hacher racine₁ ⟨copie.manifeste, contenu⟩ = (racine₂, .ok fait) ∧
        (∀ p, capture racine₂ p = capture racine p) ∧
        (∀ p, ignore p = true → lire racine₂ p = lire racine₁ p) ∧
        ecart hacher racine₂ ⟨copie.manifeste, contenu⟩ = .ok {}) ∧
    (¬ Intacte racine contenu →
      ∃ e, restaurer hacher racine₁ ⟨copie.manifeste, contenu⟩ = (racine₁, .error e)) ∧
    ∀ d : Destination, (∀ manifeste, d.manifeste = .lu manifeste →
        ∃ item ∈ manifeste, conforme hacher d.contenu item = false) →
      ∃ e, restaurer hacher racine₁ d = (racine₁, .error e) := by
  have hcopie : copie.manifeste = .lu (empreintes hacher racine) ∧
      Intacte racine copie.contenu := by
    rcases prendre_spec hacher h plafond with ⟨n, _, _, herr⟩ | ⟨copie', hok, hlu⟩
    · rw [herr] at hprise
      cases hprise
    · rw [hok] at hprise
      cases hprise
      exact hlu
  obtain ⟨hmanifeste, hintacteCopie⟩ := hcopie
  rw [hmanifeste]
  refine ⟨hintacteCopie, fun hintacte hconflit => ?_, fun hnon => ?_,
    fun d hd => restaurer_refuse d hd racine₁⟩
  · obtain ⟨e, hecart, he⟩ := ecart_juste hacher contenu h₁ (nodup_empreintes hacher h)
    obtain ⟨racine₂, racine₃, hdeposer, heffacer, hvalide, hcaptures, hignores⟩ :=
      restitution h he h₁ hconflit hracine₁
    refine ⟨racine₃, e, ?_, hcaptures, hignores, ecart_vide h hvalide hcaptures⟩
    have hverifier := verifier_conforme (conforme_empreintes hacher h hintacte)
    have hremettre : remettre contenu (e.aRestaurer ++ e.aRecreer) racine₁ = (racine₂, none) := by
      rw [← aEcrire_fst racine e, remettre_eq_deposerTous, hdeposer]
      exact fun item hitem => hintacte item.1 item.2 (capture_aEcrire h he hitem)
    simp only [restaurer, hverifier, ne_eq, not_true_eq_false, if_false, hecart, hremettre,
      heffacer]
  · apply restaurer_refuse
    intro manifeste hlu
    cases hlu
    exact not_conforme_of_not_intacte h hcontenu hnon

/-- The SHA-256 digests of the files `a` and `b`, of one letter each. -/
def sha256Connu : Octets → String
  | [97] => "ca978112ca1bbdcafac231b39a23dc4da786eff8147c4e72b9807785afee48bb"
  | [98] => "3e23e8160039594a33894f6564e1b1348bbd7a0088d42c4acb73eeaed59c009d"
  | _ => ""

def dossierPris : Arbre Octets := [(["s"], .dossier), (["s", "x"], .fichier [97])]

/-- A rewritten file, a new one and an ignored directory. -/
def dossierRepris : Arbre Octets :=
  [(["s"], .dossier), (["s", "x"], .fichier [98]), (["n"], .fichier [97]), ([".git"], .dossier),
    ([".git", "c"], .fichier [97])]

theorem restaurer_apres_prendre_reecriture :
    ∃ racine₂ fait,
      restaurer sha256Connu dossierRepris ⟨.lu [(["s", "x"], sha256Connu [97])], dossierPris⟩ =
        (racine₂, .ok fait) ∧
      (∀ p, capture racine₂ p = capture dossierPris p) ∧
      lire racine₂ [".git", "c"] = some (.fichier [97]) := by
  have h : Valide dossierPris := by decide
  have h₁ : Valide dossierRepris := by decide
  have hprise : prendre sha256Connu dossierPris none =
      .ok ⟨.lu [(["s", "x"], sha256Connu [97])], dossierPris⟩ := by rfl
  have hseul : ∀ p c, capture dossierPris p = some c → p = ["s", "x"] ∧ c = [97] := by
    intro p c hcap
    have hmem := (mem_fichiers h).mpr hcap
    have hfichiers : fichiers dossierPris = [(["s", "x"], [97])] := by decide
    rw [hfichiers, List.mem_singleton, Prod.mk.injEq] at hmem
    exact hmem
  have hrepris : SansCollision sha256Connu dossierPris dossierRepris := by
    intro p c c' hcap hlu hhash
    obtain ⟨rfl, rfl⟩ := hseul p c hcap
    cases hlu
    exact absurd hhash (by decide)
  have hpris : SansCollision sha256Connu dossierPris dossierPris := by
    intro p c c' hcap hlu hhash
    obtain ⟨rfl, rfl⟩ := hseul p c hcap
    cases hlu
    rfl
  have hconflit : SansConflit dossierPris dossierRepris := by
    refine ⟨fun p hp => ?_, fun p hp q hq c hlu => ?_⟩
    · obtain ⟨c, hcap⟩ := Option.isSome_iff_exists.mp hp
      obtain ⟨rfl, rfl⟩ := hseul p c hcap
      decide
    · obtain ⟨c₀, hcap⟩ := Option.isSome_iff_exists.mp hp
      obtain ⟨rfl, rfl⟩ := hseul p c₀ hcap
      have hdossier : ∀ q ∈ ["s"].inits, lire dossierRepris q = some .dossier := by decide
      rw [hdossier q ((List.mem_inits q _).mpr hq)] at hlu
      cases hlu
  obtain ⟨hintacte, hretour, -⟩ :=
    restaurer_apres_prendre dossierPris h h₁ hprise hrepris hpris
  obtain ⟨racine₂, fait, hok, hcaptures, hignores, -⟩ := hretour hintacte hconflit
  refine ⟨racine₂, fait, hok, hcaptures, ?_⟩
  rw [hignores [".git", "c"] (by decide)]
  decide

/-- The manifest is read as it stands: a copy that has lost an entry of it restores, and deletes
the file. And a directory that took the place of a file gets the copy inside it. -/
theorem restaurer_sans_entree :
    prendre sha256Connu [(["a"], .fichier [97])] none =
      .ok ⟨.lu [(["a"], sha256Connu [97])], [(["a"], .fichier [97])]⟩ ∧
    restaurer sha256Connu [(["a"], .fichier [97])] ⟨.lu [], [(["a"], .fichier [97])]⟩ =
      ([], .ok { aSupprimer := [["a"]] }) ∧
    restaurer sha256Connu [(["a"], .dossier)]
        ⟨.lu [(["a"], sha256Connu [97])], [(["a"], .fichier [97])]⟩ =
      ([(["a"], .dossier), (["a", "a"], .fichier [97])], .ok { aRecreer := [["a"]] }) :=
  ⟨rfl, by decide, by decide⟩

end Retour

end Hermes.RepliFichiers
