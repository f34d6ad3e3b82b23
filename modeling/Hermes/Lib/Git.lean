import Hermes.Lib.Dict
import Mathlib.Data.List.Infix

/-! # The plumbing of git on a working tree

A working tree, an index and a tree object all are files at paths from the root of the repository,
no file below another one; a directory is what stands above a file.
-/

namespace Hermes.Lib.Git

abbrev Lieu := List String

def Nom (x : String) : Prop :=
  x ≠ "" ∧ x ≠ "." ∧ x ≠ ".." ∧ '/' ∉ x.toList ∧ '\x00' ∉ x.toList

instance (x : String) : Decidable (Nom x) := inferInstanceAs (Decidable (_ ∧ _))

structure Fichiers (ω : Type*) where
  contenus : Dict Lieu ω
  cles : contenus.keys.Nodup
  noms : ∀ p ∈ contenus.keys, p ≠ [] ∧ ∀ x ∈ p, Nom x
  antichaine : ∀ p ∈ contenus.keys, ∀ q ∈ contenus.keys, p <+: q → p = q

inductive Erreur where
  | cheminIgnore (p : Lieu)
  | objetInconnu (nom : String)
  deriving DecidableEq

/-- The letters of `--name-status`, without renames. -/
inductive Statut where
  | ajoute
  | supprime
  | modifie
  deriving DecidableEq

def Statut.lettre : Statut → Char
  | .ajoute => 'A'
  | .supprime => 'D'
  | .modifie => 'M'

variable {ω : Type*} {t t' index : Fichiers ω} {p q sous : Lieu}

namespace Fichiers

def lire (t : Fichiers ω) (p : Lieu) : Option ω := t.contenus.get? p

theorem lire_isSome : (t.lire p).isSome = true ↔ p ∈ t.contenus.keys := Dict.isSome_get?

def garder (t : Fichiers ω) (f : Lieu → Bool) : Fichiers ω where
  contenus := t.contenus.filter fun item => f item.1
  cles := t.cles.sublist (List.filter_sublist.map Prod.fst)
  noms p hp := t.noms p ((List.filter_sublist.map Prod.fst).subset hp)
  antichaine p hp q hq := t.antichaine p ((List.filter_sublist.map Prod.fst).subset hp) q
    ((List.filter_sublist.map Prod.fst).subset hq)

theorem lire_garder (t : Fichiers ω) (f : Lieu → Bool) (p : Lieu) :
    (t.garder f).lire p = if f p then t.lire p else none := by
  unfold lire garder
  cases hlu : t.contenus.get? p with
  | some c =>
      have hmem := Dict.mem_of_get? hlu
      cases hf : f p with
      | true =>
          exact Dict.get?_of_mem (t.garder f).cles (List.mem_filter.mpr ⟨hmem, hf⟩)
      | false =>
          apply Dict.get?_eq_none
          intro hcle
          cases List.mem_map.mp hcle with
          | intro item hitem =>
              have hgarde := (List.mem_filter.mp hitem.1).2
              rw [hitem.2, hf] at hgarde
              cases hgarde
  | none =>
      have hgarde : Dict.get? (t.contenus.filter fun item => f item.1) p = none := by
        apply Dict.get?_eq_none
        intro hcle
        have hcle' := (List.filter_sublist.map Prod.fst).subset hcle
        have hsome := Dict.isSome_get?.mpr hcle'
        rw [hlu] at hsome
        cases hsome
      rw [hgarde]
      exact (ite_self none).symm

def genes (p q : Lieu) : Bool := p.isPrefixOf q || q.isPrefixOf p

theorem genes_iff : genes p q = true ↔ p <+: q ∨ q <+: p := by simp [genes]

/-- Whether a file of a tree is in the way of a path. -/
def gene (index : Fichiers ω) (p : Lieu) : Bool := index.contenus.keys.any (genes p)

theorem gene_iff :
    gene index p = true ↔ ∃ q, (index.lire q).isSome = true ∧ (p <+: q ∨ q <+: p) := by
  simp only [gene, List.any_eq_true, genes_iff, lire_isSome]

theorem not_gene_of_garder
    (h : q ∈ (t.garder fun p => !gene index p).contenus.keys) (hp : p ∈ index.contenus.keys) :
    ¬ (q <+: p ∨ p <+: q) := by
  have hlu := lire_isSome.mpr h
  rw [lire_garder] at hlu
  split at hlu
  · next hlibre =>
      intro hgene
      rw [gene_iff.mpr ⟨p, lire_isSome.mpr hp, hgene⟩] at hlibre
      cases hlibre
  · cases hlu

def poser (index t : Fichiers ω) : Fichiers ω where
  contenus := index.contenus ++ (t.garder fun p => !gene index p).contenus
  cles := by
    rw [Dict.keys, List.map_append]
    refine List.nodup_append.mpr ⟨index.cles, Fichiers.cles _, fun p hp q hq hpq => ?_⟩
    rw [← hpq] at hq
    exact not_gene_of_garder hq hp (.inl List.prefix_rfl)
  noms p hp := by
    rw [Dict.keys, List.map_append, List.mem_append] at hp
    cases hp with
    | inl hp => exact index.noms p hp
    | inr hp => exact Fichiers.noms _ p hp
  antichaine p hp q hq hpq := by
    rw [Dict.keys, List.map_append, List.mem_append] at hp hq
    cases hp with
    | inl hp =>
        cases hq with
        | inl hq => exact index.antichaine p hp q hq hpq
        | inr hq => exact absurd (.inr hpq) (not_gene_of_garder hq hp)
    | inr hp =>
        cases hq with
        | inl hq => exact absurd (.inl hpq) (not_gene_of_garder hp hq)
        | inr hq => exact Fichiers.antichaine _ p hp q hq hpq

theorem lire_poser (index t : Fichiers ω) (p : Lieu) :
    (poser index t).lire p =
      (index.lire p).or (if gene index p then none else t.lire p) := by
  unfold lire poser
  rw [Dict.get?_append]
  congr 1
  have hgarde := lire_garder t (fun p => !gene index p) p
  unfold lire at hgarde
  rw [hgarde]
  cases gene index p <;> rfl

end Fichiers

open Hermes.Lib.Git.Fichiers

section Ignore

-- the patterns of the ignore files above a path, applied to a directory or to a file
variable (exclu : List (Option ω) → Bool → Lieu → Bool)

def regles (lu : Lieu → Option ω) (p : Lieu) : List (Option ω) :=
  p.dropLast.inits.map fun d => lu (d ++ [".gitignore"])

/-- A directory that is excluded, or that lies below one that is. -/
def ignoreDossier (lu : Lieu → Option ω) (p : Lieu) : Bool :=
  p.inits.any fun d => d ≠ [] && exclu (regles lu d) true d

/-- Nothing below an excluded directory can be included again. -/
def ignore (lu : Lieu → Option ω) (p : Lieu) : Bool :=
  ignoreDossier exclu lu p.dropLast || exclu (regles lu p) false p

/-- `git add -A -- .` in a directory, on an index that does not exist yet. -/
def add (t : Fichiers ω) (sous : Lieu) : Except Erreur (Fichiers ω) :=
  if ignoreDossier exclu t.lire sous then .error (.cheminIgnore sous)
  else .ok (t.garder fun p => sous.isPrefixOf p && !ignore exclu t.lire p)

/-- What `add` takes at a path. -/
def ajout (t : Fichiers ω) (sous p : Lieu) : Option ω :=
  if sous <+: p ∧ ignore exclu t.lire p = false then t.lire p else none

end Ignore

def writeTree (index : Fichiers ω) : Fichiers ω := index

def readTree (arbre : Fichiers ω) : Fichiers ω := arbre

/-- `git checkout-index -f -a`: each entry is written. -/
def checkoutIndex (index t : Fichiers ω) : Fichiers ω := poser index t

/-- `git diff-tree -r --name-status --no-renames`. -/
def diffTree [DecidableEq ω] (a b : Fichiers ω) : List (Statut × Lieu) :=
  (a.contenus.filterMap fun item =>
    match b.lire item.1 with
    | none => some (.supprime, item.1)
    | some c => if c = item.2 then none else some (.modifie, item.1)) ++
  b.contenus.filterMap fun item =>
    match a.lire item.1 with
    | none => some (.ajoute, item.1)
    | some _ => none

def posix (p : Lieu) : String := "/".intercalate p

/-- The output of `-z`: each field is closed by a null character. -/
def sortieZ (entrees : List (Statut × Lieu)) : List Char :=
  entrees.flatMap fun e => e.1.lettre :: '\x00' :: (posix e.2).toList ++ ['\x00']

section Add

variable {exclu : List (Option ω) → Bool → Lieu → Bool}

theorem lire_add (h : add exclu t sous = .ok index) (p : Lieu) :
    index.lire p = ajout exclu t sous p := by
  unfold add at h
  split at h
  · cases h
  · cases h
    rw [lire_garder]
    unfold ajout
    congr 1
    simp

theorem add_ok (h : ignoreDossier exclu t.lire sous = false) :
    ∃ index, add exclu t sous = .ok index := by
  unfold add
  rw [h]
  exact ⟨_, rfl⟩

theorem ignoreDossier_of_add (h : add exclu t sous = .ok index) :
    ignoreDossier exclu t.lire sous = false := by
  unfold add at h
  split at h
  · cases h
  · next hlibre => exact Bool.eq_false_iff.mpr hlibre

theorem ajout_eq_some {c : ω} :
    ajout exclu t sous p = some c ↔
      sous <+: p ∧ ignore exclu t.lire p = false ∧ t.lire p = some c := by
  unfold ajout
  split
  · next h => simp [h.1, h.2]
  · next h =>
      simp only [reduceCtorEq, false_iff]
      exact fun hp => h ⟨hp.1, hp.2.1⟩

theorem ignoreDossier_congr {lu lu' : Lieu → Option ω}
    (h : ∀ d, d <+: sous → d ≠ sous → lu (d ++ [".gitignore"]) = lu' (d ++ [".gitignore"])) :
    ignoreDossier exclu lu sous = ignoreDossier exclu lu' sous := by
  have hregles : ∀ d ∈ sous.inits, d ≠ [] → regles lu d = regles lu' d := by
    intro d hd hnil
    apply List.map_congr_left
    intro e he
    rw [List.mem_inits] at hd he
    have hlt : e.length < sous.length := by
      have hle := he.length_le
      have hle' := hd.length_le
      have hpos : 0 < d.length := List.length_pos_iff.mpr hnil
      rw [List.length_dropLast] at hle
      omega
    apply h e ((he.trans (List.dropLast_prefix d)).trans hd)
    intro heq
    rw [heq] at hlt
    omega
  unfold ignoreDossier
  rw [Bool.eq_iff_iff, List.any_eq_true, List.any_eq_true]
  refine exists_congr fun d => and_congr_right fun hd => ?_
  by_cases hnil : d = []
  · simp [hnil]
  · rw [hregles d hd hnil]

theorem ignore_congr {lu lu' : Lieu → Option ω}
    (h : ∀ d, lu (d ++ [".gitignore"]) = lu' (d ++ [".gitignore"])) :
    ignore exclu lu p = ignore exclu lu' p := by
  have hregles : ∀ q, regles lu q = regles lu' q := fun q => List.map_congr_left fun d _ => h d
  simp only [ignore, ignoreDossier, hregles]

end Add

section DiffTree

variable [DecidableEq ω] {a b : Fichiers ω}

theorem ajoute_mem_diffTree :
    (.ajoute, p) ∈ diffTree a b ↔ a.lire p = none ∧ (b.lire p).isSome = true := by
  simp only [diffTree, List.mem_append, List.mem_filterMap]
  constructor
  · intro h
    cases h with
    | inl h =>
        obtain ⟨item, _, hitem⟩ := h
        split at hitem
        · cases hitem
        · split at hitem <;> cases hitem
    | inr h =>
        obtain ⟨item, hmem, hitem⟩ := h
        split at hitem
        · next hlu =>
            cases hitem
            exact ⟨hlu, lire_isSome.mpr (List.mem_map_of_mem hmem)⟩
        · cases hitem
  · intro h
    obtain ⟨c, hc⟩ := Option.isSome_iff_exists.mp h.2
    exact .inr ⟨(p, c), Dict.mem_of_get? hc, by simp [h.1]⟩

theorem supprime_mem_diffTree :
    (.supprime, p) ∈ diffTree a b ↔ (a.lire p).isSome = true ∧ b.lire p = none := by
  simp only [diffTree, List.mem_append, List.mem_filterMap]
  constructor
  · intro h
    cases h with
    | inl h =>
        obtain ⟨item, hmem, hitem⟩ := h
        split at hitem
        · next hlu =>
            cases hitem
            exact ⟨lire_isSome.mpr (List.mem_map_of_mem hmem), hlu⟩
        · split at hitem <;> cases hitem
    | inr h =>
        obtain ⟨item, _, hitem⟩ := h
        split at hitem <;> cases hitem
  · intro h
    obtain ⟨c, hc⟩ := Option.isSome_iff_exists.mp h.1
    exact .inl ⟨(p, c), Dict.mem_of_get? hc, by simp [h.2]⟩

theorem modifie_mem_diffTree :
    (.modifie, p) ∈ diffTree a b ↔ ∃ c c', a.lire p = some c ∧ b.lire p = some c' ∧ c' ≠ c := by
  simp only [diffTree, List.mem_append, List.mem_filterMap]
  constructor
  · intro h
    cases h with
    | inl h =>
        obtain ⟨item, hmem, hitem⟩ := h
        split at hitem
        · cases hitem
        · next c' hlu =>
            split at hitem
            · cases hitem
            · next hne =>
                cases hitem
                exact ⟨item.2, c', Dict.get?_of_mem a.cles hmem, hlu, hne⟩
    | inr h =>
        obtain ⟨item, _, hitem⟩ := h
        split at hitem <;> cases hitem
  · intro h
    obtain ⟨c, c', hc, hc', hne⟩ := h
    exact .inl ⟨(p, c), Dict.mem_of_get? hc, by simp [hc', hne]⟩

theorem noms_diffTree {e : Statut × Lieu} (h : e ∈ diffTree a b) : e.2 ≠ [] ∧ ∀ x ∈ e.2, Nom x := by
  obtain ⟨s, p⟩ := e
  cases s with
  | ajoute => exact b.noms p (lire_isSome.mp (ajoute_mem_diffTree.mp h).2)
  | supprime => exact a.noms p (lire_isSome.mp (supprime_mem_diffTree.mp h).1)
  | modifie =>
      obtain ⟨c, _, hc, _⟩ := modifie_mem_diffTree.mp h
      exact a.noms p (lire_isSome.mp (by rw [hc]; rfl))

end DiffTree

end Hermes.Lib.Git
