import Hermes.Lib.Dict
import Mathlib.Data.List.Infix

/-! # File trees

A tree is the dictionary of its entries, by the parts of their paths; the empty path is the root
and is always a directory.
-/

namespace Hermes.Lib.Fichiers

abbrev Parts := List String

inductive Noeud (ω : Type*) where
  | fichier (contenu : ω)
  | dossier
  deriving DecidableEq

abbrev Arbre (ω : Type*) := Dict Parts (Noeud ω)

inductive Erreur where
  | fileExists (p : Parts)
  | notADirectory (p : Parts)
  | isADirectory (p : Parts)
  | fileNotFound (p : Parts)
  deriving DecidableEq

variable {ω : Type*}

def lire (a : Arbre ω) (p : Parts) : Option (Noeud ω) :=
  if p = [] then some .dossier else a.get? p

def estFichier (a : Arbre ω) (p : Parts) : Bool :=
  match lire a p with
  | some (.fichier _) => true
  | _ => false

def estDossier (a : Arbre ω) (p : Parts) : Bool :=
  match lire a p with
  | some .dossier => true
  | _ => false

/-- `p.mkdir(parents=True, exist_ok=True)`. -/
def mkdir (a : Arbre ω) (p : Parts) : Except Erreur (Arbre ω) :=
  if estFichier a p then .error (.fileExists p)
  else if p.inits.any (estFichier a) then .error (.notADirectory p)
  else .ok ((p.inits.filter (· ≠ [])).foldl (fun a q => Dict.setDefault a q .dossier) a)

/-- `open(p, "wb")`, and the bytes that are written. -/
def ecrire (a : Arbre ω) (p : Parts) (contenu : ω) : Except Erreur (Arbre ω) :=
  if estDossier a p then .error (.isADirectory p)
  else if estDossier a p.dropLast then .ok (Dict.set a p (.fichier contenu))
  else if p.inits.any fun q => q ≠ p ∧ estFichier a q then .error (.notADirectory p)
  else .error (.fileNotFound p)

/-- `shutil.copy2(source, p)`: a file of the source's name in `p`, when `p` is a directory. -/
def copier (a : Arbre ω) (nom : String) (p : Parts) (contenu : ω) : Except Erreur (Arbre ω) :=
  if estDossier a p then ecrire a (p ++ [nom]) contenu else ecrire a p contenu

def unlink (a : Arbre ω) (p : Parts) : Except Erreur (Arbre ω) :=
  match lire a p with
  | some (.fichier _) => .ok (Dict.erase a p)
  | some .dossier => .error (.isADirectory p)
  | none => if p.inits.any (estFichier a) then .error (.notADirectory p) else .ok a

/-- The directories above `p`, then the copy of a file of the same name onto `p`. -/
def deposer (a : Arbre ω) (p : Parts) (contenu : ω) : Arbre ω × Option Erreur :=
  match mkdir a p.dropLast with
  | .error e => (a, some e)
  | .ok a' =>
      match copier a' (p.getLastD "") p contenu with
      | .error e => (a', some e)
      | .ok a'' => (a'', none)

/-- One file after the other, up to the first exception. -/
def deposerTous : List (Parts × ω) → Arbre ω → Arbre ω × Option Erreur
  | [], a => (a, none)
  | (p, contenu) :: items, a =>
      match deposer a p contenu with
      | (a', some e) => (a', some e)
      | (a', none) => deposerTous items a'

def effacerTous : List Parts → Arbre ω → Arbre ω × Option Erreur
  | [], a => (a, none)
  | p :: chemins, a =>
      match unlink a p with
      | .error e => (a, some e)
      | .ok a' => effacerTous chemins a'

structure Valide (a : Arbre ω) : Prop where
  cles : a.keys.Nodup
  racine : [] ∉ a.keys
  parents : ∀ p q, (lire a p).isSome = true → q <+: p → q ≠ p → lire a q = some .dossier

section Lecture

variable {a a' : Arbre ω} {p q : Parts} {n : Noeud ω} {contenu : ω}

@[simp] theorem lire_nil (a : Arbre ω) : lire a [] = some .dossier := rfl

theorem lire_of_ne (a : Arbre ω) (h : p ≠ []) : lire a p = a.get? p := if_neg h

theorem estFichier_iff : estFichier a p = true ↔ ∃ c, lire a p = some (.fichier c) := by
  unfold estFichier
  split
  · next c h => simp [h]
  · next h =>
      simp only [Bool.false_eq_true, false_iff, not_exists]
      exact h

theorem estDossier_iff : estDossier a p = true ↔ lire a p = some .dossier := by
  unfold estDossier
  split
  · next h => simp [h]
  · next h =>
      simp only [Bool.false_eq_true, false_iff]
      exact h

theorem valide_iff : Valide a ↔ a.keys.Nodup ∧ [] ∉ a.keys ∧
    ∀ p ∈ a.keys, ∀ q ∈ p.inits, q ≠ p → estDossier a q = true := by
  have hmem : ∀ p, p ≠ [] → ((lire a p).isSome = true ↔ p ∈ a.keys) := fun p hp => by
    rw [lire_of_ne a hp, Dict.isSome_get?]
  constructor
  · rintro ⟨hcles, hracine, hparents⟩
    refine ⟨hcles, hracine, fun p hp q hq hne => estDossier_iff.mpr ?_⟩
    have hnil : p ≠ [] := by
      rintro rfl
      exact hracine hp
    exact hparents p q ((hmem p hnil).mpr hp) ((List.mem_inits q p).mp hq) hne
  · rintro ⟨hcles, hracine, hparents⟩
    refine ⟨hcles, hracine, fun p q hp hq hne => ?_⟩
    have hnil : p ≠ [] := by
      rintro rfl
      exact hne (List.prefix_nil.mp hq)
    exact estDossier_iff.mp
      (hparents p ((hmem p hnil).mp hp) q ((List.mem_inits q p).mpr hq) hne)

local instance lawfulChemins : LawfulBEq (List String) := inferInstance

instance : Decidable (Valide a) := decidable_of_iff' _ valide_iff

theorem Valide.not_fichier (h : Valide a) (hp : (lire a p).isSome = true) (hq : q <+: p)
    (hne : q ≠ p) : lire a q ≠ some (.fichier contenu) := by
  rw [h.parents p q hp hq hne]
  intro heq
  cases heq

end Lecture

section Ecriture

variable {a a' : Arbre ω} {p q : Parts} {contenu : ω}

theorem get?_foldl_dossier (prefixes : List Parts) (a : Arbre ω) (q : Parts) :
    (prefixes.foldl (fun a q => Dict.setDefault a q .dossier) a).get? q =
      (a.get? q).or (if q ∈ prefixes then some .dossier else none) := by
  induction prefixes generalizing a with
  | nil => simp
  | cons first prefixes ih =>
      rw [List.foldl_cons, ih, Dict.get?_setDefault]
      by_cases hq : q = first
      · subst hq
        cases a.get? q <;> simp
      · simp [hq]

/-- No file stands on the way to `p`. -/
def Libre (a : Arbre ω) (p : Parts) : Prop := ∀ q, q <+: p → ∀ c, lire a q ≠ some (.fichier c)

theorem mkdir_ok (h : Libre a p) :
    ∃ a', mkdir a p = .ok a' ∧
      ∀ q, lire a' q = if q <+: p then some .dossier else lire a q := by
  have hnot : ∀ q, q <+: p → estFichier a q = false := by
    intro q hq
    rw [← Bool.not_eq_true, estFichier_iff]
    rintro ⟨c, hc⟩
    exact h q hq c hc
  have hany : p.inits.any (estFichier a) = false := by
    rw [List.any_eq_false]
    intro q hq
    rw [hnot q ((List.mem_inits q p).mp hq)]
    decide
  unfold mkdir
  rw [hnot p (List.prefix_refl p), hany]
  refine ⟨_, rfl, fun q => ?_⟩
  by_cases hnil : q = []
  · subst hnil
    simp
  · rw [lire_of_ne _ hnil, lire_of_ne _ hnil, get?_foldl_dossier]
    have hmem : q ∈ p.inits.filter (· ≠ []) ↔ q <+: p := by simp [hnil]
    by_cases hq : q <+: p
    · rw [if_pos hq, if_pos (hmem.mpr hq)]
      cases hread : a.get? q with
      | none => rfl
      | some n =>
          cases n with
          | dossier => rfl
          | fichier c =>
              have hfile := h q hq c
              rw [lire_of_ne a hnil] at hfile
              exact absurd hread hfile
    · rw [if_neg hq, if_neg fun hin => hq (hmem.mp hin), Option.or_none]

theorem ecrire_ok (contenu : ω) (hnil : p ≠ []) (hdossier : lire a p ≠ some .dossier)
    (hparent : lire a p.dropLast = some .dossier) :
    ∃ a', ecrire a p contenu = .ok a' ∧
      ∀ q, lire a' q = if q = p then some (.fichier contenu) else lire a q := by
  have hnot : estDossier a p = false := by
    rw [← Bool.not_eq_true, estDossier_iff]
    exact hdossier
  unfold ecrire
  rw [hnot, estDossier_iff.mpr hparent]
  refine ⟨_, rfl, fun q => ?_⟩
  by_cases hq : q = []
  · subst hq
    rw [if_neg (Ne.symm hnil)]
    rfl
  · rw [lire_of_ne _ hq, lire_of_ne _ hq, Dict.get?_set]

theorem prefix_dropLast_iff (hnil : p ≠ []) : q <+: p.dropLast ↔ q <+: p ∧ q ≠ p := by
  constructor
  · intro hq
    refine ⟨hq.trans (List.dropLast_prefix p), ?_⟩
    rintro rfl
    have hlen := hq.length_le
    have hpos := List.length_pos_iff.mpr hnil
    rw [List.length_dropLast] at hlen
    omega
  · rintro ⟨hq, hne⟩
    have hlast := List.dropLast_append_getLast hnil
    rw [← hlast] at hq
    rcases List.prefix_concat_iff.mp hq with heq | hpre
    · exact absurd (heq.trans hlast) hne
    · exact hpre

theorem deposer_ok (contenu : ω) (hnil : p ≠ []) (hdossier : lire a p ≠ some .dossier)
    (hlibre : Libre a p.dropLast) :
    ∃ a', deposer a p contenu = (a', none) ∧ ∀ q, lire a' q =
      if q = p then some (.fichier contenu) else if q <+: p then some .dossier else lire a q := by
  obtain ⟨a₁, hmkdir, hlu₁⟩ := mkdir_ok hlibre
  have hself : ¬ p <+: p.dropLast := fun h => ((prefix_dropLast_iff hnil).mp h).2 rfl
  have hdossier₁ : lire a₁ p ≠ some .dossier := by
    rw [hlu₁, if_neg hself]
    exact hdossier
  have hparent : lire a₁ p.dropLast = some .dossier := by
    rw [hlu₁, if_pos (List.prefix_refl _)]
  obtain ⟨a₂, hecrire, hlu₂⟩ := ecrire_ok contenu hnil hdossier₁ hparent
  have hnot : estDossier a₁ p = false := by
    rw [← Bool.not_eq_true, estDossier_iff]
    exact hdossier₁
  refine ⟨a₂, ?_, fun q => ?_⟩
  · simp only [deposer, hmkdir, copier, hnot, Bool.false_eq_true, if_false, hecrire]
  · rw [hlu₂, hlu₁]
    by_cases hq : q = p
    · rw [if_pos hq, if_pos hq]
    · simp only [prefix_dropLast_iff hnil, hq, ne_eq, not_false_iff, and_true]

/-- Files that can be put in the tree together: none of them is a directory, below a file, or
below another one of them. -/
structure Deposable (a : Arbre ω) (items : List (Parts × ω)) : Prop where
  nonVide : ∀ item ∈ items, item.1 ≠ []
  dossier : ∀ item ∈ items, lire a item.1 ≠ some .dossier
  libre : ∀ item ∈ items, Libre a item.1.dropLast
  antichaine : ∀ i ∈ items, ∀ j ∈ items, i.1 <+: j.1 → i.1 = j.1
  uniques : (items.map Prod.fst).Nodup

structure Depose (a a' : Arbre ω) (items : List (Parts × ω)) : Prop where
  fichiers : ∀ item ∈ items, lire a' item.1 = some (.fichier item.2)
  dossiers : ∀ q, (∃ item ∈ items, q <+: item.1 ∧ q ≠ item.1) → lire a' q = some .dossier
  autres : ∀ q, (∀ item ∈ items, ¬ q <+: item.1) → lire a' q = lire a q

theorem deposerTous_ok {items : List (Parts × ω)} (h : Deposable a items) :
    ∃ a', deposerTous items a = (a', none) ∧ Depose a a' items := by
  induction items generalizing a with
  | nil => exact ⟨a, rfl, by simp, by simp, fun _ _ => rfl⟩
  | cons item items ih =>
      obtain ⟨p, contenu⟩ := item
      have hmem : (p, contenu) ∈ (p, contenu) :: items := List.mem_cons_self
      have htail : ∀ i ∈ items, i ∈ (p, contenu) :: items := fun i hi => List.mem_cons_of_mem _ hi
      obtain ⟨hnotin, huniques⟩ := List.nodup_cons.mp h.uniques
      have hne : ∀ i ∈ items, i.1 ≠ p := fun i hi heq =>
        hnotin (List.mem_map.mpr ⟨i, hi, heq⟩)
      have hsous : ∀ i ∈ items, ¬ p <+: i.1 := fun i hi hpre =>
        hne i hi (h.antichaine _ hmem i (htail i hi) hpre).symm
      have hsur : ∀ i ∈ items, ¬ i.1 <+: p := fun i hi hpre =>
        hne i hi (h.antichaine i (htail i hi) _ hmem hpre)
      obtain ⟨a₁, hdeposer, hlu⟩ :=
        deposer_ok contenu (h.nonVide _ hmem) (h.dossier _ hmem) (h.libre _ hmem)
      have hnext : Deposable a₁ items := by
        refine ⟨fun i hi => h.nonVide i (htail i hi), fun i hi => ?_, fun i hi q hq c => ?_,
          fun i hi j hj => h.antichaine i (htail i hi) j (htail j hj), huniques⟩
        · rw [hlu, if_neg (hne i hi), if_neg (hsur i hi)]
          exact h.dossier i (htail i hi)
        · have hqp : q ≠ p := by
            rintro rfl
            exact hsous i hi (hq.trans (List.dropLast_prefix _))
          rw [hlu, if_neg hqp]
          split
          · simp
          · exact h.libre i (htail i hi) q hq c
      obtain ⟨a₂, hrest, hdepose⟩ := ih hnext
      refine ⟨a₂, by simp only [deposerTous, hdeposer, hrest], ?_, ?_, ?_⟩
      · intro i hi
        rcases List.mem_cons.mp hi with rfl | hi
        · rw [hdepose.autres p hsous, hlu, if_pos rfl]
        · exact hdepose.fichiers i hi
      · rintro q ⟨i, hi, hq, hqi⟩
        by_cases hbelow : ∃ j ∈ items, q <+: j.1
        · obtain ⟨j, hj, hqj⟩ := hbelow
          refine hdepose.dossiers q ⟨j, hj, hqj, ?_⟩
          rintro rfl
          exact hqi (h.antichaine j (htail j hj) i hi hq)
        · push Not at hbelow
          rw [hdepose.autres q hbelow, hlu]
          rcases List.mem_cons.mp hi with rfl | hi
          · rw [if_neg hqi, if_pos hq]
          · exact absurd hq (hbelow i hi)
      · intro q hq
        have hqp : ¬ q <+: p := hq _ hmem
        have hne' : q ≠ p := by
          rintro rfl
          exact hqp (List.prefix_refl q)
        rw [hdepose.autres q fun i hi => hq i (htail i hi), hlu, if_neg hne', if_neg hqp]

theorem effacerTous_ok {chemins : List Parts} (huniques : chemins.Nodup)
    (h : ∀ p ∈ chemins, estFichier a p = true) :
    ∃ a', effacerTous chemins a = (a', none) ∧
      ∀ q, lire a' q = if q ∈ chemins then none else lire a q := by
  induction chemins generalizing a with
  | nil => exact ⟨a, rfl, by simp⟩
  | cons p chemins ih =>
      obtain ⟨hnot, hrest⟩ := List.nodup_cons.mp huniques
      obtain ⟨c, hc⟩ := estFichier_iff.mp (h p List.mem_cons_self)
      have hnil : p ≠ [] := by
        rintro rfl
        cases hc
      have hlu : ∀ q, lire (Dict.erase a p) q = if q = p then none else lire a q := by
        intro q
        by_cases hq : q = []
        · subst hq
          rw [if_neg (Ne.symm hnil)]
          rfl
        · rw [lire_of_ne _ hq, lire_of_ne _ hq, Dict.get?_erase]
      have hnext : ∀ q ∈ chemins, estFichier (Dict.erase a p) q = true := by
        intro q hq
        obtain ⟨c', hc'⟩ := estFichier_iff.mp (h q (List.mem_cons_of_mem _ hq))
        have hne : q ≠ p := by
          rintro rfl
          exact hnot hq
        refine estFichier_iff.mpr ⟨c', ?_⟩
        rw [hlu, if_neg hne]
        exact hc'
      obtain ⟨a', hefface, hlu'⟩ := ih hrest hnext
      refine ⟨a', by simp only [effacerTous, unlink, hc, hefface], fun q => ?_⟩
      rw [hlu', hlu]
      by_cases hq : q = p
      · simp [hq]
      · simp [hq]

end Ecriture

section Valide

variable {a a' : Arbre ω} {p : Parts} {contenu : ω}

/-- Each path is listed once, and the root is not. -/
def Liste (a : Arbre ω) : Prop := a.keys.Nodup ∧ [] ∉ a.keys

theorem Liste.set (h : Liste a) (hnil : p ≠ []) (n : Noeud ω) : Liste (Dict.set a p n) := by
  refine ⟨Dict.nodup_keys_set h.1 p n, ?_⟩
  rw [Dict.keys_set]
  rintro (heq | hmem)
  · exact hnil heq.symm
  · exact h.2 hmem

theorem Liste.setDefault (h : Liste a) (hnil : p ≠ []) (n : Noeud ω) :
    Liste (Dict.setDefault a p n) := by
  unfold Dict.setDefault
  split
  · exact h
  · exact h.set hnil n

theorem Liste.mkdir (h : Liste a) (hok : mkdir a p = .ok a') : Liste a' := by
  unfold Fichiers.mkdir at hok
  split_ifs at hok with hfichier hchemin
  cases hok
  clear hfichier hchemin
  have hnonVide : ∀ q ∈ p.inits.filter (· ≠ []), q ≠ [] := fun q hq => by
    simpa using (List.mem_filter.mp hq).2
  generalize p.inits.filter (· ≠ []) = prefixes at hnonVide
  induction prefixes generalizing a with
  | nil => exact h
  | cons q prefixes ih =>
      exact ih (h.setDefault (hnonVide q List.mem_cons_self) _)
        fun q' hq' => hnonVide q' (List.mem_cons_of_mem _ hq')

theorem Liste.ecrire (h : Liste a) (hok : ecrire a p contenu = .ok a') : Liste a' := by
  unfold Fichiers.ecrire at hok
  split_ifs at hok with hdossier hparent
  cases hok
  apply h.set
  rintro rfl
  exact hdossier rfl

theorem Liste.deposer (h : Liste a) (p : Parts) (contenu : ω) :
    Liste (deposer a p contenu).1 := by
  unfold Fichiers.deposer
  split
  · exact h
  · next a₁ hmkdir =>
      have h₁ := h.mkdir hmkdir
      split
      · exact h₁
      · next a₂ hcopier =>
          unfold copier at hcopier
          split at hcopier <;> exact h₁.ecrire hcopier

theorem Liste.deposerTous (h : Liste a) (items : List (Parts × ω)) :
    Liste (deposerTous items a).1 := by
  induction items generalizing a with
  | nil => exact h
  | cons item items ih =>
      unfold Fichiers.deposerTous
      have hfirst := h.deposer item.1 item.2
      split
      · next a' e hdepose =>
          rw [hdepose] at hfirst
          exact hfirst
      · next a' hdepose =>
          rw [hdepose] at hfirst
          exact ih hfirst

theorem Liste.effacerTous (h : Liste a) (chemins : List Parts) :
    Liste (effacerTous chemins a).1 := by
  induction chemins generalizing a with
  | nil => exact h
  | cons p chemins ih =>
      unfold Fichiers.effacerTous
      split
      · exact h
      · next a' hunlink =>
          apply ih
          unfold unlink at hunlink
          split at hunlink
          · cases hunlink
            exact ⟨Dict.nodup_keys_erase h.1 p, fun hmem =>
              h.2 ((List.filter_sublist.map Prod.fst).subset hmem)⟩
          · cases hunlink
          · split at hunlink
            · cases hunlink
            · cases hunlink
              exact h

theorem Valide.liste (h : Valide a) : Liste a := ⟨h.cles, h.racine⟩

theorem Valide.depose {items : List (Parts × ω)} (h : Valide a) (hitems : Deposable a items)
    (hdepose : Depose a a' items) (hliste : Liste a') : Valide a' := by
  refine ⟨hliste.1, hliste.2, fun p q hp hq hne => ?_⟩
  by_cases hbelow : ∃ item ∈ items, q <+: item.1
  · obtain ⟨item, hitem, hqi⟩ := hbelow
    by_cases hsame : q = item.1
    · -- nothing is below a file that was put in the tree
      exfalso
      rw [hsame] at hq hne
      by_cases hitems' : ∃ other ∈ items, p <+: other.1
      · obtain ⟨other, hother, hpo⟩ := hitems'
        have heq := hitems.antichaine item hitem other hother (hq.trans hpo)
        exact hne (hq.eq_of_length_le (heq ▸ hpo.length_le))
      · push Not at hitems'
        rw [hdepose.autres p hitems'] at hp
        exact hitems.dossier item hitem (h.parents p item.1 hp hq hne)
    · exact hdepose.dossiers q ⟨item, hitem, hqi, hsame⟩
  · push Not at hbelow
    rw [hdepose.autres q hbelow]
    have hautres : ∀ item ∈ items, ¬ p <+: item.1 := fun item hitem hpi =>
      hbelow item hitem (hq.trans hpi)
    rw [hdepose.autres p hautres] at hp
    exact h.parents p q hp hq hne

theorem Valide.efface {chemins : List Parts} (h : Valide a)
    (hfichiers : ∀ p ∈ chemins, estFichier a p = true)
    (hlu : ∀ q, lire a' q = if q ∈ chemins then none else lire a q) (hliste : Liste a') :
    Valide a' := by
  refine ⟨hliste.1, hliste.2, fun p q hp hq hne => ?_⟩
  rw [hlu] at hp
  split at hp
  · cases hp
  · have hdossier := h.parents p q hp hq hne
    rw [hlu, if_neg, hdossier]
    intro hmem
    obtain ⟨c, hc⟩ := estFichier_iff.mp (hfichiers q hmem)
    rw [hdossier] at hc
    cases hc

end Valide

end Hermes.Lib.Fichiers
