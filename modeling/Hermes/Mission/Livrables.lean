import Hermes.Lib.Chemin
import Hermes.Lib.Distincts
import Hermes.Mission.TaskDecomposer

/-! # The outputs that a task declares, and the manifest that confronts them

The checks are made on the path as it is written, and the prefixes "./" are taken off afterwards.
-/

namespace Hermes.Planner.TaskDecomposer

open Lib (Chemin Json)
open Lib.Distincts

/-- `element.strip()` with slashes for its backslashes. -/
def propre (s : String) : List Char :=
  (Lib.Texte.strip s).toList.map fun c => if c = Char.ofNat 92 then '/' else c

inductive Masque : List Char → Prop
  | point (cs : List Char) : Masque ('.' :: '/' :: '/' :: cs)
  | encore {cs : List Char} (h : Masque cs) : Masque ('.' :: '/' :: cs)

section Boucle

variable {cs : List Char}

theorem Masque.head (h : Masque cs) : cs.head? = some '.' := by
  cases h <;> rfl

theorem sansPoint_suffix (cs : List Char) : sansPoint cs <:+ cs := by
  fun_induction sansPoint cs with
  | case1 cs ih => exact ih.trans ((List.suffix_cons '/' cs).trans (List.suffix_cons '.' _))
  | case2 cs hne => exact List.suffix_rfl

theorem head_sansPoint_iff (cs : List Char) :
    (sansPoint cs).head? = some '/' ↔ cs.head? = some '/' ∨ Masque cs := by
  fun_induction sansPoint cs with
  | case1 cs ih =>
      rw [ih]
      constructor
      · intro h
        cases h with
        | inl h =>
            obtain ⟨reste, rfl⟩ := List.head?_eq_some_iff.mp h
            exact Or.inr (.point reste)
        | inr h => exact Or.inr (.encore h)
      · intro h
        cases h with
        | inl h => simp at h
        | inr h =>
            cases h with
            | point reste => exact Or.inl rfl
            | encore h => exact Or.inr h
  | case2 cs hne =>
      constructor
      · exact Or.inl
      · intro h
        cases h with
        | inl h => exact h
        | inr h =>
            cases h with
            | point reste => exact absurd rfl (hne _)
            | encore h => exact absurd rfl (hne _)

theorem mem_splitOn_sansPoint {mot : List Char} (h : mot ∈ (sansPoint cs).splitOn '/') :
    mot ∈ cs.splitOn '/' := by
  fun_induction sansPoint cs with
  | case1 cs ih =>
      have hsuite : ('.' :: '/' :: cs).splitOn '/' = ['.'] :: cs.splitOn '/' := by
        rw [List.splitOn_cons_eq_if_modifyHead, if_neg (by decide), Chemin.splitOn_cons_self]
        rfl
      rw [hsuite]
      exact List.mem_cons_of_mem _ (ih h)
  | case2 cs hne => exact h

end Boucle

/-- An element that is kept, and that the loop makes absolute. -/
def Blanchi : Json → Prop
  | .texte s => Masque (propre s) ∧ (propre s).length ≤ 200 ∧
      ['.', '.'] ∉ (propre s).splitOn '/' ∧ ':' ∉ propre s
  | _ => False

section Element

variable {v : Json} {c : String}

/-- What is known of an element that is kept, and of its path. -/
structure Garde (s : String) (c : String) : Prop where
  chemin : c.toList = sansPoint (propre s)
  court : (propre s).length ≤ 200
  relatif : (propre s).head? ≠ some '/'
  sansRemontee : ['.', '.'] ∉ (propre s).splitOn '/'
  sansDeuxPoints : ':' ∉ propre s
  nonVide : sansPoint (propre s) ≠ []

theorem livrable_eq_some_iff : livrable v = some c ↔ ∃ s, v = .texte s ∧ Garde s c := by
  cases v with
  | texte s =>
      change (if propre s = [] ∨ 200 < (propre s).length then none
        else if (propre s).head? = some '/' ∨ ['.', '.'] ∈ (propre s).splitOn '/' ∨
          ':' ∈ propre s then none
        else if sansPoint (propre s) = [] then none
        else some (String.ofList (sansPoint (propre s)))) = some c ↔ _
      constructor
      · intro h
        obtain ⟨hlong, h⟩ := (Option.ite_none_left_eq_some).mp h
        obtain ⟨hcontrole, h⟩ := (Option.ite_none_left_eq_some).mp h
        obtain ⟨hvide, h⟩ := (Option.ite_none_left_eq_some).mp h
        rw [not_or] at hlong
        rw [not_or, not_or] at hcontrole
        have hc : c.toList = sansPoint (propre s) := by
          rw [← Option.some.inj h, String.toList_ofList]
        exact ⟨s, rfl, hc, Nat.le_of_not_lt hlong.2, hcontrole.1, hcontrole.2.1, hcontrole.2.2,
          hvide⟩
      · intro ⟨s', hs, h⟩
        cases hs
        have hplein : propre s ≠ [] := by
          intro hnil
          exact h.nonVide (by rw [hnil]; rfl)
        rw [if_neg (not_or.mpr ⟨hplein, Nat.not_lt.mpr h.court⟩),
          if_neg (not_or.mpr ⟨h.relatif, not_or.mpr ⟨h.sansRemontee, h.sansDeuxPoints⟩⟩),
          if_neg h.nonVide, ← h.chemin, String.ofList_toList]
  | null => simp [livrable]
  | bool b => simp [livrable]
  | entier n => simp [livrable]
  | flottant x => simp [livrable]
  | tableau l => simp [livrable]
  | objet l => simp [livrable]

theorem Garde.absolu_iff {s : String} (h : Garde s c) :
    c.toList.head? = some '/' ↔ Masque (propre s) := by
  rw [h.chemin, head_sansPoint_iff]
  exact ⟨fun hor => hor.resolve_left h.relatif, Or.inr⟩

theorem livrable_of_blanchi (h : Blanchi v) : ∃ c, livrable v = some c ∧
    c.toList.head? = some '/' := by
  cases v with
  | texte s =>
      obtain ⟨hmasque, hcourt, hremontee, hpoints⟩ := h
      have htete : (sansPoint (propre s)).head? = some '/' :=
        (head_sansPoint_iff _).mpr (Or.inr hmasque)
      have hvide : sansPoint (propre s) ≠ [] := by
        intro hnil
        rw [hnil] at htete
        cases htete
      have hrelatif : (propre s).head? ≠ some '/' := by
        rw [hmasque.head]
        decide
      refine ⟨String.ofList (sansPoint (propre s)), livrable_eq_some_iff.mpr ⟨s, rfl, ?_⟩, ?_⟩
      · exact ⟨String.toList_ofList, hcourt, hrelatif, hremontee, hpoints, hvide⟩
      · rw [String.toList_ofList, htete]
  | null => exact h.elim
  | bool b => exact h.elim
  | entier n => exact h.elim
  | flottant x => exact h.elim
  | tableau l => exact h.elim
  | objet l => exact h.elim

theorem blanchi_of_absolu (h : livrable v = some c) (hc : c.toList.head? = some '/') :
    Blanchi v := by
  obtain ⟨s, rfl, hs⟩ := livrable_eq_some_iff.mp h
  exact ⟨hs.absolu_iff.mp hc, hs.court, hs.sansRemontee, hs.sansDeuxPoints⟩

end Element

/-- What the outputs of a task promise to the workspace. -/
structure Surs (valeurs : List Json) (chemins : List String) : Prop where
  nombre : chemins.length ≤ MAX_LIVRABLES
  distincts : chemins.Nodup
  nonVides : ∀ c ∈ chemins, c ≠ ""
  relatifs : ∀ c ∈ chemins, c.toList.head? ≠ some '/'
  sansDeuxPoints : ∀ c ∈ chemins, ':' ∉ c.toList
  sansRemontee : ∀ c ∈ chemins, ['.', '.'] ∉ c.toList.splitOn '/'
  ordre : chemins.Sublist (valeurs.filterMap livrable)
  complet : ∀ c ∈ valeurs.filterMap livrable, c ∈ chemins ∨ chemins.length = MAX_LIVRABLES
  sous : ∀ c ∈ chemins, ∀ racine : Chemin, Chemin.sous racine (racine.joindre (.lire c)) = true
  /-- Below it, and not the root itself, for a path that is not made of dots. -/
  dessous : ∀ c ∈ chemins, (Chemin.lire c).parts ≠ [] → ∀ racine : Chemin,
    racine ∈ (racine.joindre (.lire c)).parents

/-- Before an element that the loop makes absolute, the list is full. -/
def Tenue (valeurs : List Json) : Prop :=
  ∀ avant v apres, valeurs = avant ++ v :: apres → Blanchi v →
    MAX_LIVRABLES ≤ (completer [] (avant.filterMap livrable)).length

section Liste

variable {valeurs : List Json} {c : String}

theorem livrables_eq (brut : Option Json) :
    livrables brut = (completer [] ((listes brut).filterMap livrable)).take MAX_LIVRABLES := rfl

theorem mem_take_iff :
    c ∈ (completer [] (valeurs.filterMap livrable)).take MAX_LIVRABLES ↔
      ∃ avant v apres, valeurs = avant ++ v :: apres ∧ livrable v = some c ∧
        (completer [] (avant.filterMap livrable)).length < MAX_LIVRABLES := by
  rw [mem_take_completer]
  constructor
  · intro ⟨avant, apres, hl, hlong⟩
    obtain ⟨debut, suite, hvaleurs, hdebut, hsuite⟩ := List.filterMap_eq_append_iff.mp hl
    obtain ⟨muets, v, fin, hfin, hmuets, hv, -⟩ := List.filterMap_eq_cons_iff.mp hsuite
    refine ⟨debut ++ muets, v, fin, ?_, hv, ?_⟩
    · rw [hvaleurs, hfin, List.append_assoc]
    · rw [List.filterMap_append, hdebut, List.filterMap_eq_nil_iff.mpr hmuets, List.append_nil]
      exact hlong
  · intro ⟨avant, v, apres, hvaleurs, hv, hlong⟩
    refine ⟨avant.filterMap livrable, apres.filterMap livrable, ?_, hlong⟩
    rw [hvaleurs, List.filterMap_append, List.filterMap_cons, hv]

theorem garde_of_mem (h : c ∈ (completer [] (valeurs.filterMap livrable)).take MAX_LIVRABLES) :
    ∃ s, Garde s c := by
  obtain ⟨avant, v, apres, -, hv, -⟩ := mem_take_iff.mp h
  obtain ⟨s, -, hs⟩ := livrable_eq_some_iff.mp hv
  exact ⟨s, hs⟩

theorem relatifs_iff :
    (∀ c ∈ (completer [] (valeurs.filterMap livrable)).take MAX_LIVRABLES,
      c.toList.head? ≠ some '/') ↔ Tenue valeurs := by
  constructor
  · intro h avant v apres hvaleurs hblanchi
    obtain ⟨c, hv, hc⟩ := livrable_of_blanchi hblanchi
    by_contra hlong
    exact h c (mem_take_iff.mpr ⟨avant, v, apres, hvaleurs, hv, Nat.lt_of_not_le hlong⟩) hc
  · intro h c hmem hc
    obtain ⟨avant, v, apres, hvaleurs, hv, hlong⟩ := mem_take_iff.mp hmem
    have hplein := h avant v apres hvaleurs (blanchi_of_absolu hv hc)
    exact absurd hlong (Nat.not_lt.mpr hplein)

theorem lire_racine (h : c.toList.head? ≠ some '/') : (Chemin.lire c).racine = "" := by
  unfold Chemin.lire
  generalize c.toList = cs at h
  cases cs with
  | nil => rfl
  | cons x cs =>
      have hx : x ≠ '/' := by
        intro hx
        exact h (by rw [hx]; rfl)
      unfold Chemin.racineDe
      split
      · next heq => exact absurd (List.cons.inj heq).1 hx
      · next heq => exact absurd (List.cons.inj heq).1 hx
      · next heq => exact absurd (List.cons.inj heq).1 hx
      · rfl

theorem joindre_lire (h : c.toList.head? ≠ some '/') (racine : Chemin) :
    racine.joindre (.lire c) = { racine with parts := racine.parts ++ (Chemin.lire c).parts } := by
  rw [Chemin.joindre, if_pos (lire_racine h)]

theorem sous_of_relatif (h : c.toList.head? ≠ some '/') (racine : Chemin) :
    Chemin.sous racine (racine.joindre (.lire c)) = true := by
  rw [joindre_lire h, Chemin.sous_iff]
  exact ⟨rfl, List.prefix_append _ _⟩

theorem dessous_of_relatif (h : c.toList.head? ≠ some '/') (hparts : (Chemin.lire c).parts ≠ [])
    (racine : Chemin) : racine ∈ (racine.joindre (.lire c)).parents := by
  rw [joindre_lire h, Chemin.mem_parents]
  refine ⟨rfl, racine.parts.length, ?_, ?_⟩
  · rw [List.length_append]
    have hpos := List.length_pos_of_ne_nil hparts
    omega
  · exact List.take_left.symm

theorem surs_of_relatifs
    (h : ∀ c ∈ (completer [] (valeurs.filterMap livrable)).take MAX_LIVRABLES,
      c.toList.head? ≠ some '/') :
    Surs valeurs ((completer [] (valeurs.filterMap livrable)).take MAX_LIVRABLES) where
  nombre := List.length_take_le _ _
  distincts := (nodup_completer List.nodup_nil _).sublist (List.take_sublist _ _)
  nonVides c hc hvide := by
    obtain ⟨s, hs⟩ := garde_of_mem hc
    exact hs.nonVide (by rw [← hs.chemin, hvide]; rfl)
  relatifs := h
  sansDeuxPoints c hc hmem := by
    obtain ⟨s, hs⟩ := garde_of_mem hc
    rw [hs.chemin] at hmem
    exact hs.sansDeuxPoints ((sansPoint_suffix _).subset hmem)
  sansRemontee c hc hmem := by
    obtain ⟨s, hs⟩ := garde_of_mem hc
    rw [hs.chemin] at hmem
    exact hs.sansRemontee (mem_splitOn_sansPoint hmem)
  ordre := by
    have hsub := completer_sublist [] (valeurs.filterMap livrable)
    rw [List.nil_append] at hsub
    exact (List.take_sublist _ _).trans hsub
  complet c hc := by
    have hmem : c ∈ completer [] (valeurs.filterMap livrable) := mem_completer.mpr (Or.inr hc)
    by_cases hlong : (completer [] (valeurs.filterMap livrable)).length ≤ MAX_LIVRABLES
    · rw [List.take_of_length_le hlong]
      exact Or.inl hmem
    · right
      rw [List.length_take]
      omega
  sous c hc := sous_of_relatif (h c hc)
  dessous c hc hparts := dessous_of_relatif (h c hc) hparts

end Liste

/-- The outputs are what they promise exactly when no element that is read before the list is full
hides a slash behind "./". -/
theorem livrables_surs_iff (brut : Json) :
    Surs (listes (some brut)) (livrables (some brut)) ↔ Tenue (listes (some brut)) := by
  rw [livrables_eq, ← relatifs_iff]
  exact ⟨Surs.relatifs, surs_of_relatifs⟩

/-- A file of the system among the outputs of a task. -/
theorem livrable_absolu :
    ¬Surs (listes (some (.tableau [.texte ".//etc/passwd"])))
      (livrables (some (.tableau [.texte ".//etc/passwd"]))) := by
  have hlivrables : livrables (some (.tableau [.texte ".//etc/passwd"])) = ["/etc/passwd"] := by
    decide +kernel
  intro h
  rw [hlivrables] at h
  exact h.relatifs "/etc/passwd" (List.mem_singleton_self _) (by decide +kernel)

structure Manifeste where
  declares : Nat
  manquants : List String
  nombreManquants : Nat
  tenu : Bool
  deriving DecidableEq

def MAX_CITES : Nat := 12

/-- The paths that the nodes of a mission declare. -/
def attendus (noeuds : List (List String)) : List String := noeuds.foldl completer []

/-- `verdict`, for a workspace that is a directory. -/
def verdict (existe : Chemin → Bool) (racine : Chemin) (noeuds : List (List String)) :
    Option Manifeste :=
  let attendus := attendus noeuds
  if attendus = [] then none
  else
    let manquants := attendus.filter fun chemin => !existe (racine.joindre (.lire chemin))
    some {
      declares := attendus.length
      manquants := manquants.take MAX_CITES
      nombreManquants := manquants.length
      tenu := manquants.isEmpty }

end Hermes.Planner.TaskDecomposer
