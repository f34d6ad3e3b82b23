import Hermes.Lib.Dict
import Mathlib.Data.List.Induction
import Mathlib.Data.Set.Function

/-! # A table reached through a key

Values are given to elements, taken back from them and read, and they expire.
-/

namespace Hermes.Lib.Cles

inductive Geste (τ ν : Type*) where
  | donner (t : τ) (v : ν)
  | retirer (t : τ)
  | lire (t : τ)

abbrev Histoire (τ ν : Type*) := List (Int × Geste τ ν)

def Croissante {τ ν : Type*} (h : Histoire τ ν) : Prop := (h.map Prod.fst).Pairwise (· ≤ ·)

namespace Geste

variable {τ ν : Type*}

def element : Geste τ ν → τ
  | donner t _ => t
  | retirer t => t
  | lire t => t

def Touche (t : τ) : Geste τ ν → Prop
  | donner t' _ => t' = t
  | retirer t' => t' = t
  | lire _ => False

end Geste

section Derniere

variable {τ ν : Type*} [DecidableEq τ]

def suivante (t : τ) (o : Option ν) : Geste τ ν → Option ν
  | .donner t' v => if t' = t then some v else o
  | .retirer t' => if t' = t then none else o
  | .lire _ => o

def derniere (h : Histoire τ ν) (t : τ) : Option ν :=
  h.foldl (fun o e => suivante t o e.2) none

theorem derniere_concat (h : Histoire τ ν) (e : Int × Geste τ ν) (t : τ) :
    derniere (h ++ [e]) t = suivante t (derniere h t) e.2 := by
  rw [derniere, List.foldl_append]
  rfl

theorem suivante_of_not_touche {t : τ} {g : Geste τ ν} (h : ¬g.Touche t) (o : Option ν) :
    suivante t o g = o := by
  cases g with
  | donner t' v => exact if_neg h
  | retirer t' => exact if_neg h
  | lire t' => rfl

theorem derniere_eq_some_iff {h : Histoire τ ν} {t : τ} {v : ν} :
    derniere h t = some v ↔ ∃ avant date apres, h = avant ++ (date, .donner t v) :: apres ∧
      ∀ e ∈ apres, ¬e.2.Touche t := by
  constructor
  · intro hv
    induction h using List.reverseRecOn with
    | nil => cases hv
    | append_singleton h e ih =>
        rw [derniere_concat] at hv
        by_cases htouche : e.2.Touche t
        · obtain ⟨date, g⟩ := e
          cases g with
          | donner t' v' =>
              cases htouche
              rw [suivante, if_pos rfl] at hv
              cases hv
              exact ⟨h, date, [], rfl, by simp⟩
          | retirer t' =>
              cases htouche
              rw [suivante, if_pos rfl] at hv
              cases hv
          | lire t' => exact htouche.elim
        · rw [suivante_of_not_touche htouche] at hv
          obtain ⟨avant, date, apres, rfl, hapres⟩ := ih hv
          refine ⟨avant, date, apres ++ [e], by simp, ?_⟩
          intro e' he'
          cases List.mem_append.mp he' with
          | inl he' => exact hapres e' he'
          | inr he' =>
              rw [List.mem_singleton.mp he']
              exact htouche
  · intro ⟨avant, date, apres, hh, hapres⟩
    rw [hh]
    clear hh
    induction apres using List.reverseRecOn with
    | nil =>
        rw [derniere_concat]
        exact if_pos rfl
    | append_singleton apres e ih =>
        rw [← List.cons_append, ← List.append_assoc, derniere_concat,
          suivante_of_not_touche (hapres e (by simp))]
        exact ih fun e' he' => hapres e' (List.mem_append_left _ he')

end Derniere

section Table

variable {τ κ ν : Type*} [DecidableEq τ] [DecidableEq κ]
variable (cle : τ → κ) (perime : Int → ν → Bool)

def executer (date : Int) (m : Dict κ ν) : Geste τ ν → Dict κ ν × Option ν
  | .donner t v => (m.set (cle t) v, none)
  | .retirer t => (m.erase (cle t), none)
  | .lire t =>
      match m.get? (cle t) with
      | none => (m, none)
      | some v => if perime date v then (m.erase (cle t), none) else (m, some v)

def apres (h : Histoire τ ν) : Dict κ ν :=
  h.foldl (fun m e => (executer cle perime e.1 m e.2).1) []

omit [DecidableEq τ] in
theorem apres_concat (h : Histoire τ ν) (e : Int × Geste τ ν) :
    apres cle perime (h ++ [e]) = (executer cle perime e.1 (apres cle perime h) e.2).1 := by
  rw [apres, List.foldl_append]
  rfl

/-- The table holds what the element holds, or it has dropped what has expired. -/
def Reflet (date : Int) (h : Histoire τ ν) (m : Dict κ ν) (t : τ) : Prop :=
  m.get? (cle t) = derniere h t ∨
    m.get? (cle t) = none ∧ ∃ v, derniere h t = some v ∧ perime date v = true

variable {cle perime} {S : Set τ} {h : Histoire τ ν} {m : Dict κ ν} {t : τ} {date : Int}

theorem Reflet.mono (hperime : ∀ v a b, a ≤ b → perime a v = true → perime b v = true)
    (hr : Reflet cle perime date h m t) {date' : Int} (hle : date ≤ date') :
    Reflet cle perime date' h m t := by
  cases hr with
  | inl hr => exact Or.inl hr
  | inr hr =>
      obtain ⟨hnone, v, hv, hexpire⟩ := hr
      exact Or.inr ⟨hnone, v, hv, hperime v _ _ hle hexpire⟩

theorem Reflet.lire (hr : Reflet cle perime date h m t) :
    (executer cle perime date m (.lire t)).2 = (derniere h t).filter (!perime date ·) := by
  cases hr with
  | inl hr =>
      rw [executer, hr]
      cases derniere h t with
      | none => rfl
      | some v => cases hv : perime date v <;> simp [hv, Option.filter_some]
  | inr hr =>
      obtain ⟨hnone, v, hv, hexpire⟩ := hr
      rw [executer, hnone, hv]
      simp [hexpire, Option.filter_some]

theorem Reflet.executer (hr : Reflet cle perime date h m t) (g : Geste τ ν)
    (hcle : cle g.element = cle t → g.element = t) :
    Reflet cle perime date (h ++ [(date, g)]) (executer cle perime date m g).1 t := by
  unfold Reflet
  rw [derniere_concat]
  by_cases heq : g.element = t
  · cases g with
    | donner t' v =>
        obtain rfl : t' = t := heq
        left
        rw [suivante, if_pos rfl, Cles.executer, Dict.get?_set_self]
    | retirer t' =>
        obtain rfl : t' = t := heq
        left
        rw [suivante, if_pos rfl, Cles.executer, Dict.get?_erase, if_pos rfl]
    | lire t' =>
        obtain rfl : t' = t := heq
        cases hget : m.get? (cle t') with
        | none =>
            have hvide : Cles.executer cle perime date m (.lire t') = (m, none) := by
              rw [Cles.executer, hget]
            rw [hvide]
            exact hr
        | some v =>
            have hv : derniere h t' = some v := by
              cases hr with
              | inl hr => rw [← hr, hget]
              | inr hr => cases hget.symm.trans hr.1
            by_cases hexpire : perime date v = true
            · have hote : Cles.executer cle perime date m (.lire t') = (m.erase (cle t'), none) := by
                rw [Cles.executer, hget]
                exact if_pos hexpire
              rw [hote, Dict.get?_erase, if_pos rfl]
              exact Or.inr ⟨rfl, v, hv, hexpire⟩
            · have hgarde : Cles.executer cle perime date m (.lire t') = (m, some v) := by
                rw [Cles.executer, hget]
                exact if_neg hexpire
              rw [hgarde]
              exact hr
  · have hne : cle t ≠ cle g.element := fun h => heq (hcle h.symm)
    have hget : (Cles.executer cle perime date m g).1.get? (cle t) = m.get? (cle t) := by
      cases g with
      | donner t' v =>
          rw [Cles.executer, Dict.get?_set]
          exact if_neg hne
      | retirer t' =>
          rw [Cles.executer, Dict.get?_erase]
          exact if_neg hne
      | lire t' =>
          cases hlu : m.get? (cle t') with
          | none => rw [Cles.executer, hlu]
          | some v =>
              rw [Cles.executer, hlu]
              cases hexpire : perime date v with
              | true =>
                  simp only [hexpire, if_true]
                  rw [Dict.get?_erase]
                  exact if_neg hne
              | false => simp [hexpire]
    have htouche : ¬g.Touche t := by
      cases g with
      | donner t' v => exact heq
      | retirer t' => exact heq
      | lire t' => exact fun h => h
    rw [hget, suivante_of_not_touche htouche]
    exact hr

theorem reflet_apres (hperime : ∀ v a b, a ≤ b → perime a v = true → perime b v = true)
    (hinj : Set.InjOn cle S) (hS : ∀ e ∈ h, e.2.element ∈ S) (hcroit : Croissante h) (ht : t ∈ S)
    (hdate : ∀ e ∈ h, e.1 ≤ date) : Reflet cle perime date h (apres cle perime h) t := by
  induction h using List.reverseRecOn generalizing date with
  | nil => exact Or.inl rfl
  | append_singleton h e ih =>
      rw [Croissante, List.map_append, List.pairwise_append] at hcroit
      have havant : ∀ e' ∈ h, e'.1 ≤ e.1 := fun e' he' =>
        hcroit.2.2 _ (List.mem_map_of_mem he') _ (by simp)
      have hr := ih (fun e' he' => hS e' (List.mem_append_left _ he')) hcroit.1 havant
      rw [apres_concat]
      have hstep := hr.executer e.2 fun heq => hinj (hS e (by simp)) ht heq
      exact hstep.mono hperime (hdate e (by simp))

end Table

end Hermes.Lib.Cles
