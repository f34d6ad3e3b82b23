import Hermes.Lib.Dict
import Mathlib.Data.Finset.Card
import Mathlib.Data.Multiset.Filter

/-! # Secondary indexes

A table under a primary key, and for each value of an attribute the set of the keys whose row
carries it.
-/

namespace Hermes.Lib.Index

variable {κ ρ α : Type*} [DecidableEq κ] {lignes : Dict κ ρ} {porte : ρ → α → Prop}
  {index index' : α → Finset κ}

/-- `index a` holds the keys of the rows that carry `a`, and no others. -/
def Juste (lignes : Dict κ ρ) (porte : ρ → α → Prop) (index : α → Finset κ) : Prop :=
  ∀ k a, k ∈ index a ↔ ∃ r, lignes.get? k = some r ∧ porte r a

/-- `[lignes[k] for k in index if k in lignes]`, the order of a set being the interpreter's. -/
def lister (lignes : Dict κ ρ) (index : Finset κ) : Multiset ρ := index.val.filterMap lignes.get?

theorem mem_lister {cles : Finset κ} {r : ρ} :
    r ∈ lister lignes cles ↔ ∃ k ∈ cles, lignes.get? k = some r := by
  simp [lister, Multiset.mem_filterMap]

theorem juste_nil : Juste ([] : Dict κ ρ) porte fun _ => ∅ := by
  intro k a
  simp [Dict.get?]

theorem Juste.set (h : Juste lignes porte index) {k : κ} {r : ρ}
    (hancien : ∀ ancien, lignes.get? k = some ancien → ∀ a, porte ancien a → porte r a)
    (hindex : ∀ k' a, k' ∈ index' a ↔ k' ∈ index a ∨ k' = k ∧ porte r a) :
    Juste (lignes.set k r) porte index' := by
  intro k' a
  rw [hindex, h k' a, Dict.get?_set]
  by_cases hk : k' = k
  · subst hk
    constructor
    · rintro (⟨ancien, hget, hporte⟩ | ⟨-, hporte⟩)
      · exact ⟨r, by simp, hancien ancien hget a hporte⟩
      · exact ⟨r, by simp, hporte⟩
    · rintro ⟨r', hr', hporte⟩
      obtain rfl : r = r' := by simpa using hr'
      exact Or.inr ⟨rfl, hporte⟩
  · simp [hk]

theorem Juste.erase (h : Juste lignes porte index) {k : κ} {r : ρ} (hget : lignes.get? k = some r)
    (hindex : ∀ k' a, k' ∈ index' a ↔ k' ∈ index a ∧ ¬ (k' = k ∧ porte r a)) :
    Juste (lignes.erase k) porte index' := by
  intro k' a
  rw [hindex, h k' a, Dict.get?_erase]
  by_cases hk : k' = k
  · subst hk
    simp [hget]
  · simp [hk]

theorem Juste.card_lister (h : Juste lignes porte index) (a : α) :
    Multiset.card (lister lignes (index a)) = (index a).card := by
  have hsome : ∀ k ∈ (index a).val, (lignes.get? k).isSome := by
    intro k hk
    obtain ⟨r, hr, -⟩ := (h k a).mp hk
    rw [hr]
    rfl
  rw [Finset.card_def, lister]
  generalize (index a).val = cles at hsome
  induction cles using Multiset.induction_on with
  | empty => rfl
  | cons k cles ih =>
      obtain ⟨r, hr⟩ := Option.isSome_iff_exists.mp (hsome k (Multiset.mem_cons_self k cles))
      rw [Multiset.filterMap_cons_some _ _ _ hr, Multiset.card_cons, Multiset.card_cons,
        ih fun k' hk' => hsome k' (Multiset.mem_cons_of_mem hk')]

theorem Juste.lister_eq (h : Juste lignes porte index) (hcles : lignes.keys.Nodup) (a : α)
    [DecidablePred fun r => porte r a] :
    lister lignes (index a) =
      ((lignes.map Prod.snd).filter fun r => decide (porte r a) : List ρ) := by
  have hindex : (index a).val =
      (lignes.keys.filter fun k => (lignes.get? k).any fun r => porte r a : List κ) := by
    apply Multiset.Nodup.ext (index a).nodup (Multiset.coe_nodup.mpr (hcles.filter _)) |>.mpr
    intro k
    rw [Finset.mem_val, h k a, Multiset.mem_coe, List.mem_filter]
    constructor
    · rintro ⟨r, hr, hporte⟩
      exact ⟨Dict.isSome_get?.mp (by simp [hr]), by simp [hr, hporte]⟩
    · rintro ⟨-, hany⟩
      obtain ⟨r, hr, hporte⟩ := (Option.any_eq_true _ _).mp hany
      exact ⟨r, hr, of_decide_eq_true hporte⟩
  rw [lister, hindex, Multiset.filterMap_coe, Dict.keys, List.filter_map, List.filterMap_map,
    List.filter_map]
  congr 1
  rw [← List.filterMap_eq_map, List.filterMap_filter, List.filterMap_filter]
  apply List.filterMap_congr
  intro item hitem
  have hget : lignes.get? item.1 = some item.2 := Dict.get?_of_mem hcles hitem
  simp [hget]

theorem Juste.garde (h : Juste lignes porte index) {k : κ} {ancien r : ρ} {a : α}
    (hget : lignes.get? k = some ancien) (hancien : porte ancien a)
    {cles : Finset κ} (hcles : ∀ k' ∈ index a, k' ∈ cles) {reponse : Multiset ρ}
    (hreponse : ∀ r ∈ reponse, porte r a) (heq : lister (lignes.set k r) cles = reponse) :
    porte r a := by
  have hk : k ∈ cles := hcles k ((h k a).mpr ⟨ancien, hget, hancien⟩)
  exact hreponse r (heq ▸ mem_lister.mpr ⟨k, hk, by simp⟩)

end Hermes.Lib.Index
