import Mathlib.Data.List.Sort
import Mathlib.Order.Defs.LinearOrder

/-! # Stable sorts

A stable sort of a list from which elements were taken out is the sort of the list without them,
for any total and transitive comparison, whatever elements it holds for equal.
-/

namespace Hermes.Lib

variable {α : Type*} {r : α → α → Prop} [DecidableRel r]

section Transitif

variable [IsTrans α r]

theorem filter_orderedInsert (p : α → Bool) (a : α) {l : List α} (h : l.Pairwise r) :
    (l.orderedInsert r a).filter p =
      if p a then (l.filter p).orderedInsert r a else l.filter p := by
  induction l with
  | nil => cases hp : p a <;> simp [hp]
  | cons b l ih =>
      have ih := ih h.of_cons
      by_cases hab : r a b
      · rw [List.orderedInsert_cons_of_le r l hab]
        cases hp : p a with
        | false => simp [hp]
        | true =>
            -- what follows the place of `a` is above it
            have habove : ∀ c ∈ (b :: l).filter p, r a c := by
              intro c hc
              rcases List.mem_cons.mp (List.mem_filter.mp hc).1 with rfl | hmem
              · exact hab
              · exact IsTrans.trans _ _ _ hab (List.rel_of_pairwise_cons h hmem)
            rw [List.filter_cons_of_pos hp, if_pos rfl]
            cases hfiltre : (b :: l).filter p with
            | nil => rfl
            | cons c suite =>
                rw [hfiltre] at habove
                rw [List.orderedInsert_cons_of_le r suite (habove c List.mem_cons_self)]
      · rw [List.orderedInsert_of_not_le r l hab]
        cases hp : p b with
        | false =>
            rw [List.filter_cons_of_neg (by simp [hp]), List.filter_cons_of_neg (by simp [hp])]
            exact ih
        | true =>
            rw [List.filter_cons_of_pos hp, List.filter_cons_of_pos hp, ih]
            cases hpa : p a with
            | false => simp
            | true => simp [hab]

end Transitif

theorem filter_insertionSort [IsTrans α r] [Std.Total r] (p : α → Bool) (l : List α) :
    (l.insertionSort r).filter p = (l.filter p).insertionSort r := by
  induction l with
  | nil => rfl
  | cons a l ih =>
      rw [List.insertionSort_cons, filter_orderedInsert p a (List.pairwise_insertionSort r l), ih]
      cases hp : p a with
      | false => simp [hp]
      | true => simp [hp]

section Premiers

variable {a b : α} {l : List α}

theorem pairwise_mergeSort_stable {le : α → α → Bool}
    (htrans : ∀ a b c, le a b = true → le b c = true → le a c = true)
    (htotal : ∀ a b, (le a b || le b a) = true) {avant : α → α → Prop} (hl : l.Pairwise avant) :
    (l.mergeSort le).Pairwise fun a b => le a b = true ∧ (le b a = true → avant a b) := by
  induction l with
  | nil => simp
  | cons a l ih =>
      obtain ⟨l₁, l₂, hsort, hreste, hdevant⟩ := List.mergeSort_cons htrans htotal a l
      have hrec := ih hl.of_cons
      have htries := List.pairwise_mergeSort htrans htotal (a :: l)
      rw [hsort] at htries ⊢
      rw [hreste] at hrec
      obtain ⟨h₁, h₂, h₁₂⟩ := List.pairwise_append.mp hrec
      refine List.pairwise_append.mpr ⟨h₁, List.pairwise_cons.mpr ⟨?_, h₂⟩, ?_⟩
      · intro c hc
        have htrie : c ∈ l.mergeSort le := by
          rw [hreste]
          exact List.mem_append_right l₁ hc
        have hmem : c ∈ l := List.mem_mergeSort.mp htrie
        have hac := (List.pairwise_cons.mp (List.pairwise_append.mp htries).2.1).1 c hc
        exact ⟨hac, fun _ => (List.pairwise_cons.mp hl).1 c hmem⟩
      · intro b hb c hc
        rcases List.mem_cons.mp hc with rfl | hc
        · -- what stands before the new head is strictly below it
          have hne : le c b = false := by simpa using hdevant b hb
          have hbc : le b c = true := by simpa [hne] using htotal b c
          exact ⟨hbc, fun h => by rw [hne] at h; cases h⟩
        · exact h₁₂ b hb c hc

theorem pair_sublist_or (ha : a ∈ l) (hb : b ∈ l) (hne : a ≠ b) :
    [a, b].Sublist l ∨ [b, a].Sublist l := by
  induction l with
  | nil => cases ha
  | cons c l ih =>
      rcases List.mem_cons.mp ha with rfl | hal
      · have hbl : b ∈ l := (List.mem_cons.mp hb).resolve_left (Ne.symm hne)
        exact .inl ((List.singleton_sublist.mpr hbl).cons_cons a)
      · rcases List.mem_cons.mp hb with rfl | hbl
        · exact .inr ((List.singleton_sublist.mpr hal).cons_cons b)
        · rcases ih hal hbl with h | h
          · exact .inl (h.cons c)
          · exact .inr (h.cons c)

theorem pair_sublist_iff {avant : α → α → Prop} (hl : l.Pairwise avant)
    (hasymm : ∀ a b, avant a b → ¬avant b a) (ha : a ∈ l) (hb : b ∈ l) (hne : a ≠ b) :
    [a, b].Sublist l ↔ avant a b := by
  have hpair : ∀ {x y}, [x, y].Sublist l → avant x y := fun h =>
    List.pairwise_pair.mp (hl.sublist h)
  refine ⟨hpair, fun hab => ?_⟩
  exact (pair_sublist_or ha hb hne).resolve_right fun h => hasymm a b hab (hpair h)

end Premiers

end Hermes.Lib
