import Mathlib.Data.List.Basic
import Mathlib.Data.List.Infix

/-! # The numbering of what a filter keeps

Filtering a list gives its elements new indices. The rank of a position is the number of elements
kept before it, so it is the new index of an element that is kept.
-/

namespace Hermes.Lib.Rang

variable {α β : Type*} {p : α → Bool} {l : List α} {i j r : Nat} {a : α}

def rang (p : α → Bool) (l : List α) (i : Nat) : Nat := (l.take i).countP p

theorem rang_mono (h : i ≤ j) : rang p l i ≤ rang p l j := by
  have hprefixe : l.take i <+: l.take j := List.take_prefix_take_left h
  exact hprefixe.sublist.countP_le

theorem rang_succ (ha : l[i]? = some a) :
    rang p l (i + 1) = rang p l i + if p a = true then 1 else 0 := by
  rw [rang, rang, List.take_add_one, ha, Option.toList_some, List.countP_append,
    List.countP_singleton]

theorem rang_lt (hij : i < j) (ha : l[i]? = some a) (hp : p a = true) :
    rang p l i < rang p l j := by
  have hsuivant : rang p l (i + 1) = rang p l i + 1 := by rw [rang_succ ha, if_pos hp]
  have hmono : rang p l (i + 1) ≤ rang p l j := rang_mono hij
  omega

theorem rang_inj {b : α} (ha : l[i]? = some a) (hp : p a = true) (hb : l[j]? = some b)
    (hq : p b = true) (h : rang p l i = rang p l j) : i = j := by
  rcases Nat.lt_trichotomy i j with hij | hij | hij
  · have hlt : rang p l i < rang p l j := rang_lt hij ha hp
    omega
  · exact hij
  · have hlt : rang p l j < rang p l i := rang_lt hij hb hq
    omega

theorem exists_of_lt_rang (h : r < rang p l j) :
    ∃ i < j, ∃ a, l[i]? = some a ∧ p a = true ∧ rang p l i = r := by
  induction j with
  | zero => simp [rang] at h
  | succ j ih =>
      cases hj : l[j]? with
      | none =>
          have hfin : rang p l (j + 1) = rang p l j := by
            rw [rang, rang, List.take_add_one, hj, Option.toList_none, List.append_nil]
          obtain ⟨i, hi, hsuite⟩ := ih (hfin ▸ h)
          exact ⟨i, Nat.lt_succ_of_lt hi, hsuite⟩
      | some a =>
          rw [rang_succ hj] at h
          by_cases hr : r < rang p l j
          · obtain ⟨i, hi, hsuite⟩ := ih hr
            exact ⟨i, Nat.lt_succ_of_lt hi, hsuite⟩
          · split at h
            · next hp => exact ⟨j, Nat.lt_succ_self j, a, hj, hp, by omega⟩
            · omega

/-- One result for each element kept, made from the results before it. -/
def garder (p : α → Bool) (f : List β → α → β) (l : List α) : List β :=
  l.foldl (fun faits a => if p a then faits ++ [f faits a] else faits) []

theorem garder_concat (p : α → Bool) (f : List β → α → β) (l : List α) (a : α) :
    garder p f (l ++ [a]) =
      if p a then garder p f l ++ [f (garder p f l) a] else garder p f l := by
  rw [garder, List.foldl_append]
  rfl

theorem length_garder (p : α → Bool) (f : List β → α → β) (l : List α) :
    (garder p f l).length = l.countP p := by
  induction l using List.reverseRecOn with
  | nil => rfl
  | append_singleton l a ih =>
      rw [garder_concat, List.countP_append, List.countP_singleton]
      split
      · rw [List.length_append, ih, List.length_singleton]
      · rw [ih, Nat.add_zero]

theorem garder_prefix (p : α → Bool) (f : List β → α → β) (l suite : List α) :
    garder p f l <+: garder p f (l ++ suite) := by
  induction suite using List.reverseRecOn with
  | nil => rw [List.append_nil]
  | append_singleton suite a ih =>
      rw [← List.append_assoc, garder_concat]
      split
      · exact ih.trans (List.prefix_append _ _)
      · exact ih

theorem getElem?_garder (f : List β → α → β) (ha : l[i]? = some a) (hp : p a = true) :
    (garder p f l)[rang p l i]? = some (f (garder p f (l.take i)) a) := by
  have hpris : l.take (i + 1) = l.take i ++ [a] := by
    rw [List.take_add_one, ha, Option.toList_some]
  have hprefixe : garder p f (l.take (i + 1)) <+: garder p f l := by
    have h := garder_prefix p f (l.take (i + 1)) (l.drop (i + 1))
    rwa [List.take_append_drop] at h
  rw [hpris, garder_concat, if_pos hp] at hprefixe
  obtain ⟨suite, hsuite⟩ := hprefixe
  rw [← hsuite, rang, ← length_garder p f (l.take i), List.append_assoc,
    List.getElem?_append_right (Nat.le_refl _), Nat.sub_self]
  rfl

end Hermes.Lib.Rang
