import Mathlib.Data.List.Infix
import Mathlib.Data.List.Nodup

/-! # Lists completed without repetition

The elements of a list are added one after the other at the end of another list, those that it
already holds left out.
-/

namespace Hermes.Lib.Distincts

variable {α : Type*} [DecidableEq α]

def completer (vus l : List α) : List α :=
  l.foldl (fun vus x => if x ∈ vus then vus else vus ++ [x]) vus

variable {vus l : List α} {x : α}

@[simp] theorem completer_nil (vus : List α) : completer vus [] = vus := rfl

theorem completer_append (vus l l' : List α) :
    completer vus (l ++ l') = completer (completer vus l) l' :=
  List.foldl_append

theorem completer_concat (vus l : List α) (x : α) :
    completer vus (l ++ [x]) =
      if x ∈ completer vus l then completer vus l else completer vus l ++ [x] :=
  completer_append vus l [x]

theorem completer_cons (vus l : List α) (x : α) :
    completer vus (x :: l) = completer (if x ∈ vus then vus else vus ++ [x]) l := rfl

theorem nodup_completer (h : vus.Nodup) (l : List α) : (completer vus l).Nodup := by
  induction l generalizing vus with
  | nil => exact h
  | cons y l ih =>
      rw [completer_cons]
      split
      · exact ih h
      · next hy =>
          have hconcat := h.concat hy
          rw [List.concat_eq_append] at hconcat
          exact ih hconcat

theorem mem_completer : x ∈ completer vus l ↔ x ∈ vus ∨ x ∈ l := by
  induction l generalizing vus with
  | nil => simp
  | cons y l ih =>
      rw [completer_cons, ih, List.mem_cons]
      split
      · next hy =>
          constructor
          · intro h
            exact h.imp_right Or.inr
          · intro h
            cases h with
            | inl h => exact Or.inl h
            | inr h =>
                cases h with
                | inl h => exact Or.inl (h ▸ hy)
                | inr h => exact Or.inr h
      · rw [List.mem_append, List.mem_singleton, or_assoc]

theorem prefix_completer (vus l : List α) : vus <+: completer vus l := by
  induction l generalizing vus with
  | nil => exact List.prefix_rfl
  | cons y l ih =>
      rw [completer_cons]
      split
      · exact ih vus
      · exact (List.prefix_append vus [y]).trans (ih _)

theorem completer_sublist (vus l : List α) : (completer vus l).Sublist (vus ++ l) := by
  induction l generalizing vus with
  | nil => simp
  | cons y l ih =>
      rw [completer_cons]
      split
      · exact (ih vus).trans ((List.sublist_cons_self y l).append_left vus)
      · have h := ih (vus ++ [y])
        rwa [List.append_assoc, List.singleton_append] at h

theorem mem_take_completer (n : Nat) :
    x ∈ (completer [] l).take n ↔
      ∃ avant apres, l = avant ++ x :: apres ∧ (completer [] avant).length < n := by
  constructor
  · intro h
    induction l using List.reverseRecOn with
    | nil => simp at h
    | append_singleton l y ih =>
        rw [completer_concat] at h
        split at h
        · obtain ⟨avant, apres, hl, hlong⟩ := ih h
          exact ⟨avant, apres ++ [y], by rw [hl]; simp, hlong⟩
        · rw [List.take_append, List.mem_append] at h
          cases h with
          | inl h =>
              obtain ⟨avant, apres, hl, hlong⟩ := ih h
              exact ⟨avant, apres ++ [y], by rw [hl]; simp, hlong⟩
          | inr h =>
              have hlong : (completer [] l).length < n := by
                by_contra hn
                rw [Nat.sub_eq_zero_of_le (Nat.le_of_not_lt hn), List.take_zero] at h
                exact List.not_mem_nil h
              have hy : x = y := List.mem_singleton.mp (List.mem_of_mem_take h)
              exact ⟨l, [], by rw [hy], hlong⟩
  · intro ⟨avant, apres, hl, hlong⟩
    have hpre : completer [] (avant ++ [x]) <+: completer [] l := by
      have h := prefix_completer (completer [] (avant ++ [x])) apres
      rwa [← completer_append, ← List.append_cons, ← hl] at h
    have hmem : x ∈ (completer [] (avant ++ [x])).take n := by
      rw [completer_concat]
      split
      · next hx =>
          rw [List.take_of_length_le hlong.le]
          exact hx
      · rw [List.take_of_length_le (by rw [List.length_append]; exact hlong)]
        exact List.mem_append_right _ (List.mem_singleton_self x)
    exact (List.IsPrefix.take hpre n).subset hmem

end Hermes.Lib.Distincts
