import Mathlib.Data.List.DropRight
import Mathlib.Data.List.Infix

/-! # Searching a stream through a bounded carry-over

The stream comes in blocks and only its last `n` elements are kept from one block to the next.
-/

namespace Hermes.Lib.Fenetre

variable {α : Type*} {n : Nat} {motif : List α}

theorem rtake_rtake_append (n : Nat) (u v : List α) :
    (u.rtake n ++ v).rtake n = (u ++ v).rtake n := by
  unfold List.rtake
  have hlongueur : (u.drop (u.length - n) ++ v).length = min u.length n + v.length := by
    rw [List.length_append, List.length_drop]
    omega
  rw [hlongueur, List.length_append, List.drop_append, List.drop_append, List.drop_drop,
    List.length_drop]
  congr 2
  · omega
  · omega

theorem rtake_suffix (n : Nat) (u : List α) : u.rtake n <:+ u := List.drop_suffix _ u

theorem infix_append_iff (hmotif : motif.length ≤ n) (u v : List α) :
    motif <:+: u ++ v ↔ motif <:+: u ∨ motif <:+: u.rtake n ++ v := by
  constructor
  · intro h
    obtain ⟨avant, apres, hdecoupe⟩ := h
    by_cases hfin : (avant ++ motif).length ≤ u.length
    · left
      have hprefixe : avant ++ motif <+: u := by
        refine List.prefix_of_prefix_length_le ?_ (List.prefix_append u v) hfin
        exact ⟨apres, hdecoupe⟩
      exact (List.suffix_append avant motif).isInfix.trans hprefixe.isInfix
    · right
      rw [List.length_append] at hfin
      have hu : u.length - n ≤ u.length := Nat.sub_le u.length n
      have havant : u.length - n ≤ avant.length := by omega
      have hreste : u.rtake n ++ v = avant.drop (u.length - n) ++ motif ++ apres := by
        calc u.rtake n ++ v = (u ++ v).drop (u.length - n) := by
              rw [List.drop_append_of_le_length hu, List.rtake]
          _ = (avant ++ motif ++ apres).drop (u.length - n) := by rw [hdecoupe]
          _ = avant.drop (u.length - n) ++ motif ++ apres := by
              rw [List.append_assoc, List.drop_append_of_le_length havant, List.append_assoc]
      exact ⟨avant.drop (u.length - n), apres, hreste.symm⟩
  · intro h
    cases h with
    | inl h => exact h.trans (List.prefix_append u v).isInfix
    | inr h =>
        refine h.trans ?_
        obtain ⟨debut, hdebut⟩ := rtake_suffix n u
        exact ⟨debut, [], by rw [← List.append_assoc, hdebut, List.append_nil]⟩

end Hermes.Lib.Fenetre
