import Mathlib.Order.Basic
import Mathlib.Data.Nat.Init

/-! # A loop that turns at least once

Each turn either leaves the loop with a value or hands a state to the next one.
-/

namespace Hermes.Lib.Tours

inductive Tour (σ ρ : Type*) where
  | encore (s : σ)
  | fin (v : ρ)

variable {σ ρ : Type*} (tour : Nat → σ → Tour σ ρ)

/-- What the loop is left with, if it is left within `n` turns, the first being turn `k`. -/
def boucler : Nat → Nat → σ → Option ρ
  | 0, _, _ => none
  | n + 1, k, s =>
      match tour k s with
      | .fin v => some v
      | .encore s' => boucler n (k + 1) s'

/-- The state in which turn `k` is taken, if it is. -/
def avant (s : σ) : Nat → Option σ
  | 0 => some s
  | k + 1 =>
      match avant s k with
      | none => none
      | some s' =>
          match tour k s' with
          | .fin _ => none
          | .encore s'' => some s''

variable {tour} {s s' s'' : σ} {n k : Nat}

theorem avant_succ (h : avant tour s k = some s') (hencore : tour k s' = .encore s'') :
    avant tour s (k + 1) = some s'' := by
  rw [avant, h]
  simp only [hencore]

theorem avant_succ_eq_some (h : avant tour s (k + 1) = some s'') :
    ∃ s', avant tour s k = some s' ∧ tour k s' = .encore s'' := by
  rw [avant] at h
  split at h
  · cases h
  · next s' hs' =>
      split at h
      · cases h
      · next hencore =>
          cases h
          exact ⟨s', hs', hencore⟩

theorem boucler_avant (h : avant tour s k = some s') (n : Nat) :
    boucler tour (k + n) 0 s = boucler tour n k s' := by
  induction k generalizing s' n with
  | zero =>
      cases h
      rw [Nat.zero_add]
  | succ k ih =>
      obtain ⟨middle, hmiddle, hencore⟩ := avant_succ_eq_some h
      have hfrom := ih hmiddle (n + 1)
      rw [Nat.add_right_comm, ← Nat.add_assoc] at *
      rw [hfrom, boucler, hencore]

theorem boucler_of_fin {v : ρ} (h : avant tour s k = some s') (hfin : tour k s' = .fin v)
    (hk : k < n) : boucler tour n 0 s = some v := by
  obtain ⟨m, rfl⟩ := Nat.exists_eq_add_of_lt hk
  have hfrom := boucler_avant h (m + 1)
  rw [Nat.add_assoc, hfrom, boucler, hfin]

theorem fin_of_avant_eq_none (h : avant tour s n = none) :
    ∃ k < n, ∃ s' v, avant tour s k = some s' ∧ tour k s' = .fin v := by
  induction n with
  | zero => cases h
  | succ n ih =>
      cases hn : avant tour s n with
      | none =>
          obtain ⟨k, hk, hleft⟩ := ih hn
          exact ⟨k, by omega, hleft⟩
      | some s' =>
          cases htour : tour n s' with
          | fin v => exact ⟨n, by omega, s', v, hn, htour⟩
          | encore s'' =>
              rw [avant_succ hn htour] at h
              cases h

theorem boucler_eq_none_iff : boucler tour n 0 s = none ↔ ∃ s', avant tour s n = some s' := by
  constructor
  · intro hloop
    cases hn : avant tour s n with
    | some s' => exact ⟨s', rfl⟩
    | none =>
        obtain ⟨k, hk, s', v, hs', hfin⟩ := fin_of_avant_eq_none hn
        rw [boucler_of_fin hs' hfin hk] at hloop
        cases hloop
  · intro hn
    obtain ⟨s', hs'⟩ := hn
    exact boucler_avant hs' 0

theorem boucler_finit {I : Nat → σ → Prop} (h : I 0 s)
    (hstep : ∀ k < n, ∀ s₁ s₂, avant tour s k = some s₁ → I k s₁ → tour k s₁ = .encore s₂ →
      I (k + 1) s₂)
    (hfin : ∀ s₁, ¬ I n s₁) : ∃ v, boucler tour n 0 s = some v := by
  have hinv : ∀ k ≤ n, ∀ s₁, avant tour s k = some s₁ → I k s₁ := by
    intro k
    induction k with
    | zero =>
        intro _ s₁ hs₁
        cases hs₁
        exact h
    | succ k ih =>
        intro hk s₁ hs₁
        obtain ⟨middle, hmiddle, hencore⟩ := avant_succ_eq_some hs₁
        exact hstep k hk middle s₁ hmiddle (ih (by omega) middle hmiddle) hencore
  cases hloop : boucler tour n 0 s with
  | some v => exact ⟨v, rfl⟩
  | none =>
      obtain ⟨s₁, hs₁⟩ := boucler_eq_none_iff.mp hloop
      exact absurd (hinv n (Nat.le_refl n) s₁ hs₁) (hfin s₁)

theorem avant_persiste {L : σ → Prop} (h : avant tour s k = some s') (hL : L s') (hk : k ≤ n)
    (hstep : ∀ j, k ≤ j → j < n → ∀ s₁, avant tour s j = some s₁ → L s₁ →
      ∃ s₂, tour j s₁ = .encore s₂ ∧ L s₂) :
    ∃ s₁, avant tour s n = some s₁ ∧ L s₁ := by
  induction n, hk using Nat.le_induction with
  | base => exact ⟨s', h, hL⟩
  | succ n hkn ih =>
      obtain ⟨s₁, hs₁, hL₁⟩ := ih fun j hkj hjn => hstep j hkj (by omega)
      obtain ⟨s₂, hencore, hL₂⟩ := hstep n hkn (by omega) s₁ hs₁ hL₁
      exact ⟨s₂, avant_succ hs₁ hencore, hL₂⟩

end Hermes.Lib.Tours
