import Mathlib.Data.List.Basic

/-! # Fields joined by a separator

Two pairs of fields joined by a separator are one text when they are one pair, or when one of them
runs over the other: nothing else.
-/

namespace Hermes.Lib.Champs

variable {α : Type*} {s : α} {a b c d : List α}

/-- One pair of fields runs over the other: what its first field has more, separator included, is
what its second field has less. -/
def Deborde (s : α) (a b c d : List α) : Prop := ∃ x, c = a ++ s :: x ∧ b = x ++ s :: d

theorem champs_eq_iff :
    a ++ s :: b = c ++ s :: d ↔ (a = c ∧ b = d) ∨ Deborde s a b c d ∨ Deborde s c d a b := by
  constructor
  · intro h
    rcases List.append_eq_append_iff.mp h with ⟨x, hc, hb⟩ | ⟨x, ha, hd⟩
    · cases x with
      | nil =>
          rw [List.append_nil] at hc
          exact .inl ⟨hc.symm, (List.cons.inj hb).2⟩
      | cons y x =>
          obtain ⟨rfl, hreste⟩ := List.cons.inj hb
          exact .inr (.inl ⟨x, hc, hreste⟩)
    · cases x with
      | nil =>
          rw [List.append_nil] at ha
          exact .inl ⟨ha, (List.cons.inj hd).2.symm⟩
      | cons y x =>
          obtain ⟨rfl, hreste⟩ := List.cons.inj hd
          exact .inr (.inr ⟨x, ha, hreste⟩)
  · rintro (⟨rfl, rfl⟩ | ⟨x, rfl, rfl⟩ | ⟨x, rfl, rfl⟩)
    · rfl
    · simp
    · simp

theorem Deborde.ne (h : Deborde s a b c d) : a ≠ c := by
  obtain ⟨x, rfl, -⟩ := h
  intro heq
  have hlength := congrArg List.length heq
  simp at hlength

theorem dernier_eq_iff {e f : List α} (he : s ∉ e) (hf : s ∉ f) :
    a ++ s :: e = b ++ s :: f ↔ a = b ∧ e = f := by
  rw [champs_eq_iff]
  constructor
  · rintro (h | ⟨x, -, rfl⟩ | ⟨x, -, rfl⟩)
    · exact h
    · exact absurd (by simp) he
    · exact absurd (by simp) hf
  · exact .inl

end Hermes.Lib.Champs
