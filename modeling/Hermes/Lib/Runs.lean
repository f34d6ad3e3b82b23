import Mathlib.Data.List.Induction

/-! # Runs of a partial step function

A system is a step function that answers the next state or `none` when the event is not enabled.
-/

namespace Hermes.Lib

variable {σ ε : Type*} {step : σ → ε → Option σ}

def run (step : σ → ε → Option σ) (s : σ) (events : List ε) : Option σ :=
  events.foldlM step s

@[simp] theorem run_nil (s : σ) : run step s [] = some s := rfl

@[simp] theorem run_cons (s : σ) (e : ε) (events : List ε) :
    run step s (e :: events) = (step s e).bind fun s' => run step s' events := rfl

theorem run_cons_eq_some {s s' : σ} {e : ε} {events : List ε} :
    run step s (e :: events) = some s' ↔
      ∃ middle, step s e = some middle ∧ run step middle events = some s' := by
  rw [run_cons, Option.bind_eq_some_iff]

theorem run_invariant {I : σ → Prop}
    (hstep : ∀ s e s', I s → step s e = some s' → I s') {s s' : σ} {events : List ε}
    (h : I s) (hrun : run step s events = some s') : I s' := by
  induction events generalizing s with
  | nil =>
      cases hrun
      exact h
  | cons e events ih =>
      obtain ⟨middle, he, hrest⟩ := run_cons_eq_some.mp hrun
      exact ih (hstep s e middle h he) hrest

/-- Every step the run takes satisfies `P` at the state before it. -/
def Along (step : σ → ε → Option σ) (P : σ → ε → Prop) : σ → List ε → Prop
  | _, [] => True
  | s, e :: events => ∀ s', step s e = some s' → P s e ∧ Along step P s' events

/-- Every state the run goes through satisfies `I`, the first one included. -/
def Always (step : σ → ε → Option σ) (I : σ → Prop) : σ → List ε → Prop
  | s, [] => I s
  | s, e :: events => I s ∧ ∀ s', step s e = some s' → Always step I s' events

theorem Always.head {I : σ → Prop} {s : σ} {events : List ε}
    (h : Always step I s events) : I s := by
  cases events with
  | nil => exact h
  | cons e events => exact h.1

theorem Always.mono {I J : σ → Prop} (himp : ∀ s, I s → J s) {s : σ} {events : List ε}
    (h : Always step I s events) : Always step J s events := by
  induction events generalizing s with
  | nil => exact himp s h
  | cons e events ih => exact ⟨himp s h.1, fun s' he => ih (h.2 s' he)⟩

theorem Always.run {I : σ → Prop} {s s' : σ} {events : List ε}
    (h : Always step I s events) (hrun : run step s events = some s') : I s' := by
  induction events generalizing s with
  | nil =>
      cases hrun
      exact h
  | cons e events ih =>
      obtain ⟨middle, he, hrest⟩ := run_cons_eq_some.mp hrun
      exact ih (h.2 middle he) hrest

theorem Along.cons {P : σ → ε → Prop} {s : σ} {e : ε} {events : List ε} (s' : σ)
    (he : step s e = some s') (hP : P s e) (h : Along step P s' events) :
    Along step P s (e :: events) := by
  intro s'' hs
  cases he.symm.trans hs
  exact ⟨hP, h⟩

theorem Along.after {P : σ → ε → Prop} {s middle s' : σ} {e : ε} {first rest : List ε}
    (h : Along step P s (first ++ e :: rest)) (hrun : run step s first = some middle)
    (he : step middle e = some s') : P middle e := by
  induction first generalizing s with
  | nil =>
      cases hrun
      exact (h s' he).1
  | cons e₀ first ih =>
      obtain ⟨next, he₀, hrest⟩ := run_cons_eq_some.mp hrun
      exact ih (h next he₀).2 hrest

theorem always_of_along {I : σ → Prop} {P : σ → ε → Prop}
    (hstep : ∀ s e s', I s → P s e → step s e = some s' → I s')
    {s : σ} {events : List ε} (h : I s) (hP : Along step P s events) :
    Always step I s events := by
  induction events generalizing s with
  | nil => exact h
  | cons e events ih =>
      refine ⟨h, fun s' he => ?_⟩
      obtain ⟨hPe, hrest⟩ := hP s' he
      exact ih (hstep s e s' h hPe he) hrest

theorem along_of_always {I : σ → Prop} {P : σ → ε → Prop}
    (hstep : ∀ s e s', I s → step s e = some s' → I s' → P s e)
    {s : σ} {events : List ε} (h : Always step I s events) : Along step P s events := by
  induction events generalizing s with
  | nil => trivial
  | cons e events ih =>
      intro s' he
      have hrest := h.2 s' he
      exact ⟨hstep s e s' h.head he hrest.head, ih hrest⟩

theorem along_of_invariant {I : σ → Prop} {P : σ → ε → Prop}
    (hstep : ∀ s e s', I s → step s e = some s' → I s' ∧ P s e) {s : σ} (h : I s)
    (events : List ε) : Along step P s events := by
  induction events generalizing s with
  | nil => trivial
  | cons e events ih =>
      intro s' he
      obtain ⟨hnext, hP⟩ := hstep s e s' h he
      exact ⟨hP, ih hnext⟩

/-- How many steps of the run meet `P` at the state before them. -/
def compter (step : σ → ε → Option σ) (P : σ → ε → Bool) : σ → List ε → Nat
  | _, [] => 0
  | s, e :: events =>
      match step s e with
      | none => 0
      | some s' => (if P s e then 1 else 0) + compter step P s' events

theorem compter_le {I : σ → Prop} {P : σ → ε → Bool} {reste : σ → Nat}
    (hstep : ∀ s e s', I s → step s e = some s' →
      I s' ∧ (if P s e then 1 else 0) + reste s' ≤ reste s) {s : σ} (h : I s)
    (events : List ε) : compter step P s events ≤ reste s := by
  induction events generalizing s with
  | nil => exact Nat.zero_le _
  | cons e events ih =>
      rw [compter]
      split
      · exact Nat.zero_le _
      · next s' he =>
          obtain ⟨hnext, hle⟩ := hstep s e s' h he
          have hrest := ih hnext
          omega

theorem along_congr {P Q : σ → ε → Prop}
    (hstep : ∀ s e s', step s e = some s' → (P s e ↔ Q s e)) (s : σ) (events : List ε) :
    Along step P s events ↔ Along step Q s events := by
  induction events generalizing s with
  | nil => exact Iff.rfl
  | cons e events ih =>
      constructor
      · intro h s' he
        exact ⟨(hstep s e s' he).mp (h s' he).1, (ih s').mp (h s' he).2⟩
      · intro h s' he
        exact ⟨(hstep s e s' he).mpr (h s' he).1, (ih s').mpr (h s' he).2⟩

end Hermes.Lib
