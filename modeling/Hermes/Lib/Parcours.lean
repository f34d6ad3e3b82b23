import Mathlib.Algebra.GroupWithZero.Nat
import Mathlib.Data.List.Nodup
import Mathlib.Data.List.Dedup
import Mathlib.Logic.Relation

/-! # Depth-first search with a stack

The search pops a vertex, skips it when it is known or set aside, and otherwise visits it and
pushes its successors.
-/

namespace Hermes.Lib.Parcours

variable {α : Type*} [DecidableEq α]

def parcourir (suivants : α → List α) (ecartes : List α) : Nat → List α → List α → List α
  | 0, _, vus => vus
  | _ + 1, [], vus => vus
  | n + 1, s :: pile, vus =>
      if s ∈ vus ∨ s ∈ ecartes then parcourir suivants ecartes n pile vus
      else
        parcourir suivants ecartes n
          (((suivants s).filter fun d => d ∉ s :: vus ∧ d ∉ ecartes).reverse ++ pile) (s :: vus)

/-- The edges out of the vertices that are still to visit. -/
def restant (suivants : α → List α) (sommets vus : List α) : Nat :=
  ((sommets.filter fun v => v ∉ vus).map fun v => (suivants v).length).sum

/-- What is visited leads to what is visited, set aside, or on the stack. -/
structure Ouvert (suivants : α → List α) (ecartes pile vus : List α) : Prop where
  nodup : vus.Nodup
  ecarte : ∀ v ∈ vus, v ∉ ecartes
  suite : ∀ v ∈ vus, ∀ d ∈ suivants v, d ∈ vus ∨ d ∈ ecartes ∨ d ∈ pile

variable {suivants : α → List α} {ecartes sommets pile vus : List α} {s : α}

omit [DecidableEq α] in
theorem ouvert_nil (suivants : α → List α) (ecartes pile : List α) :
    Ouvert suivants ecartes pile [] :=
  ⟨List.nodup_nil, nofun, nofun⟩

omit [DecidableEq α] in
theorem Ouvert.passer (h : Ouvert suivants ecartes (s :: pile) vus) (hs : s ∈ vus ∨ s ∈ ecartes) :
    Ouvert suivants ecartes pile vus := by
  refine ⟨h.nodup, h.ecarte, fun v hv d hd => ?_⟩
  rcases h.suite v hv d hd with hvu | hecarte | hpile
  · exact .inl hvu
  · exact .inr (.inl hecarte)
  · rcases List.mem_cons.mp hpile with heq | hpile
    · rcases hs with hs | hs
      · exact .inl (heq ▸ hs)
      · exact .inr (.inl (heq ▸ hs))
    · exact .inr (.inr hpile)

theorem Ouvert.visiter (h : Ouvert suivants ecartes (s :: pile) vus) (hs : ¬(s ∈ vus ∨ s ∈ ecartes)) :
    Ouvert suivants ecartes
      (((suivants s).filter fun d => d ∉ s :: vus ∧ d ∉ ecartes).reverse ++ pile) (s :: vus) := by
  have hvus : s ∉ vus := fun hmem => hs (.inl hmem)
  have hecartes : s ∉ ecartes := fun hmem => hs (.inr hmem)
  refine ⟨List.nodup_cons.mpr ⟨hvus, h.nodup⟩, List.forall_mem_cons.mpr ⟨hecartes, h.ecarte⟩, ?_⟩
  intro v hv d hd
  by_cases hd' : d ∈ s :: vus
  · exact .inl hd'
  · by_cases hde : d ∈ ecartes
    · exact .inr (.inl hde)
    · refine .inr (.inr (List.mem_append.mpr ?_))
      rcases List.mem_cons.mp hv with heq | hv
      · left
        subst heq
        simpa [hd, hde] using hd'
      · right
        rcases h.suite v hv d hd with hvu | hecarte | hpile
        · exact absurd (List.mem_cons_of_mem s hvu) hd'
        · exact absurd hecarte hde
        · rcases List.mem_cons.mp hpile with heq | hpile
          · exact absurd (heq ▸ List.mem_cons_self) hd'
          · exact hpile

theorem restant_visiter (hsommets : sommets.Nodup) (hs : s ∉ vus) :
    restant suivants sommets (s :: vus) + (if s ∈ sommets then (suivants s).length else 0) =
      restant suivants sommets vus := by
  unfold restant
  induction sommets with
  | nil => simp
  | cons v sommets ih =>
      obtain ⟨hv, hrest⟩ := List.nodup_cons.mp hsommets
      have hih := ih hrest
      by_cases hsv : v = s
      · subst hsv
        rw [if_neg hv] at hih
        simp only [List.filter_cons, List.mem_cons, true_or, not_true, decide_false, hs,
          not_false_eq_true, decide_true, if_true, List.map_cons, List.sum_cons,
          Bool.false_eq_true, if_false] at hih ⊢
        omega
      · have hmem : s ∈ v :: sommets ↔ s ∈ sommets := by
          rw [List.mem_cons]
          constructor
          · intro h
            rcases h with heq | h
            · exact absurd heq.symm hsv
            · exact h
          · exact .inr
        simp only [hmem]
        by_cases hvv : v ∈ vus
        · simpa [List.filter_cons, hvv, hsv] using hih
        · simp only [List.filter_cons, List.mem_cons, hsv, hvv, or_self, not_false_eq_true,
            decide_true, if_true, List.map_cons, List.sum_cons] at hih ⊢
          omega

def mesure (suivants : α → List α) (sommets pile vus : List α) : Nat :=
  pile.length + restant suivants sommets vus

theorem mesure_visiter (hsommets : sommets.Nodup) (hfeuilles : ∀ v ∉ sommets, suivants v = [])
    (hs : s ∉ vus) :
    mesure suivants sommets
      (((suivants s).filter fun d => d ∉ s :: vus ∧ d ∉ ecartes).reverse ++ pile) (s :: vus) + 1 ≤
      mesure suivants sommets (s :: pile) vus := by
  have hreste := @restant_visiter α _ suivants sommets vus s hsommets hs
  have hfiltre := List.length_filter_le
    (fun d => decide (d ∉ s :: vus ∧ d ∉ ecartes)) (suivants s)
  have hdegre : (suivants s).length = if s ∈ sommets then (suivants s).length else 0 := by
    split
    · rfl
    · next h => rw [hfeuilles s h, List.length_nil]
  unfold mesure
  rw [List.length_append, List.length_reverse, List.length_cons]
  omega

theorem parcourir_fuel (hsommets : sommets.Nodup) (hfeuilles : ∀ v ∉ sommets, suivants v = [])
    {n : Nat} (plus : Nat) (hn : mesure suivants sommets pile vus ≤ n) :
    parcourir suivants ecartes (n + plus) pile vus = parcourir suivants ecartes n pile vus := by
  induction n generalizing pile vus with
  | zero =>
      have hpile : pile = [] := by
        apply List.eq_nil_of_length_eq_zero
        unfold mesure at hn
        omega
      subst hpile
      cases plus <;> simp [parcourir]
  | succ n ih =>
      rw [Nat.succ_add]
      cases pile with
      | nil => rfl
      | cons s pile =>
          rw [parcourir, parcourir]
          split
          · next hs =>
              apply ih
              simp only [mesure, List.length_cons] at hn ⊢
              omega
          · next hs =>
              apply ih
              have hvisite := @mesure_visiter α _ suivants ecartes sommets pile vus s hsommets
                hfeuilles (fun hmem => hs (.inl hmem))
              omega

theorem parcourir_spec (hsommets : sommets.Nodup) (hfeuilles : ∀ v ∉ sommets, suivants v = [])
    {n : Nat} (hn : mesure suivants sommets pile vus ≤ n) (h : Ouvert suivants ecartes pile vus) :
    Ouvert suivants ecartes [] (parcourir suivants ecartes n pile vus) ∧
      (∀ v ∈ vus, v ∈ parcourir suivants ecartes n pile vus) ∧
      ∀ v ∈ pile, v ∈ parcourir suivants ecartes n pile vus ∨ v ∈ ecartes := by
  induction n generalizing pile vus with
  | zero =>
      have hpile : pile = [] := by
        apply List.eq_nil_of_length_eq_zero
        unfold mesure at hn
        omega
      subst hpile
      exact ⟨h, fun v hv => hv, nofun⟩
  | succ n ih =>
      cases pile with
      | nil => exact ⟨h, fun v hv => hv, nofun⟩
      | cons s pile =>
          rw [parcourir]
          split
          · next hs =>
              have hrec := @ih pile vus (by
                simp only [mesure, List.length_cons] at hn ⊢
                omega) (h.passer hs)
              refine ⟨hrec.1, hrec.2.1, List.forall_mem_cons.mpr ⟨?_, hrec.2.2⟩⟩
              rcases hs with hs | hs
              · exact .inl (hrec.2.1 s hs)
              · exact .inr hs
          · next hs =>
              have hvisite := @mesure_visiter α _ suivants ecartes sommets pile vus s hsommets
                hfeuilles (fun hmem => hs (.inl hmem))
              have hrec := ih (by omega) (h.visiter hs)
              refine ⟨hrec.1, fun v hv => hrec.2.1 v (List.mem_cons_of_mem s hv), ?_⟩
              intro v hv
              cases List.mem_cons.mp hv with
              | inl heq => exact .inl (heq ▸ hrec.2.1 s List.mem_cons_self)
              | inr hv => exact hrec.2.2 v (List.mem_append_right _ hv)

theorem parcourir_atteint {n : Nat} {v : α} (hv : v ∈ parcourir suivants ecartes n pile vus) :
    v ∈ vus ∨ ∃ p ∈ pile, Relation.ReflTransGen (fun a b => b ∈ suivants a) p v := by
  induction n generalizing pile vus with
  | zero => exact .inl hv
  | succ n ih =>
      cases pile with
      | nil => exact .inl hv
      | cons s pile =>
          rw [parcourir] at hv
          split at hv
          · rcases ih hv with hvu | ⟨p, hp, hreach⟩
            · exact .inl hvu
            · exact .inr ⟨p, List.mem_cons_of_mem s hp, hreach⟩
          · rcases ih hv with hvu | ⟨p, hp, hreach⟩
            · rcases List.mem_cons.mp hvu with heq | hvu
              · subst heq
                exact .inr ⟨v, List.mem_cons_self, .refl⟩
              · exact .inl hvu
            · rcases List.mem_append.mp hp with hp | hp
              · have hsuivant : p ∈ suivants s := (List.mem_filter.mp (List.mem_reverse.mp hp)).1
                exact .inr ⟨s, List.mem_cons_self, .head hsuivant hreach⟩
              · exact .inr ⟨p, List.mem_cons_of_mem s hp, hreach⟩

theorem mem_parcourir (hsommets : sommets.Nodup) (hfeuilles : ∀ v ∉ sommets, suivants v = [])
    {n : Nat} (hn : mesure suivants sommets [s] [] ≤ n)
    (hclos : ∀ v ∈ ecartes, ∀ d ∈ suivants v, d ∈ ecartes) (v : α) :
    v ∈ parcourir suivants ecartes n [s] [] ↔
      v ∉ ecartes ∧ Relation.ReflTransGen (fun a b => b ∈ suivants a) s v := by
  have hspec := parcourir_spec hsommets hfeuilles hn (ouvert_nil suivants ecartes [s])
  constructor
  · intro hv
    refine ⟨hspec.1.ecarte v hv, ?_⟩
    rcases parcourir_atteint hv with hnil | ⟨p, hp, hreach⟩
    · cases hnil
    · rw [List.mem_singleton.mp hp] at hreach
      exact hreach
  · intro ⟨hv, hreach⟩
    have hatteint : v ∈ parcourir suivants ecartes n [s] [] ∨ v ∈ ecartes := by
      induction hreach with
      | refl => exact hspec.2.2 s List.mem_cons_self
      | @tail b c _ hstep ih =>
          by_cases hb : b ∈ ecartes
          · exact absurd (hclos b hb c hstep) hv
          · rcases ih hb with hvu | hecarte
            · rcases hspec.1.suite b hvu c hstep with h | h | h
              · exact .inl h
              · exact .inr h
              · cases h
            · exact absurd hecarte hb
    rcases hatteint with h | h
    · exact h
    · exact absurd h hv

end Hermes.Lib.Parcours
