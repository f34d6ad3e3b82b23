import Mathlib.Data.List.Nodup
import Mathlib.Data.List.Chain
import Mathlib.Order.Defs.LinearOrder

/-! # Climbing from an element to its origin

A walk goes from an element to the one above it and stops where nothing stands above, or at a key
that it has already met.
-/

namespace Hermes.Lib.Ascendance

variable {α κ ι : Type*} [DecidableEq κ]

/-- The loop, the element it starts from first; `none` when the fuel runs out before it stops. -/
def remonter (cle : α → κ) (dessus : α → Option α) : Nat → List κ → Option α → Option (List α)
  | _, _, none => some []
  | n, vus, some a =>
      if cle a ∈ vus then some []
      else
        match n with
        | 0 => none
        | n + 1 => (remonter cle dessus n (cle a :: vus) (dessus a)).map (a :: ·)

/-- The ascent from an element, up to one that nothing stands above. -/
inductive Montee (dessus : α → Option α) : α → List α → Prop
  | origine {a : α} : dessus a = none → Montee dessus a [a]
  | cran {a b : α} {l : List α} : dessus a = some b → Montee dessus b l → Montee dessus a (a :: l)

section Montees

variable {dessus dessus' : α → Option α} {a : α} {l : List α}

theorem Montee.head? (h : Montee dessus a l) : l.head? = some a := by
  cases h <;> rfl

theorem Montee.getLast? (h : Montee dessus a l) :
    ∃ sommet, l.getLast? = some sommet ∧ dessus sommet = none := by
  induction h with
  | origine hrien => exact ⟨_, rfl, hrien⟩
  | @cran a b l hdessus hmontee ih =>
      obtain ⟨sommet, hlast, hrien⟩ := ih
      have hl : l ≠ [] := by
        rintro rfl
        cases hlast
      refine ⟨sommet, ?_, hrien⟩
      rw [List.getLast?_cons, hlast]
      rfl

theorem Montee.forall_mem {P : α → Prop} (h : Montee dessus a l) (ha : P a)
    (hpas : ∀ x y, P x → dessus x = some y → P y) : ∀ x ∈ l, P x := by
  induction h with
  | origine hrien => exact List.forall_mem_singleton.mpr ha
  | cran hdessus hmontee ih => exact List.forall_mem_cons.mpr ⟨ha, ih (hpas _ _ ha hdessus)⟩

theorem Montee.isChain {P : α → Prop} {R : α → α → Prop} (h : Montee dessus a l) (ha : P a)
    (hpas : ∀ x y, P x → dessus x = some y → P y ∧ R x y) : l.IsChain R := by
  induction h with
  | origine hrien => exact List.isChain_singleton _
  | cran hdessus hmontee ih =>
      obtain ⟨hb, hrel⟩ := hpas _ _ ha hdessus
      rw [List.isChain_cons]
      refine ⟨fun y hy => ?_, ih hb⟩
      rw [hmontee.head?] at hy
      cases hy
      exact hrel

theorem Montee.congr (h : Montee dessus a l) (hsame : ∀ x ∈ l, dessus' x = dessus x) :
    Montee dessus' a l := by
  induction h with
  | origine hrien => exact .origine ((hsame _ List.mem_cons_self).trans hrien)
  | cran hdessus hmontee ih =>
      refine .cran ((hsame _ List.mem_cons_self).trans hdessus) ?_
      exact ih fun x hx => hsame x (List.mem_cons_of_mem _ hx)

theorem Montee.unique {l' : List α} (h : Montee dessus a l) (h' : Montee dessus a l') :
    l = l' := by
  induction h generalizing l' with
  | origine hrien =>
      cases h' with
      | origine => rfl
      | cran hdessus hmontee =>
          rw [hrien] at hdessus
          cases hdessus
  | cran hdessus hmontee ih =>
      cases h' with
      | origine hrien =>
          rw [hrien] at hdessus
          cases hdessus
      | cran hdessus' hmontee' =>
          rw [hdessus] at hdessus'
          cases hdessus'
          rw [ih hmontee']

end Montees

section Arret

variable {cle : α → κ} {dessus : α → Option α} {lignes : List α}

theorem length_filter_cons_lt {cles : List κ} {k : κ} {vus : List κ} (hk : k ∈ cles)
    (hvus : k ∉ vus) :
    (cles.filter fun c => c ∉ k :: vus).length < (cles.filter fun c => c ∉ vus).length := by
  have hsplit : (cles.filter fun c => c ∉ k :: vus) =
      (cles.filter fun c => c ∉ vus).filter fun c => c ≠ k := by
    rw [List.filter_filter]
    apply List.filter_congr
    intro c _
    simp
  rw [hsplit]
  apply List.length_filter_lt_length_iff_exists.mpr
  exact ⟨k, List.mem_filter.mpr ⟨hk, by simpa using hvus⟩, by simp⟩

theorem remonter_isSome (hferme : ∀ x ∈ lignes, ∀ y, dessus x = some y → y ∈ lignes) :
    ∀ (n : Nat) (vus : List κ) (depart : Option α), (∀ a, depart = some a → a ∈ lignes) →
      ((lignes.map cle).filter fun c => c ∉ vus).length < n + 1 →
        (remonter cle dessus n vus depart).isSome := by
  intro n
  induction n with
  | zero =>
      intro vus depart hdepart hfuel
      cases depart with
      | none => rfl
      | some a =>
          have ha : cle a ∈ vus := by
            by_contra hvus
            have hlt := length_filter_cons_lt (List.mem_map_of_mem (hdepart a rfl)) hvus
            omega
          simp [remonter, ha]
  | succ n ih =>
      intro vus depart hdepart hfuel
      cases depart with
      | none => rfl
      | some a =>
          by_cases ha : cle a ∈ vus
          · simp [remonter, ha]
          · have hlt := length_filter_cons_lt (List.mem_map_of_mem (hdepart a rfl)) ha
            have hreste := ih (cle a :: vus) (dessus a) (hferme a (hdepart a rfl)) (by omega)
            simpa [remonter, ha] using hreste

end Arret

section Rang

variable [Preorder ι] {cle : α → κ} {dessus : α → Option α} {lignes : List α} {rang : α → ι}

structure Classement (cle : α → κ) (dessus : α → Option α) (lignes : List α) (rang : α → ι) :
    Prop where
  ferme : ∀ x ∈ lignes, ∀ y, dessus x = some y → y ∈ lignes
  unique : ∀ x ∈ lignes, ∀ y ∈ lignes, cle x = cle y → x = y
  baisse : ∀ x ∈ lignes, ∀ y, dessus x = some y → rang y < rang x

theorem Classement.montee_of_remonter (h : Classement cle dessus lignes rang) :
    ∀ (n : Nat) (vus : List κ) (a : α) (l : List α), a ∈ lignes →
      (∀ k ∈ vus, ∃ b ∈ lignes, cle b = k ∧ rang a < rang b) →
        remonter cle dessus n vus (some a) = some l → Montee dessus a l := by
  have hneuve : ∀ (vus : List κ) (a : α), a ∈ lignes →
      (∀ k ∈ vus, ∃ b ∈ lignes, cle b = k ∧ rang a < rang b) → cle a ∉ vus := by
    intro vus a ha hvus hmem
    obtain ⟨b, hb, hcle, hrang⟩ := hvus _ hmem
    rw [h.unique b hb a ha hcle] at hrang
    exact lt_irrefl _ hrang
  intro n
  induction n with
  | zero =>
      intro vus a l ha hvus hrun
      rw [remonter, if_neg (hneuve vus a ha hvus)] at hrun
      cases hrun
  | succ n ih =>
      intro vus a l ha hvus hrun
      rw [remonter, if_neg (hneuve vus a ha hvus)] at hrun
      obtain ⟨reste, hreste, rfl⟩ := Option.map_eq_some_iff.mp hrun
      cases hdessus : dessus a with
      | none =>
          rw [hdessus] at hreste
          cases n <;> cases hreste <;> exact .origine hdessus
      | some b =>
          rw [hdessus] at hreste
          have hbaisse := h.baisse a ha b hdessus
          refine .cran hdessus (ih (cle a :: vus) b reste (h.ferme a ha b hdessus) ?_ hreste)
          intro k hk
          rcases List.mem_cons.mp hk with rfl | hk
          · exact ⟨a, ha, rfl, hbaisse⟩
          · obtain ⟨c, hc, hcle, hrang⟩ := hvus k hk
            exact ⟨c, hc, hcle, hbaisse.trans hrang⟩

theorem Classement.exists_remonter (h : Classement cle dessus lignes rang) {n : Nat}
    (hn : lignes.length ≤ n) {a : α} (ha : a ∈ lignes) :
    ∃ l, remonter cle dessus n [] (some a) = some l ∧ Montee dessus a l := by
  have hsome : (remonter cle dessus n [] (some a)).isSome := by
    apply remonter_isSome h.ferme n [] (some a)
    · rintro b ⟨⟩
      exact ha
    · have hle := List.length_filter_le (fun c => decide (c ∉ ([] : List κ))) (lignes.map cle)
      rw [List.length_map] at hle
      omega
  obtain ⟨l, hl⟩ := Option.isSome_iff_exists.mp hsome
  exact ⟨l, hl, h.montee_of_remonter n [] a l ha (by simp) hl⟩

end Rang

end Hermes.Lib.Ascendance
