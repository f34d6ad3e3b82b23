import Mathlib.Data.Finset.Card
import Mathlib.Data.List.Infix
import Mathlib.Data.List.Induction
import Mathlib.Logic.Relation

/-! # A graph evaluated wave after wave

A vertex is evaluated in the first wave where its predecessors all have a value, one of its
entries holds and its gate is open.
-/

namespace Hermes.Lib.Vagues

open Classical

variable {α ρ : Type*}

section Tours

variable (pred : α → α → Prop)

/-- The vertices whose turn has come after one more wave. -/
def avancer (ouvert tour : α → Prop) : α → Prop :=
  fun n => tour n ∨ (ouvert n ∧ ∀ p, pred p n → tour p)

/-- The vertices whose turn has come in a schedule. -/
def atteints (l : List (α → Prop)) : α → Prop :=
  l.foldl (fun tour ouvert => avancer pred ouvert tour) fun _ => False

/-- The turn of `a` comes in an earlier wave than the turn of `n`. -/
def Avant (l : List (α → Prop)) (a n : α) : Prop :=
  ∃ l', l' <+: l ∧ atteints pred l' a ∧ ¬ atteints pred l' n

end Tours

section Tours

variable {pred : α → α → Prop} {l l' : List (α → Prop)} {ouvert : α → Prop} {a n p : α}

@[simp] theorem not_atteints_nil : ¬ atteints pred [] n := id

theorem atteints_concat :
    atteints pred (l ++ [ouvert]) n ↔
      atteints pred l n ∨ (ouvert n ∧ ∀ p, pred p n → atteints pred l p) := by
  simp only [atteints, List.foldl_append, List.foldl_cons, List.foldl_nil, avancer]

theorem atteints_append (h : atteints pred l n) (l' : List (α → Prop)) :
    atteints pred (l ++ l') n := by
  induction l' using List.reverseRecOn with
  | nil => rwa [List.append_nil]
  | append_singleton l' ouvert ih =>
      rw [← List.append_assoc]
      exact atteints_concat.mpr (.inl ih)

theorem atteints_of_prefixe (hpre : l' <+: l) (h : atteints pred l' n) : atteints pred l n := by
  obtain ⟨suite, rfl⟩ := hpre
  exact atteints_append h suite

theorem atteints_pred (h : atteints pred l n) (hp : pred p n) : atteints pred l p := by
  induction l using List.reverseRecOn with
  | nil => exact h.elim
  | append_singleton l ouvert ih =>
      rcases atteints_concat.mp h with h | ⟨_, h⟩
      · exact atteints_append (ih h) _
      · exact atteints_append (h p hp) _

theorem prefix_of_not_atteints {l₁ l₂ : List (α → Prop)} (h₁ : l₁ <+: l) (h₂ : l₂ <+: l)
    (hnot : ¬ atteints pred l₁ n) (h : atteints pred l₂ n) : l₁ <+: l₂ := by
  rcases List.prefix_or_prefix_of_prefix h₁ h₂ with hpre | hpre
  · exact hpre
  · exact absurd (atteints_of_prefixe hpre h) hnot

theorem prefix_of_concat (h : l' <+: l ++ [ouvert]) (hne : l' ≠ l ++ [ouvert]) : l' <+: l := by
  rcases List.prefix_concat_iff.mp h with heq | hpre
  · exact absurd heq hne
  · exact hpre

theorem avant_concat_of_atteints (h : atteints pred l n) :
    Avant pred (l ++ [ouvert]) a n ↔ Avant pred l a n := by
  constructor
  · rintro ⟨l', hpre, ha, hn⟩
    exact ⟨l', prefix_of_not_atteints hpre (List.prefix_append l _) hn h, ha, hn⟩
  · rintro ⟨l', hpre, ha, hn⟩
    exact ⟨l', hpre.trans (List.prefix_append l _), ha, hn⟩

theorem avant_concat_of_not_atteints (hn : ¬ atteints pred l n)
    (h : atteints pred (l ++ [ouvert]) n) : Avant pred (l ++ [ouvert]) a n ↔ atteints pred l a := by
  constructor
  · rintro ⟨l', hpre, ha, hnot⟩
    have hne : l' ≠ l ++ [ouvert] := by
      rintro rfl
      exact hnot h
    exact atteints_of_prefixe (prefix_of_concat hpre hne) ha
  · intro ha
    exact ⟨l, List.prefix_append l _, ha, hn⟩

theorem avant_of_pred (hp : pred p n) (h : atteints pred l n) : Avant pred l p n := by
  induction l using List.reverseRecOn with
  | nil => exact h.elim
  | append_singleton l ouvert ih =>
      by_cases hn : atteints pred l n
      · exact (avant_concat_of_atteints hn).mpr (ih hn)
      · obtain ⟨_, hpreds⟩ := (atteints_concat.mp h).resolve_left hn
        exact (avant_concat_of_not_atteints hn h).mpr (hpreds p hp)

theorem Avant.trans {m : α} (h₁ : Avant pred l a m) (h₂ : Avant pred l m n) : Avant pred l a n := by
  obtain ⟨l₁, hpre₁, ha, hnot₁⟩ := h₁
  obtain ⟨l₂, hpre₂, hm, hnot₂⟩ := h₂
  have hpre : l₁ <+: l₂ := prefix_of_not_atteints hpre₁ hpre₂ hnot₁ hm
  exact ⟨l₂, hpre₂, atteints_of_prefixe hpre ha, hnot₂⟩

theorem avant_of_transGen (hp : Relation.TransGen pred p n) (h : atteints pred l n) :
    Avant pred l p n := by
  induction hp with
  | single hp => exact avant_of_pred hp h
  | tail _ hp ih => exact (ih (atteints_pred h hp)).trans (avant_of_pred hp h)

theorem avant_iff_of_not_atteints (h : ¬ atteints pred l n) :
    Avant pred l a n ↔ atteints pred l a := by
  constructor
  · rintro ⟨l', hpre, ha, _⟩
    exact atteints_of_prefixe hpre ha
  · intro ha
    exact ⟨l, List.prefix_refl l, ha, h⟩

theorem atteints_of_clos {permis : α → Prop} (hl : ∀ ouvert ∈ l, ∀ n, ouvert n → permis n)
    (hclos : ∀ n, permis n → (∀ p, pred p n → atteints pred l' p) → atteints pred l' n)
    (h : atteints pred l n) : atteints pred l' n := by
  induction l using List.reverseRecOn generalizing n with
  | nil => exact h.elim
  | append_singleton l ouvert ih =>
      have hrest : ∀ o ∈ l, ∀ n, o n → permis n := fun o ho => hl o (List.mem_append_left _ ho)
      rcases atteints_concat.mp h with h | ⟨ho, hpreds⟩
      · exact ih hrest h
      · exact hclos n (hl ouvert (by simp) n ho) fun p hp => ih hrest (hpreds p hp)

theorem clos_replicate {sommets : List α} (hfini : ∀ n, ouvert n → n ∈ sommets)
    (l : List (α → Prop)) (hn : ouvert n)
    (h : ∀ p, pred p n → atteints pred (l ++ List.replicate sommets.length ouvert) p) :
    atteints pred (l ++ List.replicate sommets.length ouvert) n := by
  let tours (k : Nat) := atteints pred (l ++ List.replicate k ouvert)
  let attente (k : Nat) := sommets.toFinset.filter fun m => ¬ tours k m
  have htaille (k : Nat) : (attente k).card ≤ sommets.length :=
    (Finset.card_filter_le _ _).trans (List.toFinset_card_le sommets)
  have hsucc (k : Nat) (m : α) :
      tours (k + 1) m ↔ tours k m ∨ (ouvert m ∧ ∀ p, pred p m → tours k p) := by
    show atteints pred (l ++ List.replicate (k + 1) ouvert) m ↔ _
    rw [List.replicate_succ', ← List.append_assoc, atteints_concat]
  -- a wave that brings no vertex to its turn is the last one that matters
  have hprogres (k : Nat) :
      (∀ m, ouvert m → (∀ p, pred p m → tours k p) → tours k m) ∨
        (attente k).card + k ≤ sommets.length := by
    induction k with
    | zero => exact .inr (htaille 0)
    | succ k ih =>
        by_cases hclos : ∀ m, ouvert m → (∀ p, pred p m → tours k p) → tours k m
        · have hsame (m : α) : tours (k + 1) m ↔ tours k m := by
            rw [hsucc]
            exact ⟨fun hm => hm.elim id fun h => hclos m h.1 h.2, .inl⟩
          left
          intro m hm hpreds
          exact (hsame m).mpr (hclos m hm fun p hp => (hsame p).mp (hpreds p hp))
        · right
          push Not at hclos
          obtain ⟨m, hm, hpreds, hnot⟩ := hclos
          have hmem : m ∈ attente k := by simp [attente, hfini m hm, hnot]
          have hnext : tours (k + 1) m := (hsucc k m).mpr (.inr ⟨hm, hpreds⟩)
          have hparti : m ∉ attente (k + 1) := by simp [attente, hnext]
          have hsub : attente (k + 1) ⊆ attente k := by
            intro m' hm'
            simp only [attente, Finset.mem_filter, hsucc, not_or] at hm' ⊢
            exact ⟨hm'.1, hm'.2.1⟩
          have hmoins : (attente (k + 1)).card < (attente k).card :=
            Finset.card_lt_card ((Finset.ssubset_iff_of_subset hsub).mpr ⟨m, hmem, hparti⟩)
          have hborne := ih.resolve_left fun h => hnot (h m hm hpreds)
          omega
  rcases hprogres sommets.length with hclos | hborne
  · exact hclos n hn h
  · have hvide : attente sommets.length = ∅ := Finset.card_eq_zero.mp (by omega)
    by_contra hnot
    have hmem : n ∈ attente sommets.length := by
      simp only [attente, Finset.mem_filter, List.mem_toFinset]
      exact ⟨hfini n hn, hnot⟩
    rw [hvide] at hmem
    exact absurd hmem (Finset.notMem_empty n)

end Tours

section Valeurs

variable (pred : α → α → Prop) (pret : α → (α → Option ρ) → Prop) (issue : α → (α → Option ρ) → ρ)

/-- One wave: the vertices that are ready and open take the value they come to. -/
noncomputable def vague (ouvert : α → Prop) (valeurs : α → Option ρ) : α → Option ρ :=
  fun n =>
    match valeurs n with
    | some r => some r
    | none =>
        if ouvert n ∧ (∀ p, pred p n → (valeurs p).isSome) ∧ pret n valeurs then
          some (issue n valeurs)
        else none

noncomputable def marche (l : List (α → Prop)) : α → Option ρ :=
  l.foldl (fun valeurs ouvert => vague pred pret issue ouvert valeurs) fun _ => none

/-- The values of the vertices whose turn comes before the one of `n`. -/
noncomputable def vue (l : List (α → Prop)) (valeurs : α → Option ρ) (n a : α) : Option ρ :=
  if Avant pred l a n then valeurs a else none

/-- A vertex is ready by its predecessors, and its value reads what it refers to. -/
structure Local (refs : α → α → Prop) : Prop where
  pret : ∀ n v w, (∀ p, pred p n → v p = w p) → (pret n v ↔ pret n w)
  issue : ∀ n v w, (∀ a, refs n a → v a = w a) → issue n v = issue n w

end Valeurs

section Valeurs

variable {pred : α → α → Prop} {pret : α → (α → Option ρ) → Prop}
  {issue : α → (α → Option ρ) → ρ} {refs : α → α → Prop} {l l' : List (α → Prop)}
  {ouvert : α → Prop} {n : α} {r : ρ}

@[simp] theorem marche_nil : marche pred pret issue [] = fun _ => none := rfl

theorem marche_concat :
    marche pred pret issue (l ++ [ouvert]) =
      vague pred pret issue ouvert (marche pred pret issue l) := by
  simp only [marche, List.foldl_append, List.foldl_cons, List.foldl_nil]

theorem marche_replicate (l : List (α → Prop)) (k : Nat) :
    marche pred pret issue (l ++ List.replicate k ouvert) =
      (vague pred pret issue ouvert)^[k] (marche pred pret issue l) := by
  induction k with
  | zero => simp
  | succ k ih =>
      rw [List.replicate_succ', ← List.append_assoc, marche_concat, ih,
        Function.iterate_succ_apply']

theorem vague_of_some {valeurs : α → Option ρ} (h : valeurs n = some r) :
    vague pred pret issue ouvert valeurs n = some r := by
  simp only [vague, h]

theorem vague_of_none {valeurs : α → Option ρ} (h : valeurs n = none) :
    vague pred pret issue ouvert valeurs n = some r ↔
      (ouvert n ∧ (∀ p, pred p n → (valeurs p).isSome) ∧ pret n valeurs) ∧
        issue n valeurs = r := by
  simp only [vague, h, Option.ite_none_right_eq_some, Option.some.injEq]

theorem atteints_of_marche (h : marche pred pret issue l n = some r) : atteints pred l n := by
  induction l using List.reverseRecOn generalizing n r with
  | nil => cases h
  | append_singleton l ouvert ih =>
      rw [marche_concat] at h
      cases hval : marche pred pret issue l n with
      | some r' => exact atteints_append (ih hval) _
      | none =>
          obtain ⟨⟨ho, hpreds, _⟩, _⟩ := (vague_of_none hval).mp h
          refine atteints_concat.mpr (.inr ⟨ho, fun p hp => ?_⟩)
          obtain ⟨r', hr'⟩ := Option.isSome_iff_exists.mp (hpreds p hp)
          exact ih hr'

theorem marche_of_not_atteints (h : ¬ atteints pred l n) : marche pred pret issue l n = none := by
  by_contra hval
  obtain ⟨r, hr⟩ := Option.ne_none_iff_exists'.mp hval
  exact h (atteints_of_marche hr)

/-- Once its turn has come, a vertex has a value exactly when it is ready. -/
def Juste (pred : α → α → Prop) (pret : α → (α → Option ρ) → Prop) (l : List (α → Prop))
    (valeurs : α → Option ρ) : Prop :=
  ∀ n, atteints pred l n →
    ((valeurs n).isSome ↔ (∀ p, pred p n → (valeurs p).isSome) ∧ pret n valeurs)

theorem Juste.vague_eq {valeurs : α → Option ρ} (h : Juste pred pret l valeurs)
    (hn : atteints pred l n) : vague pred pret issue ouvert valeurs n = valeurs n := by
  cases hval : valeurs n with
  | some r => exact vague_of_some hval
  | none =>
      by_contra hne
      obtain ⟨r, hr⟩ := Option.ne_none_iff_exists'.mp hne
      have hsome := (h n hn).mpr ((vague_of_none hval).mp hr).1.2
      rw [hval] at hsome
      cases hsome

theorem juste_marche (hlocal : Local pred pret issue refs) (l : List (α → Prop)) :
    Juste pred pret l (marche pred pret issue l) := by
  induction l using List.reverseRecOn with
  | nil => exact fun n hn => hn.elim
  | append_singleton l ouvert ih =>
      intro n hn
      rw [marche_concat]
      have hpreds : ∀ p, pred p n → vague pred pret issue ouvert (marche pred pret issue l) p =
          marche pred pret issue l p := by
        intro p hp
        apply ih.vague_eq
        rcases atteints_concat.mp hn with hn | ⟨_, hall⟩
        · exact atteints_pred hn hp
        · exact hall p hp
      have hready : (∀ p, pred p n → (vague pred pret issue ouvert
          (marche pred pret issue l) p).isSome) ↔
            ∀ p, pred p n → (marche pred pret issue l p).isSome :=
        forall₂_congr fun p hp => by rw [hpreds p hp]
      rw [hready, hlocal.pret n _ _ hpreds]
      by_cases hbefore : atteints pred l n
      · rw [ih.vague_eq hbefore]
        exact ih n hbefore
      · obtain ⟨ho, _⟩ := (atteints_concat.mp hn).resolve_left hbefore
        have hnone : marche pred pret issue l n = none := marche_of_not_atteints hbefore
        simp only [Option.isSome_iff_exists, vague_of_none hnone, ho, true_and,
          exists_and_left, exists_eq', and_true]

theorem marche_stable (hlocal : Local pred pret issue refs) (hn : atteints pred l n)
    (l' : List (α → Prop)) : marche pred pret issue (l ++ l') n = marche pred pret issue l n := by
  induction l' using List.reverseRecOn with
  | nil => rw [List.append_nil]
  | append_singleton l' ouvert ih =>
      rw [← List.append_assoc, marche_concat, ← ih]
      exact (juste_marche hlocal (l ++ l')).vague_eq (atteints_append hn l')

theorem valeur_eq (hlocal : Local pred pret issue refs) (h : marche pred pret issue l n = some r) :
    r = issue n (vue pred l (marche pred pret issue l) n) := by
  induction l using List.reverseRecOn generalizing r with
  | nil => cases h
  | append_singleton l ouvert ih =>
      by_cases hbefore : atteints pred l n
      · rw [marche_stable hlocal hbefore] at h
        rw [ih h]
        congr 1
        funext a
        simp only [vue, avant_concat_of_atteints hbefore]
        split
        · next ha =>
            obtain ⟨l', hpre, ha', _⟩ := ha
            exact (marche_stable hlocal (atteints_of_prefixe hpre ha') _).symm
        · rfl
      · have hnone : marche pred pret issue l n = none := marche_of_not_atteints hbefore
        have hnow : atteints pred (l ++ [ouvert]) n := atteints_of_marche h
        rw [marche_concat] at h
        rw [← ((vague_of_none hnone).mp h).2]
        congr 1
        funext a
        simp only [vue, avant_concat_of_not_atteints hbefore hnow]
        split
        · next ha => exact (marche_stable hlocal ha _).symm
        · next ha => exact marche_of_not_atteints ha

theorem marche_insensible (hlocal : Local pred pret issue refs)
    (hfin : ∀ n, atteints pred l n ↔ atteints pred l' n)
    (hordre : ∀ n a, refs n a → (Avant pred l a n ↔ Avant pred l' a n)) :
    marche pred pret issue l = marche pred pret issue l' := by
  -- vertex by vertex, in the order of the first schedule
  have hpar (k : List (α → Prop)) (hk : k <+: l) :
      ∀ n, atteints pred k n → marche pred pret issue l n = marche pred pret issue l' n := by
    induction k using List.reverseRecOn with
    | nil => exact fun n hn => hn.elim
    | append_singleton k ouvert ih =>
        have hk' : k <+: l := (List.prefix_append k _).trans hk
        intro n hn
        by_cases hbefore : atteints pred k n
        · exact ih hk' n hbefore
        · obtain ⟨_, hall⟩ := (atteints_concat.mp hn).resolve_left hbefore
          have hpreds : ∀ p, pred p n → marche pred pret issue l p = marche pred pret issue l' p :=
            fun p hp => ih hk' p (hall p hp)
          have hl : atteints pred l n := atteints_of_prefixe hk hn
          have hready : (marche pred pret issue l n).isSome ↔
              (marche pred pret issue l' n).isSome := by
            rw [juste_marche hlocal l n hl, juste_marche hlocal l' n ((hfin n).mp hl),
              hlocal.pret n _ _ hpreds]
            refine and_congr_left' (forall₂_congr fun p hp => ?_)
            rw [hpreds p hp]
          cases hval : marche pred pret issue l n with
          | none =>
              have hnone : ¬ (marche pred pret issue l' n).isSome := by
                rw [← hready, hval]
                simp
              exact (Option.not_isSome_iff_eq_none.mp hnone).symm
          | some r =>
              obtain ⟨r', hr'⟩ := Option.isSome_iff_exists.mp (hready.mp (by rw [hval]; rfl))
              rw [hr', valeur_eq hlocal hval, valeur_eq hlocal hr']
              congr 1
              apply hlocal.issue
              intro a ha
              simp only [vue, ← hordre n a ha]
              split
              · next havant =>
                  obtain ⟨k', hk'', ha', hn'⟩ := havant
                  have hpre : k' <+: k := by
                    have hpre := prefix_of_not_atteints hk'' hk hn' hn
                    refine prefix_of_concat hpre ?_
                    rintro rfl
                    exact hn' hn
                  exact ih hk' a (atteints_of_prefixe hpre ha')
              · rfl
  funext n
  by_cases hn : atteints pred l n
  · exact hpar l (List.prefix_refl l) n hn
  · rw [marche_of_not_atteints hn, marche_of_not_atteints fun h => hn ((hfin n).mpr h)]

end Valeurs

end Hermes.Lib.Vagues
