import Mathlib.Data.List.Perm.Subperm
import Mathlib.Data.List.Nodup
import Mathlib.Data.List.MinMax

/-! # Groups of elements whose needs are met

A turn takes out together the elements that need nothing but what was taken out before it. When no
element is ready, the rest makes one last group.
-/

namespace Hermes.Lib.Paliers

variable {α : Type*} [DecidableEq α]

/-- The elements whose needs are among those taken out. -/
def prets (besoins : α → List α) (restants faits : List α) : List α :=
  restants.filter fun a => ∀ b ∈ besoins a, b ∈ faits

/-- The groups, each in an order of the caller's choice. -/
def grouper (trier : List α → List α) (besoins : α → List α) :
    Nat → List α → List α → List (List α)
  | 0, _, _ => []
  | fuel + 1, restants, faits =>
      if restants = [] then []
      else
        let ready := prets besoins restants faits
        if ready = [] then [trier restants]
        else
          trier ready ::
            grouper trier besoins fuel (restants.filter fun a => a ∉ ready) (faits ++ ready)

/-- Every need of an element stands in a group before its own. -/
def Etages (besoins : α → List α) (groupes : List (List α)) : Prop :=
  ∀ debut groupe suite, groupes = debut ++ groupe :: suite →
    ∀ a ∈ groupe, ∀ b ∈ besoins a, ∃ g ∈ debut, b ∈ g

variable {trier : List α → List α} {besoins : α → List α} {restants faits : List α} {fuel : Nat}

theorem mem_prets {a : α} :
    a ∈ prets besoins restants faits ↔ a ∈ restants ∧ ∀ b ∈ besoins a, b ∈ faits := by
  simp [prets]

theorem prets_append_perm (besoins : α → List α) (restants faits : List α) :
    (prets besoins restants faits ++
      restants.filter fun a => a ∉ prets besoins restants faits).Perm restants := by
  have hreste : restants.filter (fun a => a ∉ prets besoins restants faits)
      = restants.filter fun a => !decide (∀ b ∈ besoins a, b ∈ faits) := by
    apply List.filter_congr
    intro a ha
    rw [← decide_not, decide_eq_decide, mem_prets]
    simp only [ha, true_and]
  rw [hreste]
  exact List.filter_append_perm _ restants

theorem length_reste (h : prets besoins restants faits ≠ []) :
    (restants.filter fun a => a ∉ prets besoins restants faits).length < restants.length := by
  have hperm := (prets_append_perm besoins restants faits).length_eq
  have hpos := List.length_pos_iff.mpr h
  rw [List.length_append] at hperm
  omega

theorem grouper_perm (htrier : ∀ l, (trier l).Perm l) (hfuel : restants.length ≤ fuel) :
    (grouper trier besoins fuel restants faits).flatten.Perm restants ∧
      ∀ g ∈ grouper trier besoins fuel restants faits, g ≠ [] := by
  have hplein : ∀ {l}, l ≠ [] → trier l ≠ [] := by
    intro l hl hvide
    have hperm := htrier l
    rw [hvide] at hperm
    exact hl hperm.nil_eq.symm
  induction fuel generalizing restants faits with
  | zero =>
      rw [List.length_eq_zero_iff.mp (Nat.le_zero.mp hfuel)]
      exact ⟨List.Perm.refl [], fun g hg => absurd hg List.not_mem_nil⟩
  | succ fuel ih =>
      simp only [grouper]
      split
      · next hvide =>
          rw [hvide]
          exact ⟨List.Perm.refl [], fun g hg => absurd hg List.not_mem_nil⟩
      · next hreste =>
          split
          · refine ⟨by simpa using htrier restants, fun g hg => ?_⟩
            rw [List.mem_singleton.mp hg]
            exact hplein hreste
          · next hprets =>
              have hlt := length_reste hprets
              obtain ⟨hperm, hpleins⟩ := @ih _ (faits ++ prets besoins restants faits)
                (Nat.le_of_lt_succ (hlt.trans_le hfuel))
              refine ⟨?_, List.forall_mem_cons.mpr ⟨hplein hprets, hpleins⟩⟩
              rw [List.flatten_cons]
              exact ((htrier _).append hperm).trans (prets_append_perm besoins restants faits)

section Rang

variable {rang : α → Nat} (hrang : ∀ a, ∀ b ∈ besoins a, rang b < rang a)
include hrang

theorem prets_ne_nil (hconnus : ∀ a ∈ restants, ∀ b ∈ besoins a, b ∈ faits ∨ b ∈ restants)
    (hreste : restants ≠ []) : prets besoins restants faits ≠ [] := by
  cases hmin : restants.argmin rang with
  | none => exact absurd (List.argmin_eq_none.mp hmin) hreste
  | some a =>
      have ha : a ∈ restants := List.argmin_mem hmin
      have hready : a ∈ prets besoins restants faits := by
        refine mem_prets.mpr ⟨ha, fun b hb => ?_⟩
        refine (hconnus a ha b hb).resolve_right fun hmem => ?_
        have hle := List.le_of_mem_argmin hmem hmin
        have hlt := hrang a b hb
        omega
      exact List.ne_nil_of_mem hready

theorem grouper_avant (htrier : ∀ l, (trier l).Perm l) (hfuel : restants.length ≤ fuel)
    (hconnus : ∀ a ∈ restants, ∀ b ∈ besoins a, b ∈ faits ∨ b ∈ restants)
    {debut suite : List (List α)} {g : List α}
    (hgroupes : grouper trier besoins fuel restants faits = debut ++ g :: suite) :
    ∀ a ∈ g, ∀ b ∈ besoins a, b ∈ faits ∨ ∃ h ∈ debut, b ∈ h := by
  induction fuel generalizing restants faits debut with
  | zero => simp [grouper] at hgroupes
  | succ fuel ih =>
      simp only [grouper] at hgroupes
      by_cases hreste : restants = []
      · simp [hreste] at hgroupes
      · have hprets := prets_ne_nil hrang hconnus hreste
        rw [if_neg hreste, if_neg hprets] at hgroupes
        cases debut with
        | nil =>
            intro a ha b hb
            have hg := (List.cons.inj hgroupes).1
            rw [← hg] at ha
            exact .inl ((mem_prets.mp ((htrier _).mem_iff.mp ha)).2 b hb)
        | cons premier debut =>
            obtain ⟨hpremier, hgroupes⟩ := List.cons.inj hgroupes
            have hlt := length_reste hprets
            have hsuite : ∀ a ∈ restants.filter (fun a => a ∉ prets besoins restants faits),
                ∀ b ∈ besoins a, b ∈ faits ++ prets besoins restants faits ∨
                  b ∈ restants.filter fun a => a ∉ prets besoins restants faits := by
              intro a ha b hb
              by_cases hb' : b ∈ prets besoins restants faits
              · exact .inl (List.mem_append_right _ hb')
              · refine (hconnus a (List.mem_filter.mp ha).1 b hb).imp
                  (List.mem_append_left _) fun hmem => ?_
                exact List.mem_filter.mpr ⟨hmem, by simpa using hb'⟩
            intro a ha b hb
            rcases ih (by omega) hsuite hgroupes a ha b hb with hfait | ⟨h, hh, hbh⟩
            · refine (List.mem_append.mp hfait).imp id fun hmem => ?_
              refine ⟨premier, List.mem_cons_self, ?_⟩
              rw [← hpremier]
              exact (htrier _).mem_iff.mpr hmem
            · exact .inr ⟨h, List.mem_cons_of_mem _ hh, hbh⟩

theorem grouper_etages (htrier : ∀ l, (trier l).Perm l) (hfuel : restants.length ≤ fuel)
    (hconnus : ∀ a ∈ restants, ∀ b ∈ besoins a, b ∈ restants) :
    Etages besoins (grouper trier besoins fuel restants []) := by
  intro debut g suite hgroupes a ha b hb
  have havant := grouper_avant hrang htrier hfuel
    (fun a ha b hb => .inr (hconnus a ha b hb)) hgroupes a ha b hb
  exact havant.resolve_left List.not_mem_nil

end Rang

end Hermes.Lib.Paliers
