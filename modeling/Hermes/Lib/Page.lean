import Mathlib.Data.List.Nodup
import Mathlib.Data.List.Perm.Basic
import Mathlib.Order.Lattice

/-! # Pages of sorted lists

A list is sorted by decreasing keys; entries of equal keys come in any order. A page is a slice of
such a list.
-/

namespace Hermes.Lib.Page

variable {α κ : Type*}

/-- Where an index of a slice falls in a list of `n` entries, a negative one counted from the
end. -/
def borne (n : Nat) (i : Int) : Nat := if i < 0 then (n + i).toNat else min i.toNat n

/-- `l[debut:fin]`, once the bounds are in the list. -/
def tranche (l : List α) (debut fin : Nat) : List α := (l.take fin).drop debut

/-- `l[debut:fin]`. -/
def slice (l : List α) (debut : Int) (fin : Option Int) : List α :=
  tranche l (borne l.length debut) ((fin.map (borne l.length)).getD l.length)

theorem borne_le (n : Nat) (i : Int) : borne n i ≤ n := by
  unfold borne
  split
  · omega
  · omega

theorem mem_tranche {l : List α} {a b : Nat} {x : α} :
    x ∈ tranche l a b ↔ ∃ i, ∃ h : i < l.length, a ≤ i ∧ i < b ∧ l[i] = x := by
  unfold tranche
  rw [List.mem_iff_getElem]
  constructor
  · intro ⟨i, hi, hx⟩
    rw [List.length_drop, List.length_take] at hi
    rw [List.getElem_drop, List.getElem_take] at hx
    exact ⟨a + i, by omega, by omega, by omega, hx⟩
  · intro ⟨i, hi, hai, hib, hx⟩
    refine ⟨i - a, by rw [List.length_drop, List.length_take]; omega, ?_⟩
    have heq : a + (i - a) = i := by omega
    simp only [List.getElem_drop, List.getElem_take, heq]
    exact hx

theorem length_tranche (l : List α) (a b : Nat) (hb : b ≤ l.length) :
    (tranche l a b).length = b - a := by
  rw [tranche, List.length_drop, List.length_take]
  omega

theorem tranche_vide {l : List α} {a b : Nat} (h : b ≤ a) : tranche l a b = [] := by
  apply List.drop_eq_nil_of_le
  rw [List.length_take]
  omega

theorem tranche_entiere (l : List α) : tranche l 0 l.length = l := by
  rw [tranche, List.take_length, List.drop_zero]

theorem slice_debut (l : List α) {limit : Int} (hlimit : 0 ≤ limit) :
    slice l 0 (some limit) = l.take limit.toNat := by
  have hzero : borne l.length 0 = 0 := by
    unfold borne
    split <;> omega
  have hborne : borne l.length limit = min limit.toNat l.length := by
    unfold borne
    split <;> omega
  rw [slice, tranche, hzero, List.drop_zero, Option.map_some, Option.getD_some, hborne]
  exact List.take_eq_take_min.symm

theorem mem_of_mem_slice {l : List α} {debut : Int} {fin : Option Int} {x : α}
    (h : x ∈ slice l debut fin) : x ∈ l := List.mem_of_mem_take (List.mem_of_mem_drop h)

section Ordre

variable [LinearOrder κ] (cle : α → κ)

def Decroissant (l : List α) : Prop := l.Pairwise fun a b => cle b ≤ cle a

/-- The same entries, and the same keys in the same order. -/
def Memes (l l' : List α) : Prop := l.Perm l' ∧ l.map cle = l'.map cle

def Franche (cles : List κ) (i : Nat) : Prop :=
  ∀ (_ : 0 < i) (h : i < cles.length), cles[i] ≠ cles[i - 1]

variable {cle} {l l' : List α}

theorem cles_eq (hl : Decroissant cle l) (hl' : Decroissant cle l') (h : l'.Perm l) :
    l'.map cle = l.map cle := by
  apply @List.Perm.eq_of_pairwise κ (fun a b => b ≤ a)
  · intro a b _ _ hab hba
    exact le_antisymm hba hab
  · exact List.pairwise_map.mpr hl'
  · exact List.pairwise_map.mpr hl
  · exact h.map cle

theorem cle_getElem_le (hl : Decroissant cle l) {i j : Nat} (hij : i ≤ j) (hi : i < l.length)
    (hj : j < l.length) : cle l[j] ≤ cle l[i] := by
  rcases Nat.lt_or_eq_of_le hij with hlt | heq
  · exact List.pairwise_iff_getElem.mp hl i j hi hj hlt
  · subst heq
    exact le_refl _

theorem decroissant_mergeSort (cle : α → κ) (l : List α) :
    Decroissant cle (l.mergeSort fun a b => cle b ≤ cle a) := by
  have htrans : ∀ a b c : α, decide (cle b ≤ cle a) = true → decide (cle c ≤ cle b) = true →
      decide (cle c ≤ cle a) = true := by
    intro a b c hab hbc
    exact decide_eq_true (le_trans (of_decide_eq_true hbc) (of_decide_eq_true hab))
  have htotal : ∀ a b : α, (decide (cle b ≤ cle a) || decide (cle a ≤ cle b)) = true := by
    intro a b
    rcases le_total (cle b) (cle a) with hle | hle
    · simp [hle]
    · simp [hle]
  exact (List.pairwise_mergeSort htrans htotal l).imp fun hle => of_decide_eq_true hle

omit [LinearOrder κ] in
theorem franche_zero (cles : List κ) : Franche cles 0 := by
  intro hpos
  omega

omit [LinearOrder κ] in
theorem franche_length (cles : List κ) : Franche cles cles.length := by
  intro _ hlt
  omega

theorem take_eq_filter (hl : Decroissant cle l) {i : Nat} (hi : i < l.length) (hpos : 0 < i)
    (h : cle l[i] ≠ cle l[i - 1]) : l.take i = l.filter fun e => cle l[i] < cle e := by
  have hlt : cle l[i] < cle l[i - 1] :=
    lt_of_le_of_ne (cle_getElem_le hl (by omega) (by omega) hi) h
  have htake : (l.take i).filter (fun e => cle l[i] < cle e) = l.take i := by
    rw [List.filter_eq_self]
    intro e he
    obtain ⟨j, hj, rfl⟩ := List.mem_iff_getElem.mp he
    rw [List.length_take] at hj
    rw [List.getElem_take, decide_eq_true_eq]
    exact lt_of_lt_of_le hlt (cle_getElem_le hl (by omega) (by omega) (by omega))
  have hdrop : (l.drop i).filter (fun e => cle l[i] < cle e) = [] := by
    rw [List.filter_eq_nil_iff]
    intro e he
    obtain ⟨j, hj, rfl⟩ := List.mem_iff_getElem.mp he
    rw [List.length_drop] at hj
    rw [List.getElem_drop, decide_eq_true_eq, not_lt]
    exact cle_getElem_le hl (by omega) hi (by omega)
  calc l.take i
      = (l.take i).filter (fun e => cle l[i] < cle e) ++
          (l.drop i).filter (fun e => cle l[i] < cle e) := by rw [htake, hdrop, List.append_nil]
    _ = l.filter fun e => cle l[i] < cle e := by rw [← List.filter_append, List.take_append_drop]

theorem take_perm (hl : Decroissant cle l) (hl' : Decroissant cle l') (h : l'.Perm l) {i : Nat}
    (hfranche : Franche (l.map cle) i) : (l'.take i).Perm (l.take i) := by
  have hlen : l'.length = l.length := h.length_eq
  by_cases hpos : 0 < i
  · by_cases hi : i < l.length
    · have hcles := cles_eq hl hl' h
      have hcle : ∀ j, ∀ (hj : j < l.length) (hj' : j < l'.length), cle l'[j] = cle l[j] := by
        intro j hj hj'
        have heq : (l'.map cle)[j]? = (l.map cle)[j]? := by rw [hcles]
        simpa [hj, hj'] using heq
      have hne : cle l[i] ≠ cle l[i - 1] := by
        have := hfranche hpos (by simpa using hi)
        simpa using this
      have hne' : cle (l'.get ⟨i, by omega⟩) ≠ cle (l'.get ⟨i - 1, by omega⟩) := by
        simp only [List.get_eq_getElem]
        rw [hcle i hi (by omega), hcle (i - 1) (by omega) (by omega)]
        exact hne
      rw [take_eq_filter hl hi hpos hne, take_eq_filter hl' (by omega) hpos hne',
        hcle i hi (by omega)]
      exact h.filter _
    · rw [List.take_of_length_le (by omega), List.take_of_length_le (by omega)]
      exact h
  · have hzero : i = 0 := by omega
    subst hzero
    simp

theorem tranche_perm (hl : Decroissant cle l) (hl' : Decroissant cle l') (h : l'.Perm l)
    {a b : Nat} (hab : a ≤ b) (ha : Franche (l.map cle) a) (hb : Franche (l.map cle) b) :
    (tranche l' a b).Perm (tranche l a b) := by
  have hsplit : ∀ m : List α, m.take b = m.take a ++ tranche m a b := by
    intro m
    have hta : m.take a = (m.take b).take a := by rw [List.take_take, Nat.min_eq_left hab]
    rw [hta, tranche, List.take_append_drop]
  have htake := take_perm hl hl' h hb
  rw [hsplit l', hsplit l] at htake
  have hdebut := take_perm hl hl' h ha
  exact (List.perm_append_left_iff _).mp ((hdebut.symm.append_right _).trans htake)

theorem exists_echange (hl : Decroissant cle l) {i : Nat} (hi : i < l.length) (hpos : 0 < i)
    (h : cle l[i] = cle l[i - 1]) :
    ∃ l' : List α, l'.Perm l ∧ Decroissant cle l' ∧
      l'[i - 1]? = some l[i] ∧ l'[i]? = some l[i - 1] := by
  have hpred : i - 1 < l.length := by omega
  have hcles : ((l.set (i - 1) l[i]).set i l[i - 1]).map cle = l.map cle := by
    apply List.ext_getElem
    · simp
    · intro j hj hj'
      simp only [List.getElem_map, List.getElem_set]
      split
      · next hij =>
          subst hij
          exact h.symm
      · split
        · next hij =>
            subst hij
            exact h
        · rfl
  refine ⟨(l.set (i - 1) l[i]).set i l[i - 1], List.set_set_perm hpred hi, ?_, ?_, ?_⟩
  · unfold Decroissant
    rw [← List.pairwise_map (R := fun a b : κ => b ≤ a), hcles, List.pairwise_map]
    exact hl
  · rw [List.getElem?_set_ne (by omega), List.getElem?_set_self hpred]
  · rw [List.getElem?_set_self (by simpa using hi)]

theorem mem_tranche_of_getElem? {a b i : Nat} {x : α} (h : l[i]? = some x) (ha : a ≤ i)
    (hb : i < b) : x ∈ tranche l a b := by
  obtain ⟨hi, hx⟩ := List.getElem?_eq_some_iff.mp h
  exact mem_tranche.mpr ⟨i, hi, ha, hb, hx⟩

theorem entre_of_mem_tranche (hnodup : l.Nodup) {a b i : Nat} (hi : i < l.length)
    (h : l[i] ∈ tranche l a b) : a ≤ i ∧ i < b := by
  obtain ⟨j, hj, ha, hb, heq⟩ := mem_tranche.mp h
  have hij : j = i := (List.Nodup.getElem_inj_iff hnodup).mp heq
  omega

theorem memes_tranches_iff (hl : Decroissant cle l) (hnodup : l.Nodup) {a b a' b' : Nat}
    (hb : b ≤ l.length) (hb' : b' ≤ l.length) :
    (∀ l' : List α, l'.Perm l → Decroissant cle l' →
        Memes cle (tranche l a b) (tranche l' a' b')) ↔
      (b ≤ a ∧ b' ≤ a') ∨
        (a = a' ∧ b = b' ∧ Franche (l.map cle) a ∧ Franche (l.map cle) b) := by
  constructor
  · intro h
    have hsame := h l (List.Perm.refl l) hl
    have hlen := hsame.1.length_eq
    rw [length_tranche l a b hb, length_tranche l a' b' hb'] at hlen
    by_cases hvide : b ≤ a
    · left
      omega
    · right
      have haa' : a = a' := by
        have hmem : l[a] ∈ tranche l a' b' :=
          hsame.1.mem_iff.mp (mem_tranche.mpr ⟨a, by omega, by omega, by omega, rfl⟩)
        have hmem' : l[a'] ∈ tranche l a b :=
          hsame.1.mem_iff.mpr (mem_tranche.mpr ⟨a', by omega, by omega, by omega, rfl⟩)
        have h₁ := entre_of_mem_tranche hnodup (by omega) hmem
        have h₂ := entre_of_mem_tranche hnodup (by omega) hmem'
        omega
      have hbb' : b = b' := by omega
      subst haa' hbb'
      refine ⟨rfl, rfl, ?_, ?_⟩
      · intro hpos ha heq
        rw [List.length_map] at ha
        rw [List.getElem_map, List.getElem_map] at heq
        obtain ⟨l', hperm, hdecr, _, hech⟩ := exists_echange hl ha hpos heq
        have hmem : l[a - 1] ∈ tranche l' a b :=
          mem_tranche_of_getElem? hech (Nat.le_refl a) (by omega)
        have hmem' := entre_of_mem_tranche hnodup (by omega)
          ((h l' hperm hdecr).1.mem_iff.mpr hmem)
        omega
      · intro hpos hb'' heq
        rw [List.length_map] at hb''
        rw [List.getElem_map, List.getElem_map] at heq
        obtain ⟨l', hperm, hdecr, hech, _⟩ := exists_echange hl hb'' hpos heq
        have hmem : l[b] ∈ tranche l' a b := mem_tranche_of_getElem? hech (by omega) (by omega)
        have hmem' := entre_of_mem_tranche hnodup (by omega)
          ((h l' hperm hdecr).1.mem_iff.mpr hmem)
        omega
  · intro h l' hperm hdecr
    rcases h with ⟨hvide, hvide'⟩ | ⟨rfl, rfl, ha, hb⟩
    · rw [tranche_vide hvide, tranche_vide hvide']
      exact ⟨List.Perm.refl _, rfl⟩
    · by_cases hab : a ≤ b
      · refine ⟨(tranche_perm hl hdecr hperm hab ha hb).symm, ?_⟩
        simp only [tranche, List.map_drop, List.map_take, cles_eq hl hdecr hperm]
      · rw [tranche_vide (by omega), tranche_vide (by omega)]
        exact ⟨List.Perm.refl _, rfl⟩

end Ordre

end Hermes.Lib.Page
