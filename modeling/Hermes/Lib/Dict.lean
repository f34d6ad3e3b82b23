import Mathlib.Algebra.Ring.Int.Defs
import Mathlib.Data.List.Nodup

/-! # Insertion-ordered dictionaries

A dictionary is the list of its items in insertion order. Assigning an existing key keeps its
position, assigning a new key appends it.
-/

namespace Hermes.Lib

abbrev Dict (κ ν : Type*) := List (κ × ν)

namespace Dict

variable {κ ν : Type*} [DecidableEq κ]

def get? (d : Dict κ ν) (k : κ) : Option ν := d.lookup k

def getD (d : Dict κ ν) (k : κ) (default : ν) : ν := (d.get? k).getD default

def keys (d : Dict κ ν) : List κ := d.map Prod.fst

/-- `d[k] = v`: in place for a known key, at the end for a new one. -/
def set : Dict κ ν → κ → ν → Dict κ ν
  | [], k, v => [(k, v)]
  | (k', v') :: d, k, v => if k' = k then (k, v) :: d else (k', v') :: set d k v

/-- `d.setdefault(k, v)`: only a new key is written. -/
def setDefault (d : Dict κ ν) (k : κ) (v : ν) : Dict κ ν :=
  if (d.get? k).isSome then d else d.set k v

omit [DecidableEq κ] in
private theorem beq_false_of_ne [DecidableEq κ] {a b : κ} (h : a ≠ b) : (a == b) = false := by
  simp [h]

theorem get?_cons (d : Dict κ ν) (k k' : κ) (v : ν) :
    Dict.get? ((k', v) :: d) k = if k = k' then some v else d.get? k := by
  by_cases h : k = k'
  · subst h
    simp [get?]
  · simp [get?, List.lookup_cons, h, beq_false_of_ne h]

@[simp] theorem getD_nil (k : κ) (default : ν) : getD ([] : Dict κ ν) k default = default := rfl

theorem getD_cons (d : Dict κ ν) (k k' : κ) (v default : ν) :
    getD ((k', v) :: d) k default = if k = k' then v else d.getD k default := by
  rw [getD, get?_cons]
  split <;> rfl

theorem set_nil (k : κ) (v : ν) : set [] k v = [(k, v)] := rfl

theorem set_cons (d : Dict κ ν) (k k' : κ) (v v' : ν) :
    set ((k', v') :: d) k v = if k' = k then (k, v) :: d else (k', v') :: set d k v := rfl

theorem get?_set (d : Dict κ ν) (k k' : κ) (v : ν) :
    (d.set k v).get? k' = if k' = k then some v else d.get? k' := by
  induction d with
  | nil =>
      show Dict.get? [(k, v)] k' = _
      rw [get?_cons]
  | cons item d ih =>
      obtain ⟨k₀, v₀⟩ := item
      by_cases h : k₀ = k
      · subst h
        simp only [set_cons, if_true, get?_cons]
        split <;> rfl
      · simp only [set_cons, h, if_false, get?_cons, ih]
        by_cases h' : k' = k₀
        · subst h'
          simp [h]
        · simp [h']

@[simp] theorem get?_set_self (d : Dict κ ν) (k : κ) (v : ν) : (d.set k v).get? k = some v := by
  simp [get?_set]

theorem getD_set (d : Dict κ ν) (k k' : κ) (v default : ν) :
    (d.set k v).getD k' default = if k' = k then v else d.getD k' default := by
  simp only [getD, get?_set]
  split <;> rfl

theorem getD_setDefault (d : Dict κ ν) (k k' : κ) (v : ν) :
    (d.setDefault k v).getD k' v = d.getD k' v := by
  unfold setDefault
  split
  · rfl
  · next h =>
      rw [getD_set]
      split
      · next heq =>
          subst heq
          have hnone : d.get? k' = none := by simpa using h
          simp [getD, hnone]
      · rfl

theorem keys_set (d : Dict κ ν) (k : κ) (v : ν) (x : κ) :
    x ∈ (d.set k v).keys ↔ x = k ∨ x ∈ d.keys := by
  induction d with
  | nil => simp [set_nil, keys]
  | cons item d ih =>
      obtain ⟨k₀, v₀⟩ := item
      by_cases h : k₀ = k
      · subst h
        simp [set_cons, keys]
      · have ih' : x ∈ (Dict.set d k v).map Prod.fst ↔ x = k ∨ x ∈ d.map Prod.fst := ih
        simp only [set_cons, h, if_false, keys, List.map_cons, List.mem_cons, ih']
        exact or_left_comm

theorem mem_of_mem_set {d : Dict κ ν} {k : κ} {v : ν} {item : κ × ν} (h : item ∈ d.set k v) :
    item = (k, v) ∨ item ∈ d := by
  induction d with
  | nil => simpa [set_nil] using h
  | cons first d ih =>
      obtain ⟨k₀, v₀⟩ := first
      by_cases hk : k₀ = k
      · simp only [set_cons, hk, if_true, List.mem_cons] at h
        exact h.imp_right (List.mem_cons_of_mem _)
      · simp only [set_cons, hk, if_false, List.mem_cons] at h
        rcases h with rfl | h
        · exact .inr List.mem_cons_self
        · exact (ih h).imp_right (List.mem_cons_of_mem _)

theorem set_of_notMem {d : Dict κ ν} {k : κ} (h : k ∉ d.keys) (v : ν) :
    d.set k v = d ++ [(k, v)] := by
  induction d with
  | nil => rfl
  | cons first d ih =>
      obtain ⟨k₀, v₀⟩ := first
      simp only [keys, List.map_cons, List.mem_cons, not_or] at h
      simp [set_cons, Ne.symm h.1, ih h.2]

theorem set_of_get? {d : Dict κ ν} {k : κ} {v : ν} (h : d.get? k = some v) : d.set k v = d := by
  induction d with
  | nil => cases h
  | cons first d ih =>
      obtain ⟨k₀, v₀⟩ := first
      rw [get?_cons] at h
      rw [set_cons]
      split
      · next heq =>
          rw [if_pos heq.symm] at h
          rw [heq, Option.some.inj h]
      · next hne =>
          rw [if_neg (Ne.symm hne)] at h
          rw [ih h]

theorem set_of_mem {d : Dict κ ν} (hnodup : d.keys.Nodup) {k : κ} (h : k ∈ d.keys) (v : ν) :
    d.set k v = d.map fun item => if item.1 = k then (k, v) else item := by
  induction d with
  | nil => cases h
  | cons first d ih =>
      obtain ⟨k₀, v₀⟩ := first
      obtain ⟨hnot, hrest⟩ := List.nodup_cons.mp hnodup
      by_cases hk : k₀ = k
      · subst hk
        have hsame : d.map (fun item => if item.1 = k₀ then (k₀, v) else item) = d.map id := by
          apply List.map_congr_left
          intro item hitem
          rw [if_neg]
          · rfl
          · intro heq
            exact hnot (List.mem_map.mpr ⟨item, hitem, heq⟩)
        simp [set_cons, hsame]
      · have hmem : k ∈ keys d := by
          rcases List.mem_cons.mp h with heq | hmem
          · exact absurd heq.symm hk
          · exact hmem
        simp [set_cons, hk, ih hrest hmem]

theorem keys_set_of_mem {d : Dict κ ν} {k : κ} (h : k ∈ d.keys) (v : ν) :
    (d.set k v).keys = d.keys := by
  induction d with
  | nil => cases h
  | cons item d ih =>
      rw [set_cons]
      split
      · next heq => rw [keys, List.map_cons, keys, List.map_cons, heq]
      · next hne =>
          rw [keys, List.map_cons] at h
          rcases List.mem_cons.mp h with heq | hmem
          · exact absurd heq.symm hne
          · rw [keys, List.map_cons, keys, List.map_cons]
            exact congrArg (item.1 :: ·) (ih hmem)

theorem length_set (d : Dict κ ν) (k : κ) (v : ν) :
    (d.set k v).length = if k ∈ d.keys then d.length else d.length + 1 := by
  induction d with
  | nil => simp [set_nil, keys]
  | cons first d ih =>
      obtain ⟨k₀, v₀⟩ := first
      by_cases hk : k₀ = k
      · subst hk
        simp [set_cons, keys]
      · have hmem : k ∈ keys ((k₀, v₀) :: d) ↔ k ∈ keys d := by
          simp [keys, Ne.symm hk]
        simp only [set_cons, hk, if_false, List.length_cons, ih, hmem]
        split <;> rfl

theorem sum_map_set_le {d : Dict κ ν} (f : κ × ν → Int) (hf : ∀ item ∈ d, 0 ≤ f item) (k : κ)
    (v : ν) : ((d.set k v).map f).sum ≤ (d.map f).sum + f (k, v) := by
  induction d with
  | nil => simp [set_nil]
  | cons first d ih =>
      obtain ⟨k₀, v₀⟩ := first
      have hfirst : 0 ≤ f (k₀, v₀) := hf _ List.mem_cons_self
      have hrest := ih fun item hitem => hf item (List.mem_cons_of_mem _ hitem)
      by_cases hk : k₀ = k
      · simp only [set_cons, hk, if_true, List.map_cons, List.sum_cons]
        rw [hk] at hfirst
        omega
      · simp only [set_cons, hk, if_false, List.map_cons, List.sum_cons]
        omega

theorem nodup_keys_set {d : Dict κ ν} (h : d.keys.Nodup) (k : κ) (v : ν) :
    (d.set k v).keys.Nodup := by
  induction d with
  | nil => simp [set_nil, keys]
  | cons item d ih =>
      obtain ⟨k₀, v₀⟩ := item
      obtain ⟨hnot, hrest⟩ := List.nodup_cons.mp h
      by_cases hk : k₀ = k
      · subst hk
        simpa [set_cons, keys] using h
      · simp only [set_cons, hk, if_false]
        refine List.nodup_cons.mpr ⟨?_, ih hrest⟩
        intro hmem
        rcases (keys_set d k v k₀).mp hmem with heq | hmem
        · exact hk heq
        · exact hnot hmem

theorem mem_keys_of_isSome {d : Dict κ ν} {k : κ} (h : (d.get? k).isSome) : k ∈ d.keys := by
  induction d with
  | nil => simp [get?] at h
  | cons item d ih =>
      obtain ⟨k₀, v₀⟩ := item
      rw [get?_cons] at h
      by_cases hk : k = k₀
      · simp [keys, hk]
      · rw [if_neg hk] at h
        exact List.mem_cons_of_mem _ (ih h)

theorem get?_eq_none {d : Dict κ ν} {k : κ} (h : k ∉ d.keys) : d.get? k = none := by
  by_contra hsome
  exact h (mem_keys_of_isSome (Option.isSome_iff_ne_none.mpr hsome))

theorem nodup_keys_setDefault {d : Dict κ ν} (h : d.keys.Nodup) (k : κ) (v : ν) :
    (d.setDefault k v).keys.Nodup := by
  unfold setDefault
  split
  · exact h
  · exact nodup_keys_set h k v

theorem mem_keys_setDefault (d : Dict κ ν) (k x : κ) (v : ν) :
    x ∈ (d.setDefault k v).keys ↔ x = k ∨ x ∈ d.keys := by
  unfold setDefault
  split
  · next h =>
      constructor
      · exact Or.inr
      · rintro (rfl | hx)
        · exact mem_keys_of_isSome h
        · exact hx
  · exact keys_set d k v x

theorem mem_of_get? {d : Dict κ ν} {k : κ} {v : ν} (h : d.get? k = some v) : (k, v) ∈ d := by
  induction d with
  | nil => simp [get?] at h
  | cons item d ih =>
      obtain ⟨k₀, v₀⟩ := item
      rw [get?_cons] at h
      by_cases hk : k = k₀
      · rw [if_pos hk] at h
        cases h
        simp [hk]
      · rw [if_neg hk] at h
        exact List.mem_cons_of_mem _ (ih h)

theorem get?_of_mem {d : Dict κ ν} (h : d.keys.Nodup) {k : κ} {v : ν} (hmem : (k, v) ∈ d) :
    d.get? k = some v := by
  induction d with
  | nil => simp at hmem
  | cons item d ih =>
      obtain ⟨k₀, v₀⟩ := item
      obtain ⟨hnot, hrest⟩ := List.nodup_cons.mp h
      rw [get?_cons]
      rcases List.mem_cons.mp hmem with heq | htail
      · cases heq
        simp
      · have hne : k ≠ k₀ := by
          intro heq
          subst heq
          exact hnot (List.mem_map.mpr ⟨(k, v), htail, rfl⟩)
        rw [if_neg hne]
        exact ih hrest htail

theorem get?_perm {d d' : Dict κ ν} (h : d.keys.Nodup) (hperm : d.Perm d') (k : κ) :
    d'.get? k = d.get? k := by
  have h' : d'.keys.Nodup := (hperm.map Prod.fst).nodup_iff.mp h
  cases hget : d.get? k with
  | some v => exact get?_of_mem h' (hperm.mem_iff.mp (mem_of_get? hget))
  | none =>
      cases hget' : d'.get? k with
      | none => rfl
      | some v =>
          rw [get?_of_mem h (hperm.mem_iff.mpr (mem_of_get? hget'))] at hget
          cases hget

omit [DecidableEq κ] in
theorem keys_filterMap_sublist {ν' : Type*} {f : κ × ν → Option (κ × ν')}
    (hf : ∀ item item', f item = some item' → item'.1 = item.1) (d : Dict κ ν) :
    (keys (d.filterMap f)).Sublist d.keys := by
  induction d with
  | nil => exact .slnil
  | cons item d ih =>
      cases hitem : f item with
      | none =>
          rw [List.filterMap_cons_none hitem]
          exact ih.cons _
      | some item' =>
          rw [List.filterMap_cons_some hitem]
          simp only [keys, List.map_cons, hf item item' hitem]
          exact ih.cons_cons _

theorem get?_map {ν' : Type*} (f : ν → ν') (d : Dict κ ν) (k : κ) :
    Dict.get? (d.map fun item => (item.1, f item.2)) k = (d.get? k).map f := by
  induction d with
  | nil => rfl
  | cons item d ih =>
      obtain ⟨k₀, v₀⟩ := item
      rw [List.map_cons, get?_cons, get?_cons, ih]
      split <;> rfl

theorem isSome_get? {d : Dict κ ν} {k : κ} : (d.get? k).isSome ↔ k ∈ d.keys := by
  constructor
  · exact mem_keys_of_isSome
  · intro h
    by_contra hnone
    induction d with
    | nil => cases h
    | cons item d ih =>
        obtain ⟨k₀, v₀⟩ := item
        rw [get?_cons] at hnone
        split at hnone
        · exact hnone rfl
        · next hne =>
            rcases List.mem_cons.mp h with heq | h
            · exact hne heq
            · exact ih h hnone

def update (d items : Dict κ ν) : Dict κ ν :=
  items.foldl (fun d item => d.set item.1 item.2) d

@[simp] theorem update_nil (d : Dict κ ν) : d.update [] = d := rfl

theorem update_cons (d : Dict κ ν) (item : κ × ν) (items : Dict κ ν) :
    d.update (item :: items) = (d.set item.1 item.2).update items := rfl

theorem mem_of_mem_update {d items : Dict κ ν} {item : κ × ν} (h : item ∈ d.update items) :
    item ∈ d ∨ item ∈ items := by
  induction items generalizing d with
  | nil => exact .inl h
  | cons first items ih =>
      rcases ih h with h | h
      · rcases mem_of_mem_set h with rfl | h
        · exact .inr List.mem_cons_self
        · exact .inl h
      · exact .inr (List.mem_cons_of_mem _ h)

theorem nodup_keys_update {d : Dict κ ν} (h : d.keys.Nodup) (items : Dict κ ν) :
    (d.update items).keys.Nodup := by
  induction items generalizing d with
  | nil => exact h
  | cons item items ih => exact ih (nodup_keys_set h _ _)

theorem get?_update_of_notMem {d items : Dict κ ν} {k : κ} (h : k ∉ items.keys) :
    (d.update items).get? k = d.get? k := by
  induction items generalizing d with
  | nil => rfl
  | cons item items ih =>
      simp only [keys, List.map_cons, List.mem_cons, not_or] at h
      rw [update_cons, ih h.2, get?_set, if_neg h.1]

theorem get?_update_of_mem {d items : Dict κ ν} (hnodup : items.keys.Nodup) {k : κ} {v : ν}
    (h : (k, v) ∈ items) : (d.update items).get? k = some v := by
  induction items generalizing d with
  | nil => cases h
  | cons item items ih =>
      obtain ⟨hnot, hrest⟩ := List.nodup_cons.mp hnodup
      rcases List.mem_cons.mp h with rfl | h
      · rw [update_cons, get?_update_of_notMem hnot, get?_set_self]
      · exact ih hrest h

theorem update_append (d items : Dict κ ν) (h : (d ++ items).keys.Nodup) :
    d.update items = d ++ items := by
  induction items generalizing d with
  | nil => simp
  | cons item items ih =>
      obtain ⟨k, v⟩ := item
      have hnot : k ∉ d.keys := by
        intro hmem
        rw [keys, List.map_append, List.map_cons] at h
        exact (List.nodup_append.mp h).2.2 k hmem k List.mem_cons_self rfl
      have hcons : d ++ (k, v) :: items = (d ++ [(k, v)]) ++ items := by simp
      rw [update_cons, set_of_notMem hnot, hcons]
      exact ih _ (hcons ▸ h)

/-- `d.pop(k, None)`. -/
def erase (d : Dict κ ν) (k : κ) : Dict κ ν := d.filter fun item => item.1 ≠ k

/-- `d[k] = v` followed by `d.move_to_end(k)`. -/
def setLast (d : Dict κ ν) (k : κ) (v : ν) : Dict κ ν := d.erase k ++ [(k, v)]

/-- `while len(d) > n: d.popitem(last=False)`. -/
def keepLast (d : Dict κ ν) (n : Nat) : Dict κ ν := d.drop (d.length - n)

theorem mem_erase {d : Dict κ ν} {k : κ} {item : κ × ν} :
    item ∈ d.erase k ↔ item ∈ d ∧ item.1 ≠ k := by
  simp [erase]

theorem mem_setLast {d : Dict κ ν} {k : κ} {v : ν} {item : κ × ν} :
    item ∈ d.setLast k v ↔ (item ∈ d ∧ item.1 ≠ k) ∨ item = (k, v) := by
  simp [setLast, mem_erase]

theorem get?_append (d d' : Dict κ ν) (k : κ) :
    Dict.get? (d ++ d') k = (d.get? k).or (d'.get? k) :=
  List.lookup_append

theorem get?_erase (d : Dict κ ν) (k k' : κ) :
    (d.erase k).get? k' = if k' = k then none else d.get? k' := by
  induction d with
  | nil => simp [erase, get?]
  | cons item d ih =>
      obtain ⟨k₀, v₀⟩ := item
      have ih' : Dict.get? (d.filter fun item => item.1 ≠ k) k' = _ := ih
      by_cases h : k₀ = k
      · simp only [erase, h, List.filter_cons, ne_eq, not_true, decide_false, Bool.false_eq_true,
          if_false, get?_cons]
        rw [ih']
        split <;> rfl
      · simp only [erase, h, List.filter_cons, ne_eq, not_false_iff, decide_true, if_true,
          get?_cons]
        rw [ih']
        by_cases h' : k' = k₀
        · subst h'
          simp [h]
        · simp [h']

theorem get?_setLast (d : Dict κ ν) (k k' : κ) (v : ν) :
    (d.setLast k v).get? k' = if k' = k then some v else d.get? k' := by
  rw [setLast, get?_append, get?_erase, get?_cons]
  split
  · rfl
  · exact Option.or_none

theorem nodup_keys_erase {d : Dict κ ν} (h : d.keys.Nodup) (k : κ) : (d.erase k).keys.Nodup :=
  h.sublist (List.filter_sublist.map Prod.fst)

theorem erase_append_cons {d d' : Dict κ ν} {item : κ × ν} (h : keys (d ++ item :: d') |>.Nodup) :
    Dict.erase (d ++ item :: d') item.1 = d ++ d' := by
  have hperm : (keys (d ++ item :: d')).Perm (item.1 :: keys (d ++ d')) :=
    List.perm_middle.map Prod.fst
  have hitem : item.1 ∉ keys (d ++ d') := (List.nodup_cons.mp (hperm.nodup_iff.mp h)).1
  have hreste : ∀ autre ∈ d ++ d', autre.1 ≠ item.1 := fun autre hmem heq =>
    hitem (heq ▸ List.mem_map_of_mem hmem)
  rw [erase, List.filter_append, List.filter_cons_of_neg (by simp), ← List.filter_append]
  exact List.filter_eq_self.mpr fun autre hmem => by simpa using hreste autre hmem

theorem nodup_keys_setLast {d : Dict κ ν} (h : d.keys.Nodup) (k : κ) (v : ν) :
    (d.setLast k v).keys.Nodup := by
  have hkeys : (d.setLast k v).keys = (d.erase k).keys ++ [k] := by simp [setLast, keys]
  rw [hkeys]
  refine List.nodup_append.mpr ⟨nodup_keys_erase h k, List.nodup_singleton k, ?_⟩
  intro a ha b hb hab
  obtain ⟨item, hitem, rfl⟩ := List.mem_map.mp ha
  rw [List.mem_singleton.mp hb] at hab
  exact (mem_erase.mp hitem).2 hab

theorem get?_setDefault (d : Dict κ ν) (k k' : κ) (v : ν) :
    (d.setDefault k v).get? k' = (d.get? k').or (if k' = k then some v else none) := by
  unfold setDefault
  split
  · next h =>
      split
      · next hk =>
          subst hk
          obtain ⟨w, hw⟩ := Option.isSome_iff_exists.mp h
          simp [hw]
      · simp
  · next h =>
      rw [get?_set]
      split
      · next hk =>
          subst hk
          have hnone : d.get? k' = none := by simpa using h
          simp [hnone]
      · simp

theorem setLast_of_notMem {d : Dict κ ν} {k : κ} (h : k ∉ d.keys) (v : ν) :
    d.setLast k v = d ++ [(k, v)] := by
  have herase : d.erase k = d := by
    rw [erase, List.filter_eq_self]
    intro item hitem
    have hne : item.1 ≠ k := fun heq => h (heq ▸ List.mem_map_of_mem hitem)
    simpa using hne
  rw [setLast, herase]

theorem get?_keepLast_setLast (d : Dict κ ν) (k : κ) (v : ν) {n : Nat} (hn : 0 < n) :
    ((d.setLast k v).keepLast n).get? k = some v := by
  have hlen : (d.setLast k v).length - n ≤ (d.erase k).length := by
    simp only [setLast, List.length_append, List.length_singleton]
    omega
  have habsent : Dict.get? ((d.erase k).drop ((d.setLast k v).length - n)) k = none := by
    apply get?_eq_none
    intro hmem
    obtain ⟨item, hitem, hkey⟩ := List.mem_map.mp hmem
    exact (mem_erase.mp (List.mem_of_mem_drop hitem)).2 hkey
  have hsplit : (d.setLast k v).keepLast n =
      (d.erase k).drop ((d.setLast k v).length - n) ++ [(k, v)] :=
    List.drop_append_of_le_length hlen
  rw [hsplit, get?_append, habsent, Option.none_or, get?_cons, if_pos rfl]

end Dict

end Hermes.Lib
