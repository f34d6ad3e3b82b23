import Hermes.Lib.Dict

/-! # Bounded caches

An ordered dictionary in front of something larger. Over its bound it lets go of the oldest
entries among those that may leave, and stays over the bound when too few may.
-/

namespace Hermes.Lib.Cache

variable {κ ν : Type*} [DecidableEq κ]

def boucle (libre : ν → Bool) (maximum : Int) : List (κ × ν) → Dict κ ν → Dict κ ν
  | [], cache => cache
  | (k, v) :: items, cache =>
      if (cache.length : Int) ≤ maximum then cache
      else if libre v then boucle libre maximum items (cache.erase k)
      else boucle libre maximum items cache

def evincer (libre : ν → Bool) (maximum : Int) (cache : Dict κ ν) : Dict κ ν :=
  if (cache.length : Int) ≤ maximum then cache else boucle libre maximum cache cache

variable {libre : ν → Bool} {maximum : Int} {cache : Dict κ ν} {k : κ} {v : ν}

theorem sublist_boucle (libre : ν → Bool) (maximum : Int) (items : List (κ × ν))
    (cache : Dict κ ν) : (boucle libre maximum items cache).Sublist cache := by
  induction items generalizing cache with
  | nil => exact .refl cache
  | cons item items ih =>
      obtain ⟨k, v⟩ := item
      unfold boucle
      split_ifs
      · exact .refl cache
      · exact (ih _).trans List.filter_sublist
      · exact ih cache

theorem get?_boucle {items : List (κ × ν)} (hitems : ∀ v, (k, v) ∈ items → libre v = false)
    (cache : Dict κ ν) : (boucle libre maximum items cache).get? k = cache.get? k := by
  induction items generalizing cache with
  | nil => rfl
  | cons item items ih =>
      obtain ⟨k', v'⟩ := item
      have hrest := ih fun v hv => hitems v (List.mem_cons_of_mem _ hv)
      unfold boucle
      split_ifs with hborne hlibre
      · rfl
      · have hne : k ≠ k' := by
          rintro rfl
          rw [hitems v' List.mem_cons_self] at hlibre
          cases hlibre
        rw [hrest, Dict.get?_erase, if_neg hne]
      · exact hrest cache

theorem sublist_evincer (libre : ν → Bool) (maximum : Int) (cache : Dict κ ν) :
    (evincer libre maximum cache).Sublist cache := by
  unfold evincer
  split
  · exact .refl _
  · exact sublist_boucle _ _ _ _

theorem nodup_evincer (h : cache.keys.Nodup) : (evincer libre maximum cache).keys.Nodup :=
  h.sublist ((sublist_evincer libre maximum cache).map Prod.fst)

theorem get?_of_evincer (h : cache.keys.Nodup)
    (hget : (evincer libre maximum cache).get? k = some v) : cache.get? k = some v :=
  Dict.get?_of_mem h ((sublist_evincer libre maximum cache).subset (Dict.mem_of_get? hget))

theorem get?_evincer (h : cache.keys.Nodup) (hget : cache.get? k = some v)
    (hv : libre v = false) : (evincer libre maximum cache).get? k = some v := by
  unfold evincer
  split
  · exact hget
  · rw [← hget]
    apply get?_boucle
    intro v' hmem
    have hsame : some v' = some v := by rw [← Dict.get?_of_mem h hmem, hget]
    cases hsame
    exact hv

/-- `sequence[:n]`. -/
def prefixe {α : Type*} (n : Int) (l : List α) : List α :=
  if 0 ≤ n then l.take n.toNat else l.take (l.length - n.natAbs)

theorem mem_prefixe {α : Type*} {n : Int} {l : List α} {a : α} (h : a ∈ prefixe n l) : a ∈ l := by
  unfold prefixe at h
  split at h <;> exact List.mem_of_mem_take h

end Hermes.Lib.Cache
