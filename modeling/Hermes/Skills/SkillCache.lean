import Hermes.Lib.Dict
import Hermes.Lib.Flottant
import Mathlib.Data.List.MinMax

/-! # The cache of loaded skills

A put first makes room, and only then looks whether the skill is cached: on a full cache it
removes an entry even when it has nothing to add.
-/

namespace Hermes.Skills

open Lib Lib.Flottant

inductive CacheStrategy where
  | lru
  | ttl
  | priority
  | none
  deriving DecidableEq

structure SkillCacheEntry where
  skillId : String
  loadedAt : Int
  lastUsed : Int
  useCount : Nat
  ttlSeconds : Binaire
  priority : Int := 0
  deriving DecidableEq

structure SkillCache where
  maxSize : Nat := 50
  defaultTtl : Binaire := .fini 300
  entries : Dict String SkillCacheEntry := []
  strategy : CacheStrategy := .lru
  deriving DecidableEq

namespace SkillCache

/-- The successive values of `datetime.now`, by their rank. -/
abbrev Horloge := Nat → Int

variable (horloge : Horloge)

/-- `elapsed > entry.ttl_seconds` at a date, for an entry that has a limit. -/
def perimeeA (maintenant : Int) (entry : SkillCacheEntry) : Bool :=
  let elapsed := Binaire.proche (((maintenant - entry.lastUsed : Int) : Rat) / 1000000)
  !entry.ttlSeconds.le (.fini 0) && entry.ttlSeconds.lt elapsed

def isExpired (n : Nat) (entry : SkillCacheEntry) : Bool × Nat :=
  (perimeeA (horloge n) entry, if entry.ttlSeconds.le (.fini 0) then n else n + 1)

/-- The first expired entry, in the order of the entries. -/
def premierePerimee : Nat → List (String × SkillCacheEntry) → Option String × Nat
  | n, [] => (none, n)
  | n, (sid, entry) :: items =>
      let (perimee, n) := isExpired horloge n entry
      if perimee then (some sid, n) else premierePerimee n items

/-- The order of the levels and of the dates, as a computable one. -/
local instance : Preorder Int := Int.instLinearOrder.toPreorder

/-- `min` over the entries, the first one of the least value. -/
def selonStrategie (c : SkillCache) : Option String :=
  match c.strategy with
  | .priority => (c.entries.argmin fun item => item.2.priority).map Prod.fst
  | _ => (c.entries.argmin fun item => item.2.lastUsed).map Prod.fst

/-- What `_evict_one` removes: the first expired entry, else that of the strategy. -/
def victime (n : Nat) (c : SkillCache) : Option String × Nat :=
  match premierePerimee horloge n c.entries with
  | (some sid, n) => (some sid, n)
  | (none, n) => (selonStrategie c, n)

def evictOne (n : Nat) (c : SkillCache) : SkillCache × Nat :=
  match victime horloge n c with
  | (some sid, n) => ({ c with entries := c.entries.erase sid }, n)
  | (none, n) => (c, n)

/-- `while len(entries) >= max_size`. `none` when the turns given do not end the loop. -/
def evictIfNeeded : Nat → Nat → SkillCache → Option (SkillCache × Nat)
  | 0, _, _ => none
  | tours + 1, n, c =>
      if c.maxSize ≤ c.entries.length then
        let (c, n) := evictOne horloge n c
        evictIfNeeded tours n c
      else some (c, n)

def utiliser (entry : SkillCacheEntry) (maintenant : Int) : SkillCacheEntry :=
  { entry with useCount := entry.useCount + 1, lastUsed := maintenant }

/-- What `put` does once there is room. -/
def poser (n : Nat) (c : SkillCache) (skillId : String) (ttl : Option Binaire) :
    SkillCache × Nat :=
  match c.entries.get? skillId with
  | some entry =>
      ({ c with entries := c.entries.set skillId (utiliser entry (horloge n)) }, n + 1)
  | none =>
      let entry : SkillCacheEntry :=
        { skillId
          loadedAt := horloge n
          lastUsed := horloge (n + 1)
          useCount := 1
          ttlSeconds := ttl.getD c.defaultTtl }
      ({ c with entries := c.entries.set skillId entry }, n + 2)

def put (tours n : Nat) (c : SkillCache) (skillId : String) (ttl : Option Binaire) :
    Option (SkillCache × Nat) :=
  (evictIfNeeded horloge tours n c).map fun (c, n) => poser horloge n c skillId ttl

def get (n : Nat) (c : SkillCache) (skillId : String) :
    SkillCache × Nat × Option SkillCacheEntry :=
  match c.entries.get? skillId with
  | none => (c, n, none)
  | some entry =>
      let (perimee, n) := isExpired horloge n entry
      if perimee then ({ c with entries := c.entries.erase skillId }, n, none)
      else
        let entry := utiliser entry (horloge n)
        ({ c with entries := c.entries.set skillId entry }, n + 1, some entry)

def evict (c : SkillCache) (skillId : String) : SkillCache × Bool :=
  ({ c with entries := c.entries.erase skillId }, (c.entries.get? skillId).isSome)

def perimees : Nat → List (String × SkillCacheEntry) → List String × Nat
  | n, [] => ([], n)
  | n, (sid, entry) :: items =>
      let (perimee, n) := isExpired horloge n entry
      let (suite, n) := perimees n items
      (if perimee then sid :: suite else suite, n)

def invalidate (n : Nat) (c : SkillCache) : SkillCache × Nat × Nat :=
  let (expired, n) := perimees horloge n c.entries
  ({ c with entries := expired.foldl Dict.erase c.entries }, n, expired.length)

def clear (c : SkillCache) : SkillCache × Nat := ({ c with entries := [] }, c.entries.length)

inductive Operation where
  | put (skillId : String) (ttl : Option Binaire)
  | get (skillId : String)
  | evict (skillId : String)
  | invalidate
  | clear
  | setStrategy (strategy : CacheStrategy)
  deriving DecidableEq

/-- The cache, the rank of the next reading of the clock, and beside them, kept by nobody in the
code, the date at which each skill was last put or found. -/
structure Etat where
  cache : SkillCache
  lectures : Nat := 0
  usages : Dict String Int := []
  deriving DecidableEq

def Etat.appliquer (tours : Nat) (e : Etat) : Operation → Option Etat
  | .put skillId ttl =>
      (put horloge tours e.lectures e.cache skillId ttl).map fun (cache, lectures) =>
        { cache, lectures, usages := e.usages.set skillId (horloge (lectures - 1)) }
  | .get skillId =>
      let (cache, lectures, entry) := get horloge e.lectures e.cache skillId
      some
        { cache, lectures
          usages :=
            if entry.isSome then e.usages.set skillId (horloge (lectures - 1)) else e.usages }
  | .evict skillId => some { e with cache := (evict e.cache skillId).1 }
  | .invalidate =>
      let (cache, lectures, _) := invalidate horloge e.lectures e.cache
      some { e with cache, lectures }
  | .clear => some { e with cache := (clear e.cache).1 }
  | .setStrategy strategy => some { e with cache := { e.cache with strategy } }

/-- The state after some operations, when each has ended within the turns given to its loop. -/
def Etat.apres (tours : Nat) (e : Etat) : List Operation → Option Etat
  | [] => some e
  | operation :: operations =>
      (e.appliquer horloge tours operation).bind fun e => e.apres tours operations

/-- The empty cache that `__init__` builds, under any strategy. -/
def depart (maxSize : Nat) (defaultTtl : Binaire) (strategy : CacheStrategy) : Etat :=
  { cache := { maxSize, defaultTtl, strategy } }

def Retiree (e e' : Etat) (skillId : String) : Prop :=
  skillId ∈ e.cache.entries.keys ∧ skillId ∉ e'.cache.entries.keys

/-- No entry is expired at a date that the operation reads. -/
def SansPerimee (e e' : Etat) : Prop :=
  ∀ n, e.lectures ≤ n → n < e'.lectures → ∀ item ∈ e.cache.entries, perimeeA (horloge n) item.2 = false

structure Correcte (e : Etat) (operation : Operation) : Prop where
  termine : ∃ tours e', e.appliquer horloge tours operation = some e'
  taille : ∀ tours e', e.appliquer horloge tours operation = some e' →
    e'.cache.entries.length ≤ e'.cache.maxSize
  autres : ∀ tours e' skillId ttl, e.appliquer horloge tours operation = some e' →
    operation = .put skillId ttl → skillId ∈ e.cache.entries.keys →
      ∀ autre, Retiree e e' autre → autre = skillId
  ancienne : ∀ tours e' skillId ttl, e.appliquer horloge tours operation = some e' →
    operation = .put skillId ttl → skillId ∉ e.cache.entries.keys → e.cache.strategy = .lru →
      SansPerimee horloge e e' → ∀ retiree, Retiree e e' retiree →
        (∃ d, e.usages.get? retiree = some d ∧
          ∀ autre ∈ e.cache.entries.keys, ∃ d', e.usages.get? autre = some d' ∧ d ≤ d') ∧
        ∀ autre, Retiree e e' autre → autre = retiree

/-- A put asks for a bound that is not zero, and, of a cached skill, for room in the cache, unless
the entry that would leave is its own. -/
def Permise (e : Etat) : Operation → Prop
  | .put skillId _ =>
      0 < e.cache.maxSize ∧
        (skillId ∈ e.cache.entries.keys →
          e.cache.entries.length < e.cache.maxSize ∨
            (victime horloge e.lectures e.cache).1 = some skillId)
  | _ => True

variable {horloge} {n n' : Nat} {c c' : SkillCache} {e e' : Etat} {skillId : String}

theorem le_isExpired (horloge : Horloge) (n : Nat) (entry : SkillCacheEntry) : n ≤ (isExpired horloge n entry).2 := by
  unfold isExpired
  dsimp only
  split_ifs <;> omega

theorem premierePerimee_cons (horloge : Horloge) (n : Nat) (item : String × SkillCacheEntry)
    (items : List (String × SkillCacheEntry)) :
    premierePerimee horloge n (item :: items) =
      if (isExpired horloge n item.2).1 then (some item.1, (isExpired horloge n item.2).2)
      else premierePerimee horloge (isExpired horloge n item.2).2 items := rfl

theorem le_premierePerimee (horloge : Horloge) (n : Nat) (items : List (String × SkillCacheEntry)) :
    n ≤ (premierePerimee horloge n items).2 := by
  induction items generalizing n with
  | nil => exact le_rfl
  | cons item items ih =>
      rw [premierePerimee_cons]
      split_ifs
      · exact le_isExpired horloge n item.2
      · exact (le_isExpired horloge n item.2).trans (ih _)

theorem mem_of_premierePerimee {items : List (String × SkillCacheEntry)}
    (h : (premierePerimee horloge n items).1 = some skillId) : skillId ∈ Dict.keys items := by
  induction items generalizing n with
  | nil => cases h
  | cons item items ih =>
      rw [premierePerimee_cons] at h
      split_ifs at h
      · exact List.mem_cons.mpr (Or.inl (Option.some.inj h).symm)
      · exact List.mem_cons_of_mem _ (ih h)

theorem premierePerimee_eq_none {items : List (String × SkillCacheEntry)}
    (hn' : (premierePerimee horloge n items).2 ≤ n')
    (hsaines : ∀ k, n ≤ k → k < n' → ∀ item ∈ items, perimeeA (horloge k) item.2 = false) :
    (premierePerimee horloge n items).1 = none := by
  induction items generalizing n with
  | nil => rfl
  | cons item items ih =>
      have hverdict : (isExpired horloge n item.2).1 = false := by
        by_cases hlimite : item.2.ttlSeconds.le (.fini 0)
        · simp [isExpired, perimeeA, hlimite]
        · have hlue : n + 1 ≤ n' := by
            have hsuite := le_premierePerimee horloge (n + 1) items
            simp only [premierePerimee_cons, isExpired, hlimite, Bool.false_eq_true,
              if_false] at hn'
            split_ifs at hn'
            · exact hn'
            · exact hsuite.trans hn'
          exact hsaines n le_rfl hlue item List.mem_cons_self
      rw [premierePerimee_cons, hverdict, if_neg Bool.false_ne_true] at hn' ⊢
      apply ih hn'
      intro k hk hk' autre hautre
      exact hsaines k ((le_isExpired horloge n item.2).trans hk) hk' autre (List.mem_cons_of_mem _ hautre)

theorem mem_of_selonStrategie (h : selonStrategie c = some skillId) :
    skillId ∈ c.entries.keys := by
  unfold selonStrategie at h
  split at h
  all_goals
    obtain ⟨item, hitem, rfl⟩ := Option.map_eq_some_iff.mp h
    exact List.mem_map_of_mem (List.argmin_mem hitem)

theorem mem_of_victime (h : (victime horloge n c).1 = some skillId) :
    skillId ∈ c.entries.keys := by
  unfold victime at h
  split at h
  · next sid k hperimee =>
    have hsome : (premierePerimee horloge n c.entries).1 = some skillId := by rw [hperimee, ← h]
    exact mem_of_premierePerimee hsome
  · exact mem_of_selonStrategie h

theorem exists_victime (horloge : Horloge) (n : Nat) (hplein : c.entries ≠ []) :
    ∃ skillId, (victime horloge n c).1 = some skillId := by
  unfold victime
  split
  · exact ⟨_, rfl⟩
  · apply Option.ne_none_iff_exists'.mp
    unfold selonStrategie
    split <;> simpa [List.argmin_eq_none] using hplein

theorem evictOne_eq (n : Nat) (c : SkillCache) :
    evictOne horloge n c =
      (match (victime horloge n c).1 with
        | some sid => { c with entries := c.entries.erase sid }
        | none => c,
        (victime horloge n c).2) := by
  unfold evictOne
  split <;> simp_all

theorem evictOne_sublist (n : Nat) (c : SkillCache) :
    (evictOne horloge n c).1.entries.Sublist c.entries := by
  rw [evictOne_eq]
  split
  · exact List.filter_sublist
  · exact List.Sublist.refl _

theorem evictOne_maxSize (n : Nat) (c : SkillCache) :
    (evictOne horloge n c).1.maxSize = c.maxSize := by
  rw [evictOne_eq]
  split <;> rfl

theorem evictOne_length_lt (n : Nat) (hplein : c.entries ≠ []) :
    (evictOne horloge n c).1.entries.length < c.entries.length := by
  obtain ⟨skillId, hvictime⟩ := exists_victime horloge n hplein
  obtain ⟨item, hitem, rfl⟩ := List.mem_map.mp (mem_of_victime hvictime)
  rw [evictOne_eq, hvictime]
  exact List.length_filter_lt_length_iff_exists.mpr ⟨item, hitem, by simp⟩

theorem evictIfNeeded_succ (horloge : Horloge) (tours n : Nat) (c : SkillCache) :
    evictIfNeeded horloge (tours + 1) n c =
      if c.maxSize ≤ c.entries.length then
        evictIfNeeded horloge tours (evictOne horloge n c).2 (evictOne horloge n c).1
      else some (c, n) := rfl

theorem evictIfNeeded_sound {tours : Nat}
    (h : evictIfNeeded horloge tours n c = some (c', n')) :
    c'.entries.Sublist c.entries ∧ c'.maxSize = c.maxSize ∧ c'.entries.length < c'.maxSize := by
  induction tours generalizing n c with
  | zero => cases h
  | succ tours ih =>
      rw [evictIfNeeded_succ] at h
      split_ifs at h with hplein
      · obtain ⟨hsub, hmax, hlen⟩ := ih h
        exact ⟨hsub.trans (evictOne_sublist n c), hmax.trans (evictOne_maxSize n c), hlen⟩
      · cases h
        exact ⟨List.Sublist.refl _, rfl, Nat.lt_of_not_le hplein⟩

theorem evictIfNeeded_zero (hmax : c.maxSize = 0) (tours : Nat) :
    evictIfNeeded horloge tours n c = none := by
  induction tours generalizing n c with
  | zero => rfl
  | succ tours ih =>
      rw [evictIfNeeded_succ, if_pos (by omega)]
      exact ih ((evictOne_maxSize n c).trans hmax)

def allege (horloge : Horloge) (n : Nat) (c : SkillCache) : SkillCache × Nat :=
  if c.entries.length < c.maxSize then (c, n) else evictOne horloge n c

theorem evictIfNeeded_eq (hmax : 0 < c.maxSize) (hlen : c.entries.length ≤ c.maxSize)
    (tours : Nat) : evictIfNeeded horloge (tours + 2) n c = some (allege horloge n c) := by
  rw [evictIfNeeded_succ, allege]
  by_cases hplein : c.maxSize ≤ c.entries.length
  · have hmoins : (evictOne horloge n c).1.entries.length < c.entries.length :=
      evictOne_length_lt n (List.ne_nil_of_length_pos (by omega))
    have hbas : ¬ (evictOne horloge n c).1.maxSize ≤ (evictOne horloge n c).1.entries.length := by
      rw [evictOne_maxSize]
      omega
    rw [if_pos hplein, if_neg (by omega), evictIfNeeded_succ, if_neg hbas]
  · rw [if_neg hplein, if_pos (by omega)]

theorem eq_allege {tours : Nat} (hlen : c.entries.length ≤ c.maxSize)
    (h : evictIfNeeded horloge tours n c = some (c', n')) : (c', n') = allege horloge n c := by
  have hmax : 0 < c.maxSize := by
    by_contra hzero
    rw [evictIfNeeded_zero (by omega)] at h
    cases h
  match tours with
  | 0 => cases h
  | 1 =>
      rw [evictIfNeeded_succ] at h
      split_ifs at h with hplein
      · cases h
      · cases h
        rw [allege, if_pos (by omega)]
  | tours + 2 =>
      rw [evictIfNeeded_eq hmax hlen] at h
      exact (Option.some.inj h).symm

section Poser

variable (horloge n c skillId) (ttl : Option Binaire)

theorem poser_maxSize : (poser horloge n c skillId ttl).1.maxSize = c.maxSize := by
  unfold poser
  split <;> rfl

theorem exists_poser :
    ∃ entry : SkillCacheEntry,
      (poser horloge n c skillId ttl).1.entries = c.entries.set skillId entry ∧
        entry.lastUsed = horloge ((poser horloge n c skillId ttl).2 - 1) := by
  unfold poser
  split
  · exact ⟨_, rfl, rfl⟩
  · exact ⟨_, rfl, rfl⟩

theorem le_poser : n ≤ (poser horloge n c skillId ttl).2 := by
  unfold poser
  split <;> dsimp only <;> omega

theorem mem_keys_poser (autre : String) :
    autre ∈ (poser horloge n c skillId ttl).1.entries.keys ↔
      autre = skillId ∨ autre ∈ c.entries.keys := by
  obtain ⟨entry, heq, -⟩ := exists_poser horloge n c skillId ttl
  rw [heq, Dict.keys_set]

theorem length_poser_le :
    (poser horloge n c skillId ttl).1.entries.length ≤ c.entries.length + 1 := by
  obtain ⟨entry, heq, -⟩ := exists_poser horloge n c skillId ttl
  rw [heq, Dict.length_set]
  split <;> omega

end Poser

structure Sain (e : Etat) : Prop where
  cles : e.cache.entries.keys.Nodup
  taille : e.cache.entries.length ≤ e.cache.maxSize
  usages : ∀ skillId entry, e.cache.entries.get? skillId = some entry →
    e.usages.get? skillId = some entry.lastUsed

theorem sain_depart (maxSize : Nat) (defaultTtl : Binaire) (strategy : CacheStrategy) :
    Sain (depart maxSize defaultTtl strategy) :=
  ⟨List.nodup_nil, Nat.zero_le _, by simp [depart, Dict.get?]⟩

theorem get?_sublist {entries entries' : Dict String SkillCacheEntry} (hcles : entries.keys.Nodup)
    (hsub : entries'.Sublist entries) {entry : SkillCacheEntry}
    (hget : entries'.get? skillId = some entry) : entries.get? skillId = some entry :=
  Dict.get?_of_mem hcles (hsub.subset (Dict.mem_of_get? hget))

theorem Sain.retirer (h : Sain e) (hsub : c'.entries.Sublist e.cache.entries)
    (hmax : c'.maxSize = e.cache.maxSize) :
    Sain { e with cache := c', lectures := n' } where
  cles := h.cles.sublist (hsub.map Prod.fst)
  taille := hsub.length_le.trans (h.taille.trans_eq hmax.symm)
  usages := fun skillId entry hget => h.usages skillId entry (get?_sublist h.cles hsub hget)

theorem Sain.utiliser (h : Sain e) (entry : SkillCacheEntry)
    (hset : c'.entries = e.cache.entries.set skillId entry)
    (htaille : c'.entries.length ≤ c'.maxSize) :
    Sain { cache := c', lectures := n', usages := e.usages.set skillId entry.lastUsed } where
  cles := by
    rw [hset]
    exact Dict.nodup_keys_set h.cles skillId entry
  taille := htaille
  usages := by
    intro sid autre hget
    change c'.entries.get? sid = some autre at hget
    rw [hset, Dict.get?_set] at hget
    rw [Dict.get?_set]
    split_ifs at hget ⊢ with hsid
    · rw [Option.some.inj hget]
    · exact h.usages sid autre hget

theorem appliquer_put {tours : Nat} {ttl : Option Binaire} :
    e.appliquer horloge tours (.put skillId ttl) = some e' ↔
      ∃ c' n', evictIfNeeded horloge tours e.lectures e.cache = some (c', n') ∧
        e' =
          { cache := (poser horloge n' c' skillId ttl).1
            lectures := (poser horloge n' c' skillId ttl).2
            usages :=
              e.usages.set skillId (horloge ((poser horloge n' c' skillId ttl).2 - 1)) } := by
  simp only [Etat.appliquer, put, Option.map_map, Option.map_eq_some_iff, Prod.exists,
    Function.comp_apply, eq_comm (a := e')]

theorem sublist_invalidate (n : Nat) (c : SkillCache) :
    (invalidate horloge n c).1.entries.Sublist c.entries := by
  unfold invalidate
  dsimp only
  generalize (perimees horloge n c.entries).1 = sids
  generalize c.entries = entries
  induction sids generalizing entries with
  | nil => exact List.Sublist.refl _
  | cons sid sids ih => exact (ih _).trans List.filter_sublist

theorem Sain.appliquer (h : Sain e) {tours : Nat} {operation : Operation}
    (happlique : e.appliquer horloge tours operation = some e') : Sain e' := by
  cases operation with
  | put skillId ttl =>
      obtain ⟨c', n', hplace, rfl⟩ := appliquer_put.mp happlique
      obtain ⟨hsub, hmax, hlen⟩ := evictIfNeeded_sound hplace
      have hallege : Sain { e with cache := c', lectures := n' } := h.retirer hsub hmax
      obtain ⟨entry, hset, hdate⟩ := exists_poser horloge n' c' skillId ttl
      have htaille := length_poser_le horloge n' c' skillId ttl
      rw [← hdate]
      apply hallege.utiliser entry hset
      rw [poser_maxSize]
      omega
  | get skillId =>
      cases hget : e.cache.entries.get? skillId with
      | none =>
          simp only [Etat.appliquer, get, hget, Option.some.injEq] at happlique
          rw [← happlique]
          exact h
      | some entry =>
          have hpresent : skillId ∈ e.cache.entries.keys := Dict.isSome_get?.mp (by simp [hget])
          simp only [Etat.appliquer, get, hget] at happlique
          by_cases hperimee : (isExpired horloge e.lectures entry).1
          · simp only [hperimee, if_true, Option.some.injEq] at happlique
            rw [← happlique]
            exact h.retirer List.filter_sublist rfl
          · simp only [hperimee, Bool.false_eq_true, if_false, Option.some.injEq] at happlique
            rw [← happlique]
            apply h.utiliser (SkillCache.utiliser entry _) rfl
            dsimp only
            rw [Dict.length_set, if_pos hpresent]
            exact h.taille
  | evict skillId =>
      cases happlique
      exact h.retirer List.filter_sublist rfl
  | invalidate =>
      cases happlique
      exact h.retirer (sublist_invalidate e.lectures e.cache) rfl
  | clear =>
      cases happlique
      exact h.retirer (List.nil_sublist _) rfl
  | setStrategy strategy =>
      cases happlique
      exact h.retirer (List.Sublist.refl _) rfl

theorem sain_apres {tours : Nat} {operations : List Operation} (h : Sain e)
    (hrun : e.apres horloge tours operations = some e') : Sain e' := by
  induction operations generalizing e with
  | nil =>
      cases hrun
      exact h
  | cons operation operations ih =>
      obtain ⟨milieu, happlique, hsuite⟩ := Option.bind_eq_some_iff.mp hrun
      exact ih (h.appliquer happlique) hsuite

theorem mem_keys_erase {entries : Dict String SkillCacheEntry} {autre : String} :
    autre ∈ (entries.erase skillId).keys ↔ autre ∈ entries.keys ∧ autre ≠ skillId := by
  simp only [Dict.keys, List.mem_map, Dict.mem_erase]
  constructor
  · rintro ⟨item, ⟨hitem, hne⟩, rfl⟩
    exact ⟨⟨item, hitem, rfl⟩, hne⟩
  · rintro ⟨⟨item, hitem, rfl⟩, hne⟩
    exact ⟨item, ⟨hitem, hne⟩, rfl⟩

theorem mem_keys_allege {autre : String} :
    autre ∈ (allege horloge n c).1.entries.keys ↔
      autre ∈ c.entries.keys ∧
        ¬ (c.maxSize ≤ c.entries.length ∧ (victime horloge n c).1 = some autre) := by
  unfold allege
  split_ifs with hplace
  · have hbas : ¬ c.maxSize ≤ c.entries.length := by omega
    simp [hbas]
  · have hplein : c.maxSize ≤ c.entries.length := by omega
    rw [evictOne_eq]
    split
    · next sid hvictime =>
      simp only [mem_keys_erase, hplein, hvictime, Option.some.injEq, true_and, ne_comm]
    · next hvictime => simp [hvictime]

variable {tours : Nat} {ttl : Option Binaire} {autre : String}

theorem Sain.retiree_put (h : Sain e)
    (happlique : e.appliquer horloge tours (.put skillId ttl) = some e') :
    Retiree e e' autre ↔
      autre ≠ skillId ∧ e.cache.maxSize ≤ e.cache.entries.length ∧
        (victime horloge e.lectures e.cache).1 = some autre := by
  obtain ⟨c', n', hplace, rfl⟩ := appliquer_put.mp happlique
  have hallege := eq_allege h.taille hplace
  have hkeys : c' = (allege horloge e.lectures e.cache).1 := by rw [← hallege]
  unfold Retiree
  rw [mem_keys_poser, hkeys, mem_keys_allege]
  constructor
  · rintro ⟨hmem, hnot⟩
    rw [not_or, not_and_not_right] at hnot
    exact ⟨hnot.1, hnot.2 hmem⟩
  · rintro ⟨hne, hplein, hvictime⟩
    refine ⟨mem_of_victime hvictime, ?_⟩
    rintro (heq | ⟨-, hnot⟩)
    · exact hne heq
    · exact hnot ⟨hplein, hvictime⟩

theorem victime_lru (hlru : c.strategy = .lru) (hn' : (victime horloge n c).2 ≤ n')
    (hsaines : ∀ k, n ≤ k → k < n' → ∀ item ∈ c.entries, perimeeA (horloge k) item.2 = false)
    (hvictime : (victime horloge n c).1 = some skillId) :
    ∃ entry, (skillId, entry) ∈ c.entries ∧ ∀ item ∈ c.entries, entry.lastUsed ≤ item.2.lastUsed := by
  have hrang : (victime horloge n c).2 = (premierePerimee horloge n c.entries).2 := by
    unfold victime
    split <;> simp_all
  have hnone := premierePerimee_eq_none (hrang ▸ hn') hsaines
  have hstrategie : selonStrategie c = some skillId := by
    rw [← hvictime]
    unfold victime
    split <;> simp_all
  simp only [selonStrategie, hlru] at hstrategie
  obtain ⟨⟨sid, entry⟩, hitem, rfl⟩ := Option.map_eq_some_iff.mp hstrategie
  refine ⟨entry, List.argmin_mem hitem, ?_⟩
  intro item hmem
  exact List.le_of_mem_argmin (f := fun item : String × SkillCacheEntry => item.2.lastUsed) hmem hitem

theorem Sain.correcte_iff (h : Sain e) (operation : Operation) :
    Correcte horloge e operation ↔ Permise horloge e operation := by
  constructor
  · intro hcorrecte
    cases operation with
    | put skillId ttl =>
        obtain ⟨tours, e', happlique⟩ := hcorrecte.termine
        constructor
        · obtain ⟨c', n', hplace, -⟩ := appliquer_put.mp happlique
          by_contra hzero
          rw [evictIfNeeded_zero (by omega)] at hplace
          cases hplace
        · intro hpresent
          by_contra hnot
          rw [not_or, Nat.not_lt] at hnot
          have hplein : e.cache.entries ≠ [] := by
            intro hvide
            simp [hvide, Dict.keys] at hpresent
          obtain ⟨sid, hvictime⟩ := exists_victime horloge e.lectures hplein
          have hne : sid ≠ skillId := fun heq => hnot.2 (heq ▸ hvictime)
          have hretiree := (h.retiree_put happlique).mpr ⟨hne, hnot.1, hvictime⟩
          exact hne (hcorrecte.autres tours e' skillId ttl happlique rfl hpresent sid hretiree)
    | _ => trivial
  · intro hpermise
    refine ⟨?_, ?_, ?_, ?_⟩
    · cases operation with
      | put skillId ttl =>
          exact ⟨2, _, appliquer_put.mpr ⟨_, _, evictIfNeeded_eq hpermise.1 h.taille 0, rfl⟩⟩
      | _ => exact ⟨0, _, rfl⟩
    · intro tours e' happlique
      exact (h.appliquer happlique).taille
    · rintro tours e' skillId ttl happlique rfl hpresent autre hretiree
      obtain ⟨hne, hplein, hvictime⟩ := (h.retiree_put happlique).mp hretiree
      rcases hpermise.2 hpresent with hplace | hsoi
      · omega
      · exact Option.some.inj (hvictime.symm.trans hsoi)
    · rintro tours e' skillId ttl happlique rfl habsent hlru hsaines retiree hretiree
      obtain ⟨hne, hplein, hvictime⟩ := (h.retiree_put happlique).mp hretiree
      constructor
      · have hrang : (victime horloge e.lectures e.cache).2 ≤ e'.lectures := by
          obtain ⟨c', n', hplace, rfl⟩ := appliquer_put.mp happlique
          have hallege := eq_allege h.taille hplace
          rw [allege, if_neg (by omega), evictOne_eq] at hallege
          rw [← (Prod.mk.inj hallege).2]
          exact le_poser horloge n' c' skillId ttl
        obtain ⟨entry, hentry, hmin⟩ := victime_lru hlru hrang hsaines hvictime
        refine ⟨_, h.usages _ _ (Dict.get?_of_mem h.cles hentry), ?_⟩
        intro autre hautre
        obtain ⟨item, hitem, rfl⟩ := List.mem_map.mp hautre
        exact ⟨_, h.usages _ _ (Dict.get?_of_mem h.cles hitem), hmin item hitem⟩
      · intro autre hautre
        obtain ⟨-, -, hvictime'⟩ := (h.retiree_put happlique).mp hautre
        exact Option.some.inj (hvictime'.symm.trans hvictime)

/-- Under any clock, all the operations of a run do what they owe exactly when each is permitted
in the state it meets. -/
theorem toujours_correcte_iff (horloge : Horloge) (maxSize : Nat) (defaultTtl : Binaire)
    (strategy : CacheStrategy) (operations : List Operation) :
    (∀ debut operation tours e, debut ++ [operation] <+: operations →
      (depart maxSize defaultTtl strategy).apres horloge tours debut = some e →
        Correcte horloge e operation) ↔
      ∀ debut operation tours e, debut ++ [operation] <+: operations →
        (depart maxSize defaultTtl strategy).apres horloge tours debut = some e →
          Permise horloge e operation := by
  have hsain : ∀ {debut tours e}, (depart maxSize defaultTtl strategy).apres horloge tours debut =
      some e → Sain e := fun hrun => sain_apres (sain_depart maxSize defaultTtl strategy) hrun
  constructor
  · intro h debut operation tours e hdebut hrun
    exact ((hsain hrun).correcte_iff operation).mp (h debut operation tours e hdebut hrun)
  · intro h debut operation tours e hdebut hrun
    exact ((hsain hrun).correcte_iff operation).mpr (h debut operation tours e hdebut hrun)

/-- A cache of two skills, without a limit of time, under a clock that advances: putting the
second one again removes the first. -/
theorem seconde_chasse_premiere :
    ¬ ∀ (horloge : Horloge) (maxSize : Nat) (defaultTtl : Binaire) (strategy : CacheStrategy)
      (operations debut : List Operation) (operation : Operation) (tours : Nat) (e : Etat),
      Monotone horloge → debut ++ [operation] <+: operations →
        (depart maxSize defaultTtl strategy).apres horloge tours debut = some e →
          Correcte horloge e operation := by
  intro h
  let debut : List Operation := [.put "lecture" none, .put "ecriture" none]
  have hcorrecte := h (fun n => n) 2 (.fini 0) .lru (debut ++ [.put "ecriture" none]) debut
    (.put "ecriture" none) 2 _ (fun _ _ hle => Int.ofNat_le.mpr hle) (List.prefix_refl _) rfl
  have hretiree := hcorrecte.autres 2 _ "ecriture" none rfl rfl (by decide) "lecture"
    ⟨by decide, by decide⟩
  exact absurd hretiree (by decide)

end SkillCache

end Hermes.Skills
