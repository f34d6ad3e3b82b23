import Hermes.Lib.JsonTexte
import Hermes.Lib.Motif
import Hermes.Memory.UnifiedSqliteBackend

/-! # One history on both backends

The rows stand for the entries after every history, so that reads by identifier and counts are the
same.
-/

namespace Hermes.Memory

open Lib Lib.Page

variable {τ μ ν : Type*}

inductive Operation (τ μ : Type*) where
  | store (e : MemoryEntry τ μ)
  | delete (id : String)
  | clearScope (scope : Scope)

def pasMemoire (d : Entries τ μ) : Operation τ μ → Entries τ μ
  | .store e => InMemoryBackend.store d e
  | .delete id => (InMemoryBackend.delete d id).1
  | .clearScope scope => (InMemoryBackend.clearScope d scope).1

def pasSqlite (h : Hote μ ν) (t : Rows τ) : Operation τ μ → Rows τ
  | .store e => SqliteMemoryBackend.store h t e
  | .delete id => (SqliteMemoryBackend.delete t id).1
  | .clearScope scope => (SqliteMemoryBackend.clearScope t scope).1

/-- The rows stand for the entries, in the order of the insertions. -/
structure Refine (h : Hote μ ν) (d : Entries τ μ) (t : Rows τ) : Prop where
  entrees : t.lignes.map (toEntry h) = (InMemoryBackend.allEntries d).map MemoryEntry.vue
  cles : ∀ item ∈ d, item.1 = item.2.id

section Histoire

variable {h : Hote μ ν} {d : Entries τ μ} {t : Rows τ} {e : MemoryEntry τ μ}

@[simp] theorem vue_id (e : MemoryEntry τ μ) : e.vue.id = e.id := rfl

@[simp] theorem vue_createdAt (e : MemoryEntry τ μ) : e.vue.createdAt = e.createdAt := rfl

@[simp] theorem toEntry_id (h : Hote μ ν) (row : UnifiedMemoryRow τ) :
    (toEntry h row).id = row.id := rfl

theorem toEntry_toRow (h : Hote μ ν) (e : MemoryEntry τ μ) : toEntry h (toRow h e) = e.vue := by
  simp [toEntry, toRow, MemoryEntry.vue, h.tags.nonVide, h.tags.relire, h.metadata.nonVide,
    h.metadata.relire]

theorem Refine.ids (hr : Refine h d t) : t.lignes.map UnifiedMemoryRow.id = d.keys := by
  have hids : t.lignes.map UnifiedMemoryRow.id =
      (t.lignes.map (toEntry h)).map MemoryEntry.id := by
    rw [List.map_map]
    rfl
  rw [hids, hr.entrees, InMemoryBackend.allEntries, List.map_map, List.map_map, Dict.keys]
  apply List.map_congr_left
  intro item hitem
  exact (hr.cles item hitem).symm

theorem Refine.nodup (hr : Refine h d t) : d.keys.Nodup := hr.ids ▸ t.uniques

theorem Refine.mem_iff (hr : Refine h d t) (id : String) :
    t.lire id = none ↔ id ∉ d.keys := by
  rw [← hr.ids]
  exact Table.lire_eq_none

theorem entrees_iff : t.lignes.map (toEntry h) = (InMemoryBackend.allEntries d).map
    MemoryEntry.vue ↔ t.lignes.map (toEntry h) = d.map fun item => item.2.vue := by
  rw [InMemoryBackend.allEntries, List.map_map]
  rfl

theorem entrees_filter (hr : Refine h d t) {surLigne : UnifiedMemoryRow τ → Bool}
    {surItem : String × MemoryEntry τ μ → Bool} (p : MemoryEntry τ μ → Bool)
    (hligne : ∀ row ∈ t.lignes, surLigne row = p (toEntry h row))
    (hitem : ∀ item ∈ d, surItem item = p item.2.vue) :
    (t.lignes.filter surLigne).map (toEntry h) =
      (d.filter surItem).map fun item => item.2.vue := by
  have hlignes : t.lignes.filter surLigne = t.lignes.filter (p ∘ toEntry h) :=
    List.filter_congr hligne
  have hitems : d.filter surItem = d.filter (p ∘ fun item => item.2.vue) :=
    List.filter_congr hitem
  rw [hlignes, hitems, ← List.filter_map, ← List.filter_map, entrees_iff.mp hr.entrees]

theorem refine_store (hr : Refine h d t) (e : MemoryEntry τ μ) :
    Refine h (InMemoryBackend.store d e) (SqliteMemoryBackend.store h t e) := by
  have hcles : ∀ item ∈ InMemoryBackend.store d e, item.1 = item.2.id := by
    intro item hitem
    rcases Dict.mem_of_mem_set hitem with heq | hitem
    · rw [heq]
    · exact hr.cles item hitem
  refine ⟨?_, hcles⟩
  rw [entrees_iff, SqliteMemoryBackend.store]
  have hentrees := entrees_iff.mp hr.entrees
  cases hlire : t.lire e.id with
  | none =>
      have hnot := (hr.mem_iff e.id).mp hlire
      cases hins : t.inserer (toRow h e) with
      | none =>
          exfalso
          unfold Table.inserer at hins
          split at hins
          · next hmem => exact (Table.lire_eq_none.mp hlire) hmem
          · cases hins
      | some t' =>
          simp only [Option.getD_some, (Table.inserer_eq_some hins).2, List.map_append, hentrees,
            InMemoryBackend.store, Dict.set_of_notMem hnot, List.map_cons, List.map_nil,
            toEntry_toRow]
  | some row =>
      have hmem : e.id ∈ d.keys := by
        by_contra hnot
        rw [(hr.mem_iff e.id).mpr hnot] at hlire
        cases hlire
      have hlignes : (t.remplacer (toRow h e)).lignes =
          t.lignes.map fun row => if row.id = e.id then toRow h e else row := rfl
      have hligne : toEntry h ∘ (fun row => if row.id = e.id then toRow h e else row) =
          (fun f : MemoryEntry τ μ => if f.id = e.id then e.vue else f) ∘ toEntry h := by
        funext row
        by_cases hid : row.id = e.id
        · simp [hid, toEntry_toRow]
        · simp [hid]
      have hitem : d.map ((fun f : MemoryEntry τ μ => if f.id = e.id then e.vue else f) ∘
            fun item => item.2.vue) =
          d.map ((fun item => item.2.vue) ∘ fun item => if item.1 = e.id then (e.id, e) else item) := by
        apply List.map_congr_left
        intro item hitem
        by_cases hid : item.1 = e.id
        · simp [hid, ← hr.cles item hitem]
        · simp [hid, ← hr.cles item hitem]
      simp only [hlignes, InMemoryBackend.store, Dict.set_of_mem hr.nodup hmem, List.map_map,
        hligne]
      rw [← List.map_map, hentrees, List.map_map, hitem]

theorem refine_delete (hr : Refine h d t) (id : String) :
    Refine h (InMemoryBackend.delete d id).1 (SqliteMemoryBackend.delete t id).1 := by
  unfold InMemoryBackend.delete SqliteMemoryBackend.delete
  cases hlire : t.lire id with
  | none =>
      have hnot := (hr.mem_iff id).mp hlire
      rw [if_neg (by rw [Dict.get?_eq_none hnot]; simp)]
      exact hr
  | some row =>
      have hmem : id ∈ d.keys := by
        by_contra hnot
        rw [(hr.mem_iff id).mpr hnot] at hlire
        cases hlire
      rw [if_pos (Dict.isSome_get?.mpr hmem)]
      refine ⟨?_, fun item hitem => hr.cles item (Dict.mem_erase.mp hitem).1⟩
      apply entrees_iff.mpr
      apply entrees_filter hr (fun f => decide (f.id ≠ id))
      · intro row _
        rfl
      · intro item hitem
        rw [hr.cles item hitem]
        rfl

theorem refine_clearScope (hr : Refine h d t) (scope : Scope) :
    Refine h (InMemoryBackend.clearScope d scope).1 (SqliteMemoryBackend.clearScope t scope).1 := by
  refine ⟨?_, fun item hitem => hr.cles item (List.mem_of_mem_filter hitem)⟩
  apply entrees_iff.mpr
  apply entrees_filter hr (fun f => decide (f.scope.value ≠ scope.value))
  · intro row _
    rfl
  · intro item _
    rfl

theorem refine_pas (hr : Refine h d t) (op : Operation τ μ) :
    Refine h (pasMemoire d op) (pasSqlite h t op) := by
  cases op with
  | store e => exact refine_store hr e
  | delete id => exact refine_delete hr id
  | clearScope scope => exact refine_clearScope hr scope

def memoire (ops : List (Operation τ μ)) : Entries τ μ := ops.foldl pasMemoire []

def sqlite (h : Hote μ ν) (ops : List (Operation τ μ)) : Rows τ :=
  ops.foldl (pasSqlite h) Table.vide

theorem refine_histoire (h : Hote μ ν) (ops : List (Operation τ μ)) :
    Refine h (memoire ops) (sqlite h ops) := by
  have hfoldl : ∀ d t, Refine h d t → Refine h (ops.foldl pasMemoire d)
      (ops.foldl (pasSqlite h) t) := by
    induction ops with
    | nil => exact fun _ _ hr => hr
    | cons op ops ih => exact fun d t hr => ih _ _ (refine_pas hr op)
  exact hfoldl [] Table.vide ⟨rfl, nofun⟩

end Histoire

section Lectures

variable {h : Hote μ ν} {d : Entries τ μ} {t : Rows τ}

theorem get_eq (hr : Refine h d t) (id : String) :
    (InMemoryBackend.get d id).map MemoryEntry.vue = SqliteMemoryBackend.get h t id := by
  unfold InMemoryBackend.get SqliteMemoryBackend.get
  cases hlire : t.lire id with
  | none =>
      rw [Dict.get?_eq_none ((hr.mem_iff id).mp hlire)]
      rfl
  | some row =>
      have hmem : toEntry h row ∈ d.map fun item => item.2.vue := by
        rw [← entrees_iff.mp hr.entrees]
        exact List.mem_map_of_mem (Table.mem_of_lire hlire)
      obtain ⟨item, hitem, hvue⟩ := List.mem_map.mp hmem
      have hid : item.1 = id := by
        have hrow : row.id = id := Table.cle_of_lire hlire
        rw [hr.cles item hitem, ← hrow, ← toEntry_id h row, ← hvue, vue_id]
      have hget : d.get? id = some item.2 := by
        apply Dict.get?_of_mem hr.nodup
        rw [← hid]
        exact hitem
      rw [hget, Option.map_some, Option.map_some, hvue]

theorem count_eq (hr : Refine h d t) : InMemoryBackend.count d = SqliteMemoryBackend.count t := by
  have hlen := congrArg List.length (entrees_iff.mp hr.entrees)
  rw [List.length_map, List.length_map] at hlen
  exact hlen.symm

theorem get?_foldl_counts (entries : List (MemoryEntry τ μ)) (counts : Dict String Nat)
    (scope : String) :
    Dict.get? (entries.foldl (fun counts e =>
        Dict.set counts e.scope.value (Dict.getD counts e.scope.value 0 + 1)) counts) scope =
      if scope ∈ entries.map fun e => e.scope.value then
        some (Dict.getD counts scope 0 + entries.countP fun e => e.scope.value = scope)
      else counts.get? scope := by
  induction entries generalizing counts with
  | nil => rfl
  | cons e entries ih =>
      rw [List.foldl_cons, ih, Dict.getD_set, Dict.get?_set, List.countP_cons]
      by_cases hscope : e.scope.value = scope
      · subst hscope
        simp only [List.map_cons, List.mem_cons, true_or, if_true, decide_true]
        split
        · congr 1
          omega
        · next hnot =>
            have hzero : entries.countP (fun e' => decide (e'.scope.value = e.scope.value)) = 0 := by
              rw [List.countP_eq_zero]
              intro e' he' heq
              exact hnot (List.mem_map.mpr ⟨e', he', by simpa using heq⟩)
            rw [hzero]
      · simp [hscope, Ne.symm hscope]

theorem countP_eq_count {α : Type*} (f : α → String) (l : List α) (scope : String) :
    (l.countP fun x => f x = scope) = (l.map f).count scope := by
  rw [List.count_eq_countP, List.countP_map]
  apply List.countP_congr
  intro x _
  simp

theorem countByScope_eq (hr : Refine h d t) (scope : String) :
    (InMemoryBackend.countByScope d).get? scope =
      (SqliteMemoryBackend.countByScope t).get? scope := by
  have hscopes : t.lignes.map UnifiedMemoryRow.scope =
      (InMemoryBackend.allEntries d).map fun e => e.scope.value := by
    have hmap := congrArg (List.map fun e : MemoryEntry τ μ => e.scope.value) hr.entrees
    rw [List.map_map, List.map_map] at hmap
    exact hmap
  have hsql : (SqliteMemoryBackend.countByScope t).get? scope =
      if scope ∈ t.lignes.map UnifiedMemoryRow.scope then
        some (t.lignes.countP fun row => row.scope = scope)
      else none := by
    unfold SqliteMemoryBackend.countByScope
    split
    · next hmem =>
        apply Dict.get?_of_mem
        · have hkeys : ((t.lignes.map UnifiedMemoryRow.scope).dedup.map fun s =>
              (s, t.lignes.countP fun row => row.scope = s)).map Prod.fst =
              (t.lignes.map UnifiedMemoryRow.scope).dedup := by
            rw [List.map_map]
            exact List.map_id _
          rw [Dict.keys, hkeys]
          exact List.nodup_dedup _
        · exact List.mem_map.mpr ⟨scope, List.mem_dedup.mpr hmem, rfl⟩
    · next hnot =>
        apply Dict.get?_eq_none
        intro hmem
        obtain ⟨item, hitem, hkey⟩ := List.mem_map.mp hmem
        obtain ⟨s, hs, rfl⟩ := List.mem_map.mp hitem
        exact hnot (List.mem_dedup.mp (hkey ▸ hs))
  rw [hsql, InMemoryBackend.countByScope, get?_foldl_counts, countP_eq_count,
    countP_eq_count UnifiedMemoryRow.scope, hscopes]
  simp [Dict.getD, Dict.get?]

end Lectures

section Recherches

variable [LinearOrder τ]

def ailleurs (i : Interprete μ ν) (q : MemoryQuery τ ν) (e : MemoryEntry τ μ) : Bool :=
  q.scope.all (fun scope => e.scope.value = scope.value) &&
    q.tags.all (fun tags => tags = ∅ || (tags ∩ e.tags).Nonempty) &&
    q.minImportance.all (fun min => min ≤ e.importance) &&
    q.since.all (fun since => since ≤ e.createdAt) &&
    q.until_.all (fun limite => e.createdAt ≤ limite) &&
    (q.metadataFilter.getD []).all fun item => i.egale e.metadata item.1 item.2

def texteMemoire (i : Interprete μ ν) (q : MemoryQuery τ ν) (e : MemoryEntry τ μ) : Bool :=
  q.text.all fun text => InMemoryBackend.texte i text e

def texteSqlite (h : Hote μ ν) (q : MemoryQuery τ ν) (e : MemoryEntry τ μ) : Bool :=
  q.text.all fun text => SqliteMemoryBackend.texte h text e.title e.content

/-- Both tests of the text agree on each stored entry that passes the other filters. -/
def TextesAccordes (h : Hote μ ν) (d : Entries τ μ) (q : MemoryQuery τ ν) : Prop :=
  ∀ e ∈ InMemoryBackend.allEntries d, ailleurs h.toInterprete q e = true →
    texteMemoire h.toInterprete q e = texteSqlite h q e

/-- Where the page of the first backend starts and ends in `n` results. -/
def pageMemoire (n : Nat) (q : MemoryQuery τ ν) : Nat × Nat :=
  let b := InMemoryBackend.bornes n q
  (borne n b.1, (b.2.map (borne n)).getD n)

def pageSqlite (n : Nat) (q : MemoryQuery τ ν) : Nat × Nat :=
  let debut := borne n q.offset
  (debut, match q.limit with
    | none => n
    | some limit => debut + borne (n - debut) limit)

/-- The two pages are empty, or are one slice that cuts no tie. -/
def Reguliere (i : Interprete μ ν) (d : Entries τ μ) (q : MemoryQuery τ ν) : Prop :=
  let cles := (InMemoryBackend.trouvees i d q).map MemoryEntry.createdAt
  let m := pageMemoire cles.length q
  let s := pageSqlite cles.length q
  (m.2 ≤ m.1 ∧ s.2 ≤ s.1) ∨ (m.1 = s.1 ∧ m.2 = s.2 ∧ Franche cles m.1 ∧ Franche cles m.2)

/-- Whatever the order of the ties, the two backends return the same page. -/
def Accord (h : Hote μ ν) (d : Entries τ μ) (t : Rows τ) (q : MemoryQuery τ ν) : Prop :=
  ∀ o : OrderBy τ, Memes MemoryEntry.createdAt
    ((InMemoryBackend.search h.toInterprete d q).map MemoryEntry.vue)
    (SqliteMemoryBackend.search h o t q)

omit [LinearOrder τ] in
theorem pages_egales (n : Nat) (q : MemoryQuery τ ν) (hoffset : 0 ≤ q.offset)
    (hlimit : ∀ limit, q.limit = some limit → 0 ≤ limit) :
    pageMemoire n q = pageSqlite n q := by
  unfold pageMemoire pageSqlite InMemoryBackend.bornes borne
  cases hlim : q.limit with
  | none =>
      simp only [Option.map_none, Option.getD_none, Prod.mk.injEq, and_true]
      split <;> split <;> omega
  | some limit =>
      have hpos := hlimit limit hlim
      simp only [Option.map_some, Option.getD_some, Prod.mk.injEq]
      constructor
      · split <;> split <;> omega
      · split <;> split <;> split <;> omega

variable {h : Hote μ ν} {d : Entries τ μ} {t : Rows τ} {q : MemoryQuery τ ν}

theorem filter_foldl {α β : Type*} (test : β → α → Bool) (items : List β) (l : List α) :
    items.foldl (fun l item => l.filter (test item)) l =
      l.filter fun a => items.all fun item => test item a := by
  induction items generalizing l with
  | nil => simp
  | cons item items ih =>
      rw [List.foldl_cons, ih, List.filter_filter]
      apply List.filter_congr
      intro a _
      rw [List.all_cons, Bool.and_comm]

theorem filtrer_eq {α β : Type*} (demande : Option α) (test : α → β → Bool) (l : List β) :
    filtrer demande test l = l.filter fun b => demande.all fun a => test a b := by
  cases demande with
  | none => simp [filtrer]
  | some a => rfl

theorem trouvees_eq (i : Interprete μ ν) (d : Entries τ μ) (q : MemoryQuery τ ν) :
    InMemoryBackend.trouvees i d q =
      ((InMemoryBackend.allEntries d).filter fun e => ailleurs i q e && texteMemoire i q e).mergeSort
        fun a b => b.createdAt ≤ a.createdAt := by
  unfold InMemoryBackend.trouvees
  dsimp only
  rw [filter_foldl]
  simp only [filtrer_eq, List.filter_filter]
  congr 1
  apply List.filter_congr
  intro e _
  have htags : (q.tags.filter fun tags => decide tags.Nonempty).all
      (fun tags => decide (tags ∩ e.tags).Nonempty) =
      q.tags.all fun tags => decide (tags = ∅) || decide (tags ∩ e.tags).Nonempty := by
    cases q.tags with
    | none => rfl
    | some tags =>
        by_cases hvide : tags = ∅
        · simp [hvide]
        · simp [hvide, Finset.nonempty_iff_ne_empty]
  rw [htags]
  unfold ailleurs texteMemoire
  simp only [Bool.and_assoc, Bool.and_comm, Bool.and_left_comm]

/-- The results of the statement, once the filters of the interpreter have passed. -/
def ordonnees (h : Hote μ ν) (o : OrderBy τ) (t : Rows τ) (q : MemoryQuery τ ν) :
    List (MemoryEntry τ μ) :=
  ((o.ordre (t.lignes.filter (SqliteMemoryBackend.conditions h q))).map (toEntry h)).filter
    (SqliteMemoryBackend.filtresJson h q)

/-- The stored entries that the second backend retains. -/
def retenues (h : Hote μ ν) (t : Rows τ) (q : MemoryQuery τ ν) : List (MemoryEntry τ μ) :=
  (t.lignes.map (toEntry h)).filter fun e => ailleurs h.toInterprete q e && texteSqlite h q e

theorem tests_eq (row : UnifiedMemoryRow τ) :
    (SqliteMemoryBackend.conditions h q row && SqliteMemoryBackend.filtresJson h q (toEntry h row)) =
      (ailleurs h.toInterprete q (toEntry h row) && texteSqlite h q (toEntry h row)) := by
  have hmeta : (q.metadataFilter.all fun items => items.all fun item =>
      h.egale (toEntry h row).metadata item.1 item.2) =
      (q.metadataFilter.getD []).all fun item => h.egale (toEntry h row).metadata item.1 item.2 := by
    cases q.metadataFilter with
    | none => rfl
    | some items => rfl
  have htext : (q.text.all fun text => SqliteMemoryBackend.texte h text row.title row.content) =
      texteSqlite h q (toEntry h row) := rfl
  have hscope : (q.scope.all fun scope => decide (row.scope = scope.value)) =
      q.scope.all fun scope => decide ((toEntry h row).scope.value = scope.value) := rfl
  unfold SqliteMemoryBackend.conditions SqliteMemoryBackend.filtresJson ailleurs
  rw [hmeta, htext, hscope]
  simp only [Bool.and_assoc, Bool.and_comm, Bool.and_left_comm]
  rfl

theorem retenues_eq : retenues h t q =
    ((t.lignes.filter (SqliteMemoryBackend.conditions h q)).map (toEntry h)).filter
      (SqliteMemoryBackend.filtresJson h q) := by
  unfold retenues
  rw [List.filter_map, List.filter_map, List.filter_filter]
  congr 1
  apply List.filter_congr
  intro row _
  rw [Bool.and_comm]
  exact (tests_eq row).symm

theorem ordonnees_perm (o : OrderBy τ) : (ordonnees h o t q).Perm (retenues h t q) := by
  rw [retenues_eq]
  exact ((o.perm _).map _).filter _

theorem ordonnees_decroissant (o : OrderBy τ) :
    Decroissant MemoryEntry.createdAt (ordonnees h o t q) := by
  have hmap : Decroissant MemoryEntry.createdAt
      ((o.ordre (t.lignes.filter (SqliteMemoryBackend.conditions h q))).map (toEntry h)) :=
    List.pairwise_map.mpr (o.decroissant _)
  exact hmap.sublist List.filter_sublist

theorem exists_perm_map {α β : Type*} {f : α → β} {l' m : List β} (hperm : l'.Perm m) :
    ∀ l, m = l.map f → ∃ l₂ : List α, l₂.Perm l ∧ l₂.map f = l' := by
  induction hperm with
  | nil =>
      intro l hl
      exact ⟨l, List.Perm.refl l, hl.symm⟩
  | cons b _ ih =>
      intro l hl
      cases l with
      | nil => cases hl
      | cons a l =>
          obtain ⟨hb, hm⟩ := List.cons.inj hl
          obtain ⟨l₂, hperm₂, hmap⟩ := ih l hm
          exact ⟨a :: l₂, hperm₂.cons a, by rw [List.map_cons, hmap, hb]⟩
  | swap b c m =>
      intro l hl
      cases l with
      | nil => cases hl
      | cons a l =>
          cases l with
          | nil => cases hl
          | cons a' l =>
              simp only [List.map_cons, List.cons.injEq] at hl
              exact ⟨a' :: a :: l, List.Perm.swap a a' l, by simp [hl]⟩
  | trans _ _ ih₁ ih₂ =>
      intro l hl
      obtain ⟨l₂, hperm₂, hmap₂⟩ := ih₂ l hl
      obtain ⟨l₁, hperm₁, hmap₁⟩ := ih₁ l₂ hmap₂.symm
      exact ⟨l₁, hperm₁.trans hperm₂, hmap₁⟩

theorem exists_ordre {l : List (MemoryEntry τ μ)} (hperm : l.Perm (retenues h t q))
    (hdecr : Decroissant MemoryEntry.createdAt l) : ∃ o : OrderBy τ, ordonnees h o t q = l := by
  classical
  let rows := t.lignes.filter (SqliteMemoryBackend.conditions h q)
  let gardee := fun row => SqliteMemoryBackend.filtresJson h q (toEntry h row)
  let le := fun a b : UnifiedMemoryRow τ => decide (b.createdAt ≤ a.createdAt)
  have htrans : ∀ a b c : UnifiedMemoryRow τ, le a b = true → le b c = true → le a c = true := by
    intro a b c hab hbc
    exact decide_eq_true (le_trans (of_decide_eq_true hbc) (of_decide_eq_true hab))
  have htotal : ∀ a b : UnifiedMemoryRow τ, (le a b || le b a) = true := by
    intro a b
    rcases le_total b.createdAt a.createdAt with hle | hle
    · simp [le, hle]
    · simp [le, hle]
  have himage : retenues h t q = (rows.filter gardee).map (toEntry h) := by
    rw [retenues_eq, List.filter_map]
    rfl
  obtain ⟨choisies, hchoisies, hmap⟩ := exists_perm_map (himage ▸ hperm) _ rfl
  -- the chosen rows first, then the ones that the interpreter drops, sorted by a stable sort
  let toutes := (choisies ++ rows.filter fun row => !gardee row).mergeSort le
  have htoutes : toutes.Perm rows := by
    apply (List.mergeSort_perm _ le).trans
    apply (hchoisies.append_right _).trans
    exact List.filter_append_perm gardee rows
  have hgardees : ∀ row ∈ choisies, gardee row = true :=
    fun row hrow => (List.mem_filter.mp (hchoisies.mem_iff.mp hrow)).2
  have htriees : choisies.Pairwise fun a b => le a b = true := by
    have hpair : (choisies.map (toEntry h)).Pairwise fun a b => b.createdAt ≤ a.createdAt :=
      hmap ▸ hdecr
    exact (List.pairwise_map.mp hpair).imp fun hle => decide_eq_true hle
  have hfiltre : toutes.filter gardee = choisies := by
    have hsub : choisies.Sublist (toutes.filter gardee) := by
      have hself : choisies.filter gardee = choisies := List.filter_eq_self.mpr hgardees
      rw [← hself]
      exact (List.sublist_mergeSort htrans htotal htriees (List.sublist_append_left _ _)).filter _
    have hlen : choisies.length = (toutes.filter gardee).length := by
      rw [(htoutes.filter gardee).length_eq, hchoisies.length_eq]
    exact (hsub.eq_of_length hlen).symm
  let o : OrderBy τ :=
    { ordre := fun rs => if rs = rows then toutes else rs.mergeSort le
      perm := by
        intro rs
        split
        · next heq => exact heq ▸ htoutes
        · exact List.mergeSort_perm rs le
      decroissant := by
        intro rs
        split
        · exact decroissant_mergeSort UnifiedMemoryRow.createdAt _
        · exact decroissant_mergeSort UnifiedMemoryRow.createdAt rs }
  refine ⟨o, ?_⟩
  have hordre : o.ordre rows = toutes := if_pos rfl
  show ((o.ordre rows).map (toEntry h)).filter (SqliteMemoryBackend.filtresJson h q) = l
  rw [hordre, List.filter_map, ← hmap]
  exact congrArg _ hfiltre

theorem search_memoire_eq : (InMemoryBackend.search h.toInterprete d q).map MemoryEntry.vue =
    tranche ((InMemoryBackend.trouvees h.toInterprete d q).map MemoryEntry.vue)
      (pageMemoire (InMemoryBackend.trouvees h.toInterprete d q).length q).1
      (pageMemoire (InMemoryBackend.trouvees h.toInterprete d q).length q).2 := by
  unfold InMemoryBackend.search slice pageMemoire tranche
  rw [List.map_drop, List.map_take]

theorem search_sqlite_eq (o : OrderBy τ) : SqliteMemoryBackend.search h o t q =
    tranche (ordonnees h o t q) (pageSqlite (ordonnees h o t q).length q).1
      (pageSqlite (ordonnees h o t q).length q).2 := by
  let entries := ordonnees h o t q
  have hdebut : (if q.offset ≠ 0 then slice entries q.offset none else entries) =
      entries.drop (borne entries.length q.offset) := by
    split
    · unfold slice tranche
      simp only [Option.map_none, Option.getD_none, List.take_length]
    · next hzero =>
        have hzero : q.offset = 0 := by omega
        simp [hzero, borne]
  have hsearch : SqliteMemoryBackend.search h o t q =
      match q.limit with
      | none => entries.drop (borne entries.length q.offset)
      | some limit => slice (entries.drop (borne entries.length q.offset)) 0 (some limit) := by
    rw [← hdebut]
    rfl
  rw [hsearch]
  unfold pageSqlite
  cases q.limit with
  | none =>
      unfold tranche
      rw [List.take_length]
  | some limit =>
      unfold slice tranche
      have hzero : borne (entries.length - borne entries.length q.offset) 0 = 0 := by
        simp [borne]
      simp only [Option.map_some, Option.getD_some, List.length_drop, hzero, List.drop_zero,
        List.take_drop]
      rfl

omit [LinearOrder τ] in
theorem borne_page (n : Nat) (q : MemoryQuery τ ν) :
    (pageMemoire n q).2 ≤ n ∧ (pageSqlite n q).2 ≤ n := by
  unfold pageMemoire pageSqlite InMemoryBackend.bornes
  have hdebut := borne_le n q.offset
  constructor
  · cases q.limit with
    | none => exact Nat.le_refl n
    | some limit => exact borne_le n _
  · cases q.limit with
    | none => exact Nat.le_refl n
    | some limit =>
        have hlimit := borne_le (n - borne n q.offset) limit
        dsimp only
        omega

theorem trouvees_perm : (InMemoryBackend.trouvees h.toInterprete d q).Perm
    ((InMemoryBackend.allEntries d).filter fun e =>
      ailleurs h.toInterprete q e && texteMemoire h.toInterprete q e) := by
  rw [trouvees_eq]
  exact List.mergeSort_perm _ _

theorem trouvees_decroissant :
    Decroissant MemoryEntry.createdAt (InMemoryBackend.trouvees h.toInterprete d q) := by
  rw [trouvees_eq]
  exact decroissant_mergeSort MemoryEntry.createdAt _

theorem retenues_memoire (hr : Refine h d t) : retenues h t q =
    ((InMemoryBackend.allEntries d).filter fun e =>
      ailleurs h.toInterprete q e && texteSqlite h q e).map MemoryEntry.vue := by
  rw [retenues, hr.entrees, List.filter_map]
  rfl

theorem retenues_nodup : (retenues h t q).Nodup := by
  have hids : ((t.lignes.map (toEntry h)).map MemoryEntry.id).Nodup := by
    rw [List.map_map]
    exact t.uniques
  exact (List.Nodup.of_map MemoryEntry.id hids).filter _

theorem retenues_perm (hr : Refine h d t) (htexte : TextesAccordes h d q) :
    (retenues h t q).Perm
      ((InMemoryBackend.trouvees h.toInterprete d q).map MemoryEntry.vue) := by
  rw [retenues_memoire hr]
  have hfiltre : (InMemoryBackend.allEntries d).filter (fun e =>
        ailleurs h.toInterprete q e && texteSqlite h q e) =
      (InMemoryBackend.allEntries d).filter fun e =>
        ailleurs h.toInterprete q e && texteMemoire h.toInterprete q e := by
    apply List.filter_congr
    intro e he
    cases hail : ailleurs h.toInterprete q e with
    | false => rfl
    | true => rw [htexte e he hail]
  rw [hfiltre]
  exact trouvees_perm.symm.map _

theorem accord_iff_reguliere (hr : Refine h d t) (htexte : TextesAccordes h d q) :
    Accord h d t q ↔ Reguliere h.toInterprete d q := by
  let l := (InMemoryBackend.trouvees h.toInterprete d q).map MemoryEntry.vue
  have hperm : (retenues h t q).Perm l := retenues_perm hr htexte
  have hdecr : Decroissant MemoryEntry.createdAt l :=
    List.pairwise_map.mpr trouvees_decroissant
  have hlen : (InMemoryBackend.trouvees h.toInterprete d q).length = l.length :=
    (List.length_map _).symm
  have hbornes := borne_page l.length q
  have hpages := @memes_tranches_iff _ _ _ _ _ hdecr (hperm.nodup_iff.mp retenues_nodup)
    (pageMemoire l.length q).1 _ (pageSqlite l.length q).1 _ hbornes.1 hbornes.2
  have hordres : Accord h d t q ↔ ∀ l' : List (MemoryEntry τ μ), l'.Perm l →
      Decroissant MemoryEntry.createdAt l' → Memes MemoryEntry.createdAt
        (tranche l (pageMemoire l.length q).1 (pageMemoire l.length q).2)
        (tranche l' (pageSqlite l.length q).1 (pageSqlite l.length q).2) := by
    constructor
    · intro haccord l' hl' hdecr'
      obtain ⟨o, ho⟩ := exists_ordre (hl'.trans hperm.symm) hdecr'
      have hpage := haccord o
      rw [search_memoire_eq, search_sqlite_eq, ho, hl'.length_eq, hlen] at hpage
      exact hpage
    · intro hall o
      have hl' : (ordonnees h o t q).Perm l := (ordonnees_perm o).trans hperm
      rw [search_memoire_eq, search_sqlite_eq, hl'.length_eq, hlen]
      exact hall _ hl' (ordonnees_decroissant o)
  have hcles : l.map MemoryEntry.createdAt =
      (InMemoryBackend.trouvees h.toInterprete d q).map MemoryEntry.createdAt := by
    rw [List.map_map]
    rfl
  rw [hordres, hpages, Reguliere, hcles]
  simp only [List.length_map, hlen]

omit [LinearOrder τ] in
theorem pages_entieres (n : Nat) (hlimit : q.limit = none) (hoffset : q.offset = 0) :
    pageMemoire n q = (0, n) ∧ pageSqlite n q = (0, n) := by
  have hmemoire : pageMemoire n q = (0, n) := by
    simp [pageMemoire, InMemoryBackend.bornes, borne, hlimit, hoffset]
  have hegales := pages_egales n q (by omega) (by simp [hlimit])
  exact ⟨hmemoire, hegales.symm.trans hmemoire⟩

theorem reguliere_sans_page {i : Interprete μ ν} (hlimit : q.limit = none) (hoffset : q.offset = 0) :
    Reguliere i d q := by
  right
  rw [(pages_entieres _ hlimit hoffset).1, (pages_entieres _ hlimit hoffset).2]
  exact ⟨rfl, rfl, franche_zero _, franche_length _⟩

theorem accord_sans_page (hr : Refine h d t) (hlimit : q.limit = none) (hoffset : q.offset = 0) :
    Accord h d t q ↔ TextesAccordes h d q := by
  constructor
  · intro haccord e he hail
    obtain ⟨o, _⟩ := exists_ordre (h := h) (t := t) (q := q) (List.mergeSort_perm _ _)
      (decroissant_mergeSort MemoryEntry.createdAt (retenues h t q))
    have hmemoire : ((InMemoryBackend.search h.toInterprete d q).map MemoryEntry.vue).Perm
        (((InMemoryBackend.allEntries d).filter fun e =>
          ailleurs h.toInterprete q e && texteMemoire h.toInterprete q e).map MemoryEntry.vue) := by
      rw [search_memoire_eq, (pages_entieres _ hlimit hoffset).1,
        ← List.length_map MemoryEntry.vue, tranche_entiere]
      exact trouvees_perm.map _
    have hsqlite : (SqliteMemoryBackend.search h o t q).Perm (retenues h t q) := by
      rw [search_sqlite_eq, (pages_entieres _ hlimit hoffset).2, tranche_entiere]
      exact ordonnees_perm o
    rw [retenues_memoire hr] at hsqlite
    have hmem := (hmemoire.symm.trans ((haccord o).1.trans hsqlite)).mem_iff (a := e.vue)
    -- the view of an entry tells what each test answers on it
    have hvue : ∀ test : MemoryEntry τ μ → Bool, (∀ e, test e.vue = test e) →
        (e.vue ∈ ((InMemoryBackend.allEntries d).filter fun e =>
          ailleurs h.toInterprete q e && test e).map MemoryEntry.vue ↔ test e = true) := by
      intro test htest
      constructor
      · intro hin
        obtain ⟨e', he', heq⟩ := List.mem_map.mp hin
        have hboth := (List.mem_filter.mp he').2
        rw [Bool.and_eq_true, ← htest e', heq, htest e] at hboth
        exact hboth.2
      · intro hon
        exact List.mem_map_of_mem (List.mem_filter.mpr ⟨he, by rw [hail, hon]; rfl⟩)
    rw [hvue _ fun _ => rfl, hvue _ fun _ => rfl] at hmem
    exact Bool.eq_iff_iff.mpr hmem
  · intro htexte
    exact (accord_iff_reguliere hr htexte).mpr (reguliere_sans_page hlimit hoffset)

end Recherches

/-- `lower(value) LIKE lower(pattern)`, whose `lower` knows the ASCII letters. -/
def ilikeSqlite (pattern value : String) : Bool :=
  Motif.like (pattern.toList.map Char.toLower) (value.toList.map Char.toLower)

def texteJson : Json → Option String
  | .texte tag => some tag
  | _ => none

def textes : Json → Option (List String)
  | .tableau valeurs => valeurs.mapM texteJson
  | _ => none

theorem textes_tableau (tags : List String) : textes (.tableau (tags.map .texte)) = some tags := by
  have hmap : (tags.map Json.texte).mapM texteJson = some tags := by
    induction tags with
    | nil => rfl
    | cons tag tags ih =>
        rw [List.map_cons, List.mapM_cons, ih]
        rfl
  exact hmap

theorem valide_tableau (tags : List String) : Json.Valide (.tableau (tags.map .texte)) := by
  unfold Json.Valide
  induction tags with
  | nil => trivial
  | cons tag tags ih => exact ⟨trivial, ih⟩

/-- The tags as `json.dumps` writes them. -/
def tagsJson : Codec (List String) where
  dumps tags := String.ofList (Json.ecrire (.tableau (tags.map .texte)))
  loads s := (Json.lire s.toList).bind textes
  relire tags := by
    rw [String.toList_ofList, Json.lire_ecrire (valide_tableau tags), Option.bind_some,
      textes_tableau]
  nonVide tags := by
    cases tags with
    | nil => decide
    | cons tag tags =>
        intro hvide
        have hlist := congrArg String.toList hvide
        rw [String.toList_ofList] at hlist
        cases hlist

/-- Entries whose metadata hold nothing, and the documented engine. -/
def hote : Hote Unit Unit where
  lower s := String.ofList (s.toList.map Char.toLower)
  egale _ _ _ := false
  tags := tagsJson
  metadata :=
    { dumps := fun _ => "\x7b\x7d"
      loads := fun _ => some ()
      relire := fun _ => rfl
      nonVide := by decide }
  metadataVide := ()
  ilike := ilikeSqlite

def centEuros : MemoryEntry Nat Unit where
  id := "prix"
  scope := .membre .project
  title := "100 euros"
  createdAt := 1
  updatedAt := 1
  metadata := ()

end Hermes.Memory
