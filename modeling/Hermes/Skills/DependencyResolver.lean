import Hermes.Lib.Kahn
import Hermes.Lib.Parcours
import Hermes.Lib.Profondeur
import Hermes.Skills.SkillRegistry

/-! # The resolver of dependencies

The skills asked for and all that they depend on are collected, then walked twice: once for the
cycles, once for an order.
-/

namespace Hermes.Skills

open Lib Lib.Kahn Lib.Parcours Lib.Profondeur

def Enumeration (s : Finset String) : Type := { l : List String // l.Nodup ∧ l.toFinset = s }

/-- The orders of the sets that a resolution walks. -/
structure Ordres where
  ids : (s : Finset String) → Enumeration s
  deps : String → (s : Finset String) → Enumeration s

structure DependencyGraph where
  skillIds : Finset String
  adjacency : Dict String (Finset String)
  resolvedOrder : List String
  conflicts : List String
  circularDeps : List (List String)

namespace SkillRegistry

variable (r : SkillRegistry)

def dependances (sid : String) : List String :=
  match r.get sid with
  | some skill => skill.dependencies
  | none => []

/-- The loop of `_collect_all`: the ids visited, the last one first. -/
def collectAll : Nat → List String → List String → Option (List String)
  | _, [], visited => some visited
  | 0, _ :: _, _ => none
  | n + 1, sid :: queue, visited =>
      if sid ∈ visited then collectAll n queue visited
      else
        collectAll n (queue ++ (r.dependances sid).filter fun depId => depId ∉ sid :: visited)
          (sid :: visited)

def adjacence (ids : List String) : Dict String (Finset String) :=
  ids.filterMap fun sid =>
    (r.get sid).map fun skill => (sid, skill.dependencies.toFinset ∩ ids.toFinset)

/-- `adjacency.get(u, set())`, in the order of the set. -/
def voisins (o : Ordres) (adjacency : Dict String (Finset String)) (u : String) : List String :=
  match adjacency.get? u with
  | some deps => (o.deps u deps).1
  | none => []

/-- The edges, from a skill to what it depends on. -/
def arcs (o : Ordres) (adjacency : Dict String (Finset String)) : List (String × String) :=
  adjacency.flatMap fun item => (o.deps item.1 item.2).1.map fun dep => (item.1, dep)

/-- Those that lose a degree when a skill is taken out. -/
def dependants (skillIds : List String) (adjacency : Dict String (Finset String)) (node : String) :
    List String :=
  (adjacency.filter fun item => node ∈ item.2 ∧ item.1 ∈ skillIds).map Prod.fst

def topologicalSort (o : Ordres) (tours : Nat) (skillIds : List String)
    (adjacency : Dict String (Finset String)) : Option (List String) :=
  let inDegree := inDegree skillIds ((arcs o adjacency).filter fun arc => arc.2 ∈ skillIds)
  vider (dependants skillIds adjacency) tours inDegree
    (skillIds.filter fun sid => inDegree.getD sid 0 = 0) []

/-- The empty id counts as nothing: `while p and p != v`. -/
def detectCycles (o : Ordres) (limite tours : Nat) (skillIds : List String)
    (adjacency : Dict String (Finset String)) : Option (List (List String)) :=
  (toutParcourir (fun p => p = "") tours (voisins o adjacency) limite skillIds
    (Etat.depart skillIds)).map Etat.boucles

variable (repr : List String → String)

def detectConflicts (skillIds : List String) : List String :=
  let names := skillIds.foldl (fun (names : Dict String (List String)) sid =>
    match r.get sid with
    | some skill => names.set skill.name (names.getD skill.name [] ++ [sid])
    | none => names) []
  (names.filter fun item => 1 < item.2.length).map fun item =>
    "Multiple versions of '" ++ item.1 ++ "': " ++ repr item.2

/-- Nothing when a loop has not ended after `tours` turns, or when the search of the cycles goes
deeper than `limite`. -/
def resolve (o : Ordres) (limite tours : Nat) (skillIds : List String) : Option DependencyGraph := do
  let visited ← r.collectAll tours skillIds []
  let allIds := visited.toFinset
  let ids := (o.ids allIds).1
  let adjacency := r.adjacence ids
  let circularDeps ← detectCycles o limite tours ids adjacency
  let resolvedOrder ← topologicalSort o tours ids adjacency
  some
    { skillIds := allIds
      adjacency
      resolvedOrder
      conflicts := r.detectConflicts repr ids
      circularDeps }

/-- Asked for, or something that is asked for depends on it. -/
def Requis (skillIds : List String) (x : String) : Prop :=
  ∃ s ∈ skillIds, Relation.ReflTransGen (fun a b => b ∈ r.dependances a) s x

/-- The graph of the dependencies of what is collected. -/
def Depend (skillIds : List String) (a b : String) : Prop :=
  r.Requis skillIds a ∧ b ∈ r.dependances a

structure Conforme (skillIds : List String) (g : DependencyGraph) : Prop where
  collecte : ∀ x, x ∈ g.skillIds ↔ r.Requis skillIds x
  ordre : Profondeur.Acyclique (r.Depend skillIds) →
    (g.resolvedOrder.Nodup ∧ g.resolvedOrder.toFinset = g.skillIds) ∧
      ∀ a b, r.Depend skillIds a b → g.resolvedOrder.idxOf b < g.resolvedOrder.idxOf a
  boucles : g.circularDeps = [] ↔ Profondeur.Acyclique (r.Depend skillIds)
  reelles : ∀ c ∈ g.circularDeps, Profondeur.Reelle (r.Depend skillIds) c

def ToujoursConforme (limite : Nat) (skillIds : List String) : Prop :=
  ∀ o : Ordres, ∃ tours g, r.resolve repr o limite tours skillIds = some g ∧ r.Conforme skillIds g

variable {r repr} {skillIds : List String}

theorem dependances_of_notMem {sid : String} (h : sid ∉ (Dict.keys r.skills).dedup) :
    r.dependances sid = [] := by
  rw [List.mem_dedup] at h
  unfold dependances get
  rw [Dict.get?_eq_none h]

theorem Requis.depend {a b : String} (ha : r.Requis skillIds a) (hb : b ∈ r.dependances a) :
    r.Requis skillIds b := by
  obtain ⟨s, hs, hsuite⟩ := ha
  exact ⟨s, hs, hsuite.tail hb⟩

theorem collectAll_isSome {n : Nat} {queue visited : List String}
    (hn : queue.length + restant r.dependances (Dict.keys r.skills).dedup visited ≤ n) :
    ∃ l, r.collectAll n queue visited = some l := by
  induction n generalizing queue visited with
  | zero =>
      obtain rfl : queue = [] := List.eq_nil_of_length_eq_zero (by omega)
      exact ⟨visited, rfl⟩
  | succ n ih =>
      cases queue with
      | nil => exact ⟨visited, rfl⟩
      | cons sid queue =>
          rw [List.length_cons] at hn
          rw [collectAll]
          split_ifs with hsid
          · exact ih (by omega)
          · have hreste := @restant_visiter _ _ r.dependances (Dict.keys r.skills).dedup visited sid
              (List.nodup_dedup _) hsid
            have hfiltre := List.length_filter_le (fun depId => decide (depId ∉ sid :: visited))
              (r.dependances sid)
            have hdegre : (r.dependances sid).length ≤
                if sid ∈ (Dict.keys r.skills).dedup then (r.dependances sid).length else 0 := by
              split_ifs with hconnu
              · rfl
              · rw [dependances_of_notMem hconnu, List.length_nil]
            apply ih
            rw [List.length_append]
            omega

theorem collectAll_spec {n : Nat} {queue visited l : List String}
    (h : r.collectAll n queue visited = some l)
    (hrequis : ∀ x ∈ visited ++ queue, r.Requis skillIds x)
    (hsuite : ∀ a ∈ visited, ∀ b ∈ r.dependances a, b ∈ visited ∨ b ∈ queue) :
    (∀ x ∈ visited ++ queue, x ∈ l) ∧ (∀ x ∈ l, r.Requis skillIds x) ∧
      ∀ a ∈ l, ∀ b ∈ r.dependances a, b ∈ l := by
  induction n generalizing queue visited with
  | zero =>
      cases queue with
      | nil =>
          cases h
          rw [List.append_nil] at hrequis ⊢
          exact ⟨fun _ hx => hx, hrequis, fun a ha b hb =>
            (hsuite a ha b hb).resolve_right List.not_mem_nil⟩
      | cons sid queue => cases h
  | succ n ih =>
      cases queue with
      | nil =>
          cases h
          rw [List.append_nil] at hrequis ⊢
          exact ⟨fun _ hx => hx, hrequis, fun a ha b hb =>
            (hsuite a ha b hb).resolve_right List.not_mem_nil⟩
      | cons sid queue =>
          rw [collectAll] at h
          split_ifs at h with hsid
          · obtain ⟨hdebut, hfin⟩ := ih h (by
              intro x hx
              apply hrequis x
              simp only [List.mem_append, List.mem_cons] at hx ⊢
              tauto) (by
              intro a ha b hb
              rcases hsuite a ha b hb with hb | hb
              · exact .inl hb
              · rcases List.mem_cons.mp hb with rfl | hb
                · exact .inl hsid
                · exact .inr hb)
            refine ⟨?_, hfin⟩
            intro x hx
            apply hdebut x
            simp only [List.mem_append, List.mem_cons] at hx ⊢
            rcases hx with hx | rfl | hx
            · exact .inl hx
            · exact .inl hsid
            · exact .inr hx
          · have hsidRequis := hrequis sid (by simp)
            obtain ⟨hdebut, hfin⟩ := ih h (by
              intro x hx
              simp only [List.mem_append, List.mem_cons, List.mem_filter] at hx hrequis
              rcases hx with (rfl | hx) | hx | hx
              · exact hsidRequis
              · exact hrequis x (.inl hx)
              · exact hrequis x (.inr (.inr hx))
              · exact hsidRequis.depend hx.1) (by
              intro a ha b hb
              by_cases hvu : b ∈ sid :: visited
              · exact .inl hvu
              · right
                rcases List.mem_cons.mp ha with rfl | ha
                · exact List.mem_append_right _ (List.mem_filter.mpr ⟨hb, by simpa using hvu⟩)
                · rcases hsuite a ha b hb with hb | hb
                  · exact absurd (List.mem_cons_of_mem _ hb) hvu
                  · rcases List.mem_cons.mp hb with rfl | hb
                    · exact absurd List.mem_cons_self hvu
                    · exact List.mem_append_left _ hb)
            refine ⟨?_, hfin⟩
            intro x hx
            apply hdebut x
            simp only [List.mem_append, List.mem_cons] at hx ⊢
            tauto

theorem mem_collectAll {n : Nat} {l : List String} (h : r.collectAll n skillIds [] = some l)
    (x : String) : x ∈ l ↔ r.Requis skillIds x := by
  obtain ⟨hdebut, hrequis, hclos⟩ := collectAll_spec h
    (fun x hx => ⟨x, hx, .refl⟩) nofun
  refine ⟨hrequis x, ?_⟩
  rintro ⟨s, hs, hsuite⟩
  induction hsuite with
  | refl => exact hdebut s hs
  | tail _ hb ih => exact hclos _ ih _ hb

section Graphe

variable {ids : List String} {o : Ordres}

theorem mem_adjacence {u : String} {deps : Finset String} :
    (u, deps) ∈ r.adjacence ids ↔
      u ∈ ids ∧ ∃ skill, r.get u = some skill ∧ deps = skill.dependencies.toFinset ∩ ids.toFinset := by
  rw [adjacence, List.mem_filterMap]
  constructor
  · rintro ⟨sid, hsid, hitem⟩
    obtain ⟨skill, hget, heq⟩ := Option.map_eq_some_iff.mp hitem
    obtain ⟨rfl, rfl⟩ := Prod.mk.inj heq
    exact ⟨hsid, skill, hget, rfl⟩
  · rintro ⟨hu, skill, hget, rfl⟩
    exact ⟨u, hu, by rw [hget]; rfl⟩

theorem keys_adjacence_sublist (ids : List String) : (r.adjacence ids).keys.Sublist ids := by
  unfold adjacence
  generalize ids.toFinset = tous
  induction ids with
  | nil => exact .slnil
  | cons sid ids ih =>
      cases hget : r.get sid with
      | none =>
          rw [List.filterMap_cons_none (by rw [hget]; rfl)]
          exact ih.cons _
      | some skill =>
          rw [List.filterMap_cons_some (by rw [hget]; rfl)]
          exact ih.cons_cons _

theorem nodup_keys_adjacence (hnodup : ids.Nodup) : (r.adjacence ids).keys.Nodup :=
  (keys_adjacence_sublist ids).nodup hnodup

theorem get?_adjacence (hnodup : ids.Nodup) {u : String} {deps : Finset String} :
    (r.adjacence ids).get? u = some deps ↔
      u ∈ ids ∧ ∃ skill, r.get u = some skill ∧ deps = skill.dependencies.toFinset ∩ ids.toFinset := by
  rw [← mem_adjacence]
  exact ⟨Dict.mem_of_get?, Dict.get?_of_mem (nodup_keys_adjacence hnodup)⟩

theorem mem_voisins (hnodup : ids.Nodup) (hids : ∀ x, x ∈ ids ↔ r.Requis skillIds x)
    {a b : String} : b ∈ voisins o (r.adjacence ids) a ↔ r.Depend skillIds a b := by
  unfold voisins
  split
  · next deps hget =>
    obtain ⟨ha, skill, hskill, rfl⟩ := (get?_adjacence hnodup).mp hget
    rw [← List.mem_toFinset, (o.deps a _).2.2, Finset.mem_inter, List.mem_toFinset,
      List.mem_toFinset, Depend, ← hids, dependances, hskill]
    constructor
    · exact fun h => ⟨ha, h.1⟩
    · exact fun h => ⟨h.2, (hids b).mpr (Requis.depend ((hids a).mp ha) (by
        rw [dependances, hskill]
        exact h.2))⟩
  · next hget =>
    refine ⟨nofun, ?_⟩
    rintro ⟨ha, hb⟩
    unfold dependances at hb
    split at hb
    · next skill hskill =>
      rw [(get?_adjacence hnodup).mpr ⟨(hids a).mpr ha, skill, hskill, rfl⟩] at hget
      cases hget
    · cases hb

theorem mem_arcs (hnodup : ids.Nodup) (hids : ∀ x, x ∈ ids ↔ r.Requis skillIds x) {a b : String} :
    (a, b) ∈ arcs o (r.adjacence ids) ↔ r.Depend skillIds a b := by
  rw [← @mem_voisins r skillIds ids o hnodup hids]
  unfold arcs voisins
  rw [List.mem_flatMap]
  constructor
  · rintro ⟨item, hitem, harc⟩
    obtain ⟨dep, hdep, heq⟩ := List.mem_map.mp harc
    obtain ⟨rfl, rfl⟩ := Prod.mk.inj heq
    rw [Dict.get?_of_mem (nodup_keys_adjacence hnodup) hitem]
    exact hdep
  · intro hb
    split at hb
    · next deps hget => exact ⟨(a, deps), Dict.mem_of_get? hget, List.mem_map.mpr ⟨b, hb, rfl⟩⟩
    · cases hb

theorem depend_of_mem_dependants (hids : ∀ x, x ∈ ids ↔ r.Requis skillIds x) {a b : String}
    (h : a ∈ dependants ids (r.adjacence ids) b) : r.Depend skillIds a b := by
  obtain ⟨item, hitem, rfl⟩ := List.mem_map.mp h
  obtain ⟨hmem, hcond⟩ := List.mem_filter.mp hitem
  obtain ⟨ha, skill, hskill, hdeps⟩ := mem_adjacence.mp hmem
  have hb := (of_decide_eq_true hcond).1
  rw [hdeps, Finset.mem_inter, List.mem_toFinset] at hb
  refine ⟨(hids _).mp ha, ?_⟩
  rw [dependances, hskill]
  exact hb.1

theorem exists_topologicalSort (o : Ordres) (ids : List String)
    (adjacency : Dict String (Finset String)) :
    ∃ n, ∀ tours, n ≤ tours → ∃ l, topologicalSort o tours ids adjacency = some l :=
  ⟨_, fun _ hn => vider_isSome hn⟩

theorem topologicalSort_sans_arc (hnodup : ids.Nodup) (hids : ∀ x, x ∈ ids ↔ r.Requis skillIds x)
    (hseuls : ∀ a b, ¬ r.Depend skillIds a b) {tours : Nat} {l : List String}
    (h : topologicalSort o tours ids (r.adjacence ids) = some l) : l = ids := by
  have harcs : arcs o (r.adjacence ids) = [] := by
    rw [List.eq_nil_iff_forall_not_mem]
    exact fun arc harc => hseuls arc.1 arc.2 ((mem_arcs hnodup hids).mp harc)
  have hdependants : ∀ u, dependants ids (r.adjacence ids) u = [] := by
    intro u
    rw [List.eq_nil_iff_forall_not_mem]
    exact fun a ha => hseuls a u (depend_of_mem_dependants hids ha)
  unfold topologicalSort at h
  rw [vider_sans_successeurs hdependants h, harcs, List.nil_append, List.filter_eq_self]
  intro sid _
  rw [inDegree_getD]
  rfl

theorem exists_perdu (hnodup : ids.Nodup) (hids : ∀ x, x ∈ ids ↔ r.Requis skillIds x)
    (hacyclique : Profondeur.Acyclique (r.Depend skillIds)) {a b : String}
    (hab : r.Depend skillIds a b) {tours : Nat} {l : List String}
    (h : topologicalSort o tours ids (r.adjacence ids) = some l) : ∃ x ∈ ids, x ∉ l := by
  have harcs : ∀ {a b}, (a, b) ∈ arcs o (r.adjacence ids) ↔ r.Depend skillIds a b :=
    mem_arcs hnodup hids
  obtain ⟨x, ⟨y, hy⟩, hfeuille⟩ :
      ∃ x, (∃ y, r.Depend skillIds y x) ∧ ∀ z, ¬ r.Depend skillIds x z := by
    by_contra hnon
    push Not at hnon
    have hvide := @eq_nil_of_successeurs _ _ (arcs o (r.adjacence ids)) (by
      intro v hv
      refine hacyclique v (Relation.TransGen.mono ?_ _ _ hv)
      exact fun _ _ => harcs.mp) ((arcs o (r.adjacence ids)).map Prod.snd) (by
      intro u hu
      obtain ⟨arc, harc, rfl⟩ := List.mem_map.mp hu
      obtain ⟨z, hz⟩ := hnon arc.2 ⟨arc.1, harcs.mp harc⟩
      exact ⟨z, List.mem_map.mpr ⟨(arc.2, z), harcs.mpr hz, rfl⟩, harcs.mpr hz⟩)
    have hmem : b ∈ (arcs o (r.adjacence ids)).map Prod.snd :=
      List.mem_map.mpr ⟨(a, b), harcs.mpr hab, rfl⟩
    rw [hvide] at hmem
    cases hmem
  have hx : x ∈ ids := (hids x).mpr (hy.1.depend hy.2)
  refine ⟨x, hx, ?_⟩
  intro hl
  rcases mem_vider h hl with hmem | hmem | ⟨u, hmem⟩
  · cases hmem
  · have hzero := of_decide_eq_true (List.mem_filter.mp hmem).2
    rw [inDegree_getD] at hzero
    have hneed : need ((arcs o (r.adjacence ids)).filter fun arc => arc.2 ∈ ids) [] x = 0 := by
      exact_mod_cast hzero
    have harc : (y, x) ∈ (arcs o (r.adjacence ids)).filter fun arc => arc.2 ∈ ids :=
      List.mem_filter.mpr ⟨harcs.mpr hy, by simpa using hx⟩
    cases need_eq_zero.mp hneed y harc
  · exact hfeuille u (depend_of_mem_dependants hids hmem)

end Graphe

theorem exists_enumeration (s : Finset String) (x : String) :
    ∃ e : Enumeration s, x ∈ s → ∃ reste, e.1 = x :: reste := by
  by_cases hx : x ∈ s
  · refine ⟨⟨x :: (s.erase x).toList, ?_, ?_⟩, fun _ => ⟨_, rfl⟩⟩
    · refine List.nodup_cons.mpr ⟨?_, Finset.nodup_toList _⟩
      rw [Finset.mem_toList]
      exact Finset.notMem_erase x s
    · rw [List.toFinset_cons, Finset.toList_toFinset, Finset.insert_erase hx]
  · exact ⟨⟨s.toList, Finset.nodup_toList s, Finset.toList_toFinset s⟩, fun h => absurd h hx⟩

theorem exists_ordres {listes : String → List String} (hlistes : ∀ u, (listes u).Nodup) (x : String) :
    ∃ o : Ordres, (∀ s, x ∈ s → ∃ reste, (o.ids s).1 = x :: reste) ∧
      ∀ u, (o.deps u (listes u).toFinset).1 = listes u := by
  have hdeps : ∀ u s, ∃ e : Enumeration s, (listes u).toFinset = s → e.1 = listes u := by
    intro u s
    by_cases h : (listes u).toFinset = s
    · exact ⟨⟨listes u, hlistes u, h⟩, fun _ => rfl⟩
    · exact ⟨⟨s.toList, Finset.nodup_toList s, Finset.toList_toFinset s⟩, fun h' => absurd h' h⟩
  choose ids hids using fun s => exists_enumeration s x
  choose deps hdeps using hdeps
  exact ⟨⟨ids, deps⟩, hids, fun u => hdeps u _ rfl⟩

theorem exists_requis (r : SkillRegistry) (skillIds : List String) :
    ∃ S : Finset String, ∀ x, x ∈ S ↔ r.Requis skillIds x := by
  obtain ⟨l, hl⟩ := @collectAll_isSome r _ skillIds [] le_rfl
  exact ⟨l.toFinset, fun x => List.mem_toFinset.trans (mem_collectAll hl x)⟩

section Resolution

variable {S : Finset String} {o : Ordres} {limite tours : Nat} {g : DependencyGraph}

theorem toFinset_collectAll (hS : ∀ x, x ∈ S ↔ r.Requis skillIds x) {n : Nat} {l : List String}
    (h : r.collectAll n skillIds [] = some l) : l.toFinset = S := by
  ext x
  rw [List.mem_toFinset, mem_collectAll h, hS]

theorem mem_ids (hS : ∀ x, x ∈ S ↔ r.Requis skillIds x) (x : String) :
    x ∈ (o.ids S).1 ↔ r.Requis skillIds x := by
  rw [← hS, ← List.mem_toFinset, (o.ids S).2.2]

theorem resolve_spec (hS : ∀ x, x ∈ S ↔ r.Requis skillIds x)
    (h : r.resolve repr o limite tours skillIds = some g) :
    g.skillIds = S ∧
      detectCycles o limite tours (o.ids S).1 (r.adjacence (o.ids S).1) = some g.circularDeps ∧
      topologicalSort o tours (o.ids S).1 (r.adjacence (o.ids S).1) = some g.resolvedOrder := by
  obtain ⟨l, hl, h⟩ := Option.bind_eq_some_iff.mp h
  rw [toFinset_collectAll hS hl] at h
  obtain ⟨cycles, hcycles, h⟩ := Option.bind_eq_some_iff.mp h
  obtain ⟨ordre, hordre, h⟩ := Option.bind_eq_some_iff.mp h
  cases h
  exact ⟨rfl, hcycles, hordre⟩

theorem exists_resolve (o : Ordres) (hS : ∀ x, x ∈ S ↔ r.Requis skillIds x)
    (hcycles : ∀ tours, limite ≤ tours → ∃ l,
      detectCycles o limite tours (o.ids S).1 (r.adjacence (o.ids S).1) = some l) :
    ∃ tours g, limite ≤ tours ∧ r.resolve repr o limite tours skillIds = some g := by
  obtain ⟨m, hm⟩ := exists_topologicalSort o (o.ids S).1 (r.adjacence (o.ids S).1)
  let k := skillIds.length + restant r.dependances (Dict.keys r.skills).dedup []
  obtain ⟨l, hl⟩ := @collectAll_isSome r (k + limite + m) skillIds [] (by omega)
  obtain ⟨cycles, hcycles⟩ := hcycles (k + limite + m) (by omega)
  obtain ⟨ordre, hordre⟩ := hm (k + limite + m) (by omega)
  let g : DependencyGraph :=
    ⟨S, r.adjacence (o.ids S).1, ordre, r.detectConflicts repr (o.ids S).1, cycles⟩
  refine ⟨k + limite + m, g, by omega, Option.bind_eq_some_iff.mpr ⟨l, hl, ?_⟩⟩
  rw [toFinset_collectAll hS hl]
  exact Option.bind_eq_some_iff.mpr
    ⟨cycles, hcycles, Option.bind_eq_some_iff.mpr ⟨ordre, hordre, rfl⟩⟩

theorem mene_voisins (hS : ∀ x, x ∈ S ↔ r.Requis skillIds x) :
    Mene (voisins o (r.adjacence (o.ids S).1)) = r.Depend skillIds := by
  funext a b
  exact propext (mem_voisins (o.ids S).2.1 (mem_ids hS))

theorem depend_mem_ids (hS : ∀ x, x ∈ S ↔ r.Requis skillIds x) {a b : String}
    (h : b ∈ voisins o (r.adjacence (o.ids S).1) a) : a ∈ (o.ids S).1 ∧ b ∈ (o.ids S).1 := by
  have hdepend := (mem_voisins (o.ids S).2.1 (mem_ids hS)).mp h
  rw [mem_ids hS, mem_ids hS]
  exact ⟨hdepend.1, hdepend.1.depend hdepend.2⟩

theorem exists_detectCycles (o : Ordres) (hS : ∀ x, x ∈ S ↔ r.Requis skillIds x)
    (hlimite : ∀ s, Piste (r.Depend skillIds) s → (∀ x ∈ s, r.Requis skillIds x) →
      s.length ≤ limite) (htours : limite ≤ tours) :
    ∃ l, detectCycles o limite tours (o.ids S).1 (r.adjacence (o.ids S).1) = some l := by
  have hspec := @toutParcourir_spec _ _ (fun p => p = "") tours
    (voisins o (r.adjacence (o.ids S).1)) limite htours (o.ids S).1
    (fun _ _ hy => depend_mem_ids hS hy)
  unfold detectCycles
  rcases hfin : toutParcourir (fun p => p = "") tours (voisins o (r.adjacence (o.ids S).1)) limite
      (o.ids S).1 (Etat.depart (o.ids S).1) with _ | e
  · rw [hfin, mene_voisins hS] at hspec
    obtain ⟨s, hpiste, hmem, hlong⟩ := hspec
    exact absurd (hlimite s hpiste fun x hx => (mem_ids hS x).mp (hmem x hx)) (by omega)
  · exact ⟨e.boucles, rfl⟩

theorem detectCycles_spec (hS : ∀ x, x ∈ S ↔ r.Requis skillIds x) (htours : limite ≤ tours)
    {cycles : List (List String)}
    (h : detectCycles o limite tours (o.ids S).1 (r.adjacence (o.ids S).1) = some cycles) :
    (cycles = [] ↔ Profondeur.Acyclique (r.Depend skillIds)) ∧
      ∀ c ∈ cycles, Releve (fun p => p = "") (r.Depend skillIds) c := by
  have hspec := @toutParcourir_spec _ _ (fun p => p = "") tours
    (voisins o (r.adjacence (o.ids S).1)) limite htours (o.ids S).1
    (fun _ _ hy => depend_mem_ids hS hy)
  obtain ⟨e, he, rfl⟩ := Option.map_eq_some_iff.mp h
  rw [he, mene_voisins hS] at hspec
  exact hspec

end Resolution

section Descente

variable {S : Finset String} {listes : String → List String} {o : Ordres}

theorem voisins_eq (hS : ∀ x, x ∈ S ↔ r.Requis skillIds x)
    (hlistes : ∀ a b, b ∈ listes a ↔ r.Depend skillIds a b)
    (ho : ∀ u, (o.deps u (listes u).toFinset).1 = listes u) :
    voisins o (r.adjacence (o.ids S).1) = listes := by
  funext u
  have hmem : ∀ b, b ∈ voisins o (r.adjacence (o.ids S).1) u ↔ b ∈ listes u := by
    intro b
    rw [mem_voisins (o.ids S).2.1 (mem_ids hS), hlistes]
  unfold voisins at hmem ⊢
  split at hmem
  · next deps hget =>
    have hdeps : (listes u).toFinset = deps := by
      ext b
      rw [List.mem_toFinset, ← hmem, ← List.mem_toFinset, (o.deps u deps).2.2]
    rw [← hdeps]
    exact ho u
  · exact (List.eq_nil_iff_forall_not_mem.mpr fun b hb => List.not_mem_nil ((hmem b).mpr hb)).symm

theorem exists_descente {t : String} {reste : List String}
    (hS : ∀ x, x ∈ S ↔ r.Requis skillIds x)
    (hlistes : ∀ a b, b ∈ listes a ↔ r.Depend skillIds a b) (hnodup : ∀ u, (listes u).Nodup)
    (hpiste : Piste (r.Depend skillIds) (t :: reste)) (hmem : ∀ x ∈ t :: reste, r.Requis skillIds x)
    (hguidee : Guidee listes (t :: reste)) :
    ∃ o : Ordres, ∀ limite tours g, r.resolve repr o limite tours skillIds = some g →
      (t :: reste).length ≤ limite ∧
        ∀ v, (listes t).head? = some v → v ∈ t :: reste →
          releve (fun p => p = "") t reste v ∈ g.circularDeps := by
  have hbout := List.dropLast_append_getLast (List.cons_ne_nil t reste)
  generalize (t :: reste).getLast (List.cons_ne_nil t reste) = racine at hbout
  obtain ⟨suite, hsuite⟩ : ∃ suite : List String, suite.reverse = (t :: reste).dropLast :=
    ⟨_, List.reverse_reverse _⟩
  rw [← hsuite] at hbout
  obtain ⟨o, hids, hdeps⟩ := exists_ordres hnodup racine
  have hracine : racine ∈ S := by
    rw [hS]
    apply hmem
    rw [← hbout]
    simp
  obtain ⟨ids, hids⟩ := hids S hracine
  have hvoisins := voisins_eq hS hlistes hdeps
  refine ⟨o, ?_⟩
  intro limite tours g hg
  obtain ⟨_, hcycles, _⟩ := resolve_spec hS hg
  obtain ⟨e, he, heq⟩ := Option.map_eq_some_iff.mp hcycles
  have hclos : ∀ x, ∀ y ∈ listes x, y ∈ racine :: ids := by
    intro x y hy
    rw [← hids]
    rw [← hvoisins] at hy
    exact (depend_mem_ids hS hy).2
  rw [hvoisins, hids] at he
  have hlien : Mene listes = r.Depend skillIds := by
    funext a b
    exact propext (hlistes a b)
  obtain ⟨hlimite, hnote⟩ := toutParcourir_guidee hclos (by rwa [hbout, hlien])
    (by rwa [hbout]) he
  refine ⟨?_, ?_⟩
  · rw [← hbout, List.length_append, List.length_reverse, List.length_singleton]
    exact hlimite
  · intro v htete hretour
    rw [← heq]
    exact hnote t reste v hbout htete hretour

end Descente

/-- No chain of dependencies is deeper than the limit, and nothing depends on anything, or there are
cycles, and where a climb is cut by the empty id or starts from a skill that depends on itself, what
it meets makes a cycle. -/
structure Epargne (r : SkillRegistry) (limite : Nat) (skillIds : List String) : Prop where
  profondeur : ∀ s, Piste (r.Depend skillIds) s → (∀ x ∈ s, r.Requis skillIds x) → s.length ≤ limite
  graphe : (∀ a b, ¬ r.Depend skillIds a b) ∨
    ¬ Profondeur.Acyclique (r.Depend skillIds) ∧
      ∀ u pile v, Piste (r.Depend skillIds) (u :: pile) → v ∈ u :: pile → r.Depend skillIds u v →
        Franche (fun p => p = "") u pile v ∨
          Reelle (r.Depend skillIds) (releve (fun p => p = "") u pile v)

theorem exists_listes {S : Finset String} (hS : ∀ x, x ∈ S ↔ r.Requis skillIds x) {s : List String}
    {v : String} (hnodup : s.Nodup) (hs : (v :: s).IsChain fun b a => r.Depend skillIds a b) :
    ∃ listes : String → List String, (∀ u, (listes u).Nodup) ∧
      (∀ a b, b ∈ listes a ↔ r.Depend skillIds a b) ∧ Guidee listes (v :: s) := by
  classical
  let voisines a := S.filter fun b => r.Depend skillIds a b
  have hvoisines : ∀ a b, b ∈ voisines a ↔ r.Depend skillIds a b := by
    intro a b
    rw [Finset.mem_filter, hS]
    exact ⟨fun h => h.2, fun h => ⟨h.1.depend h.2, h⟩⟩
  obtain ⟨listes, hlistes, hguidee⟩ := @exists_guidee _ _ voisines s v hnodup
    (hs.imp fun b a hab => (hvoisines a b).mpr hab)
  refine ⟨listes, fun u => (hlistes u).1, ?_, hguidee⟩
  intro a b
  rw [← hvoisines, ← (hlistes a).2, List.mem_toFinset]

theorem requis_of_piste {u : String} {pile : List String} (h : Piste (r.Depend skillIds) (u :: pile))
    (hu : r.Requis skillIds u) : ∀ x ∈ u :: pile, r.Requis skillIds x := by
  intro x hx
  rcases (h.reflTransGen hx).cases_head with rfl | ⟨y, hy, _⟩
  · exact hu
  · exact hy.1

theorem Epargne.conforme {limite : Nat} (h : r.Epargne limite skillIds) :
    r.ToujoursConforme repr limite skillIds := by
  intro o
  obtain ⟨S, hS⟩ := exists_requis r skillIds
  obtain ⟨tours, g, htours, hg⟩ := @exists_resolve r repr skillIds S limite o hS
    fun tours htours => exists_detectCycles o hS h.profondeur htours
  obtain ⟨hids, hcycles, hordre⟩ := resolve_spec hS hg
  obtain ⟨hvide, hreleves⟩ := detectCycles_spec hS htours hcycles
  refine ⟨tours, g, hg, ?_, ?_, hvide, ?_⟩
  · rw [hids]
    exact hS
  · intro hacyclique
    have hseuls := h.graphe.resolve_right fun hboucle => hboucle.1 hacyclique
    rw [topologicalSort_sans_arc (o.ids S).2.1 (mem_ids hS) hseuls hordre, hids]
    exact ⟨(o.ids S).2, fun a b hab => absurd hab (hseuls a b)⟩
  · intro c hc
    obtain ⟨u, pile, v, hpiste, hv, hretour, rfl⟩ := hreleves c hc
    rcases h.graphe with hseuls | ⟨_, hreelle⟩
    · exact absurd hretour (hseuls u v)
    · rcases hreelle u pile v hpiste hv hretour with hfranche | hreelle
      · exact hfranche.reelle hpiste hretour hv
      · exact hreelle

theorem not_conforme_of_acyclique {limite : Nat} {a b : String}
    (hacyclique : Profondeur.Acyclique (r.Depend skillIds)) (hab : r.Depend skillIds a b) :
    ¬ r.ToujoursConforme repr limite skillIds := by
  intro h
  obtain ⟨S, hS⟩ := exists_requis r skillIds
  obtain ⟨o, _⟩ := @exists_ordres (fun _ => []) (fun _ => List.nodup_nil) ""
  obtain ⟨tours, g, hg, hconforme⟩ := h o
  obtain ⟨hids, _, hordre⟩ := resolve_spec hS hg
  obtain ⟨x, hx, hperdu⟩ := exists_perdu (o.ids S).2.1 (mem_ids hS) hacyclique hab hordre
  apply hperdu
  rw [← List.mem_toFinset, (hconforme.ordre hacyclique).1.2, hids, ← (o.ids S).2.2,
    List.mem_toFinset]
  exact hx

theorem get_register (r : SkillRegistry) (skill : SkillDefinition) (x : String) :
    (r.register skill).get x = if x = skill.id then some skill else r.get x :=
  Dict.get?_set r.skills skill.id x skill

/-- A resolution does what it should, in whatever order the sets are walked, exactly on the graphs
that spare it. -/
theorem toujoursConforme_iff (r : SkillRegistry) (repr : List String → String) (limite : Nat)
    (skillIds : List String) :
    r.ToujoursConforme repr limite skillIds ↔ r.Epargne limite skillIds := by
  refine ⟨?_, Epargne.conforme⟩
  intro h
  obtain ⟨S, hS⟩ := exists_requis r skillIds
  refine ⟨?_, ?_⟩
  · intro s hpiste hmem
    cases s with
    | nil => exact Nat.zero_le limite
    | cons t reste =>
        obtain ⟨listes, hnodup, hlistes, hguidee⟩ :=
          exists_listes hS hpiste.nodup.tail hpiste.chaine
        obtain ⟨o, ho⟩ := @exists_descente r repr skillIds S listes _ _ hS hlistes hnodup hpiste hmem hguidee
        obtain ⟨tours, g, hg, _⟩ := h o
        exact (ho limite tours g hg).1
  · by_cases hseuls : ∀ a b, ¬ r.Depend skillIds a b
    · exact .inl hseuls
    · right
      push Not at hseuls
      obtain ⟨a, b, hab⟩ := hseuls
      refine ⟨fun hacyclique => not_conforme_of_acyclique hacyclique hab h, ?_⟩
      intro u pile v hpiste hv hretour
      right
      obtain ⟨listes, hnodup, hlistes, hguidee⟩ :=
        exists_listes hS hpiste.nodup (List.isChain_cons_cons.mpr ⟨hretour, hpiste.chaine⟩)
      obtain ⟨htete, hguidee⟩ := List.isChain_cons_cons.mp hguidee
      obtain ⟨o, ho⟩ := @exists_descente r repr skillIds S listes _ _ hS hlistes hnodup hpiste
        (requis_of_piste hpiste hretour.1) hguidee
      obtain ⟨tours, g, hg, hconforme⟩ := h o
      exact hconforme.reelles _ ((ho limite tours g hg).2 v htete hv)

theorem feuille_perdue :
    ¬ ((({} : SkillRegistry).register { id := "A", dependencies := ["B"] }).register
      { id := "B" }).ToujoursConforme String.join 1000 ["A"] := by
  generalize hr : (({} : SkillRegistry).register { id := "A", dependencies := ["B"] }).register
    { id := "B" } = r
  have hdependances : ∀ a b, b ∈ r.dependances a → a = "A" ∧ b = "B" := by
    intro a b hb
    rw [← hr, dependances, get_register, get_register] at hb
    split_ifs at hb with h₁ h₂
    · cases hb
    · exact ⟨h₂, List.mem_singleton.mp hb⟩
    · cases hb
  have hacyclique : Profondeur.Acyclique (r.Depend ["A"]) := by
    intro v hv
    obtain ⟨b, hb, _⟩ := Relation.TransGen.head'_iff.mp hv
    obtain ⟨a, _, ha⟩ := Relation.TransGen.tail'_iff.mp hv
    have hdebut := (hdependances v b hb.2).1
    rw [(hdependances a v ha.2).2] at hdebut
    exact absurd hdebut (by decide)
  have hab : r.Depend ["A"] "A" "B" := by
    refine ⟨⟨"A", List.mem_cons_self, .refl⟩, ?_⟩
    rw [← hr, dependances, get_register, get_register]
    decide
  exact not_conforme_of_acyclique hacyclique hab

end SkillRegistry

end Hermes.Skills
