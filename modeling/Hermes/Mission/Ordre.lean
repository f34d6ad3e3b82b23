import Hermes.Lib.Niveaux
import Hermes.Mission.DependencyResolver

/-! # The topological order and the parallel groups

`topological_sort` visits like the cycle test, from in-degrees counted edge after edge.
-/

namespace Hermes

open Lib (Dict)
open Lib.Kahn (kahn niveaux successors need Acyclique Chemin Etage)

namespace MissionGraph

/-- `in_degree[edge.target_id] += 1` over the edges, then a degree for every node. -/
def degresEntrants (m : Mission) : Dict String Int :=
  m.nodeIds.foldl (fun d nodeId => d.setDefault nodeId 0)
    (m.arcs.foldl (fun d e => d.set e.2 (d.getD e.2 0 + 1)) [])

def topologicalSort (m : Mission) : List String :=
  kahn (fun u => (adjacency m.arcs).getD u []) (degresEntrants m).length (degresEntrants m)
    (initialQueue (degresEntrants m)) []

/-- Distinct nodes, known endpoints and no cycle. -/
structure BienFormee (m : Mission) : Prop where
  nodup : m.nodeIds.Nodup
  bouts : ∀ e ∈ m.arcs, e.1 ∈ m.nodeIds ∧ e.2 ∈ m.nodeIds
  acyclique : Acyclique m.arcs

variable {m : Mission}

theorem degresEntrants_getD (m : Mission) (v : String) :
    (degresEntrants m).getD v 0 = need m.arcs [] v := by
  rw [degresEntrants, getD_foldl_setDefault]
  exact Lib.Kahn.inDegree_getD [] m.arcs v

theorem degresEntrants_keys (h : ∀ e ∈ m.arcs, e.2 ∈ m.nodeIds) :
    (degresEntrants m).keys.Nodup ∧ ∀ v, v ∈ (degresEntrants m).keys ↔ v ∈ m.nodeIds := by
  have hfold : ∀ (edges : List (String × String)) (d : Dict String Int), d.keys.Nodup →
      (edges.foldl (fun d e => d.set e.2 (d.getD e.2 0 + 1)) d).keys.Nodup ∧
        ∀ v, v ∈ (edges.foldl (fun d e => d.set e.2 (d.getD e.2 0 + 1)) d).keys →
          v ∈ d.keys ∨ ∃ e ∈ edges, e.2 = v := by
    intro edges
    induction edges with
    | nil => exact fun d hd => ⟨hd, fun v hv => .inl hv⟩
    | cons e edges ih =>
        intro d hd
        obtain ⟨hnodup, hmem⟩ := ih _ (Dict.nodup_keys_set hd e.2 (d.getD e.2 0 + 1))
        refine ⟨hnodup, fun v hv => ?_⟩
        rcases hmem v hv with hv | ⟨e', he', rfl⟩
        · rcases (Dict.keys_set ..).mp hv with rfl | hv
          · exact .inr ⟨e, List.mem_cons_self, rfl⟩
          · exact .inl hv
        · exact .inr ⟨e', List.mem_cons_of_mem _ he', rfl⟩
  obtain ⟨hnodup, hmem⟩ := hfold m.arcs [] List.nodup_nil
  obtain ⟨hkeys, hids⟩ := keys_foldl_setDefault m.nodeIds hnodup
  refine ⟨hkeys, fun v => (hids v).trans ⟨fun hv => ?_, .inl⟩⟩
  rcases hv with hv | hv
  · exact hv
  · rcases hmem v hv with hv | ⟨e, he, rfl⟩
    · cases hv
    · exact h e he

theorem topologicalSort_spec (h : BienFormee m) :
    (topologicalSort m).Perm m.nodeIds ∧
      ∀ e ∈ m.arcs, (topologicalSort m).idxOf e.1 < (topologicalSort m).idxOf e.2 := by
  obtain ⟨hkeys, hmem⟩ := degresEntrants_keys fun e he => (h.bouts e he).2
  have hlength : m.nodeIds.length ≤ (degresEntrants m).length := by
    have hle := (List.subperm_of_subset h.nodup fun v hv => (hmem v).mpr hv).length_le
    rwa [Dict.keys, List.length_map] at hle
  exact Lib.Kahn.kahn_ordre (adjacency_getD m.arcs) h.nodup h.bouts h.acyclique hkeys hmem
    (degresEntrants_getD m) hlength

theorem visited_length (h : BienFormee m) : (visited m).length = m.nodes.length := by
  obtain ⟨hkeys, hids⟩ := allDegrees_keys m
  have hmem : ∀ v, v ∈ (allDegrees m).keys ↔ v ∈ m.nodeIds := by
    intro v
    rw [hids]
    constructor
    · rintro (hv | ⟨e, he, rfl⟩)
      · exact hv
      · exact (h.bouts e he).2
    · exact .inl
  have hlength : m.nodeIds.length ≤ (allDegrees m).length := by
    have hle := (List.subperm_of_subset h.nodup fun v hv => (hmem v).mpr hv).length_le
    rwa [Dict.keys, List.length_map] at hle
  have hordre := (Lib.Kahn.kahn_ordre (adjacency_getD m.arcs) h.nodup h.bouts h.acyclique hkeys
    hmem (allDegrees_getD m) hlength).1.length_eq
  rw [Mission.nodeIds, List.length_map] at hordre
  exact hordre

theorem issues_eq_nil_iff_bienFormee : issues m = [] ↔ BienFormee m := by
  constructor
  · intro h
    have hvalide := valide_of_issues_eq_nil h
    obtain ⟨rank, hrank⟩ := hvalide.ranked
    exact ⟨hvalide.nodup, fun e he => ⟨hvalide.source_mem e he, hvalide.target_mem e he⟩,
      Lib.Kahn.acyclique_of_rang rank hrank⟩
  · intro h
    exact (issues_eq_nil_iff m).mpr ⟨h.bouts, visited_length h⟩

theorem validateGraph_snd (m : Mission) : (validateGraph m).2 = issues m := by
  unfold validateGraph
  split
  · next h => exact (List.isEmpty_iff.mp h).symm
  · rfl

end MissionGraph

namespace DependencyResolver

open MissionGraph (BienFormee)

abbrev Tables := Dict String (List String) × Dict String Int

def tables (nodeIds : List String) : Tables :=
  nodeIds.foldl (fun s nodeId => (s.1.set nodeId [], s.2.set nodeId 0)) ([], [])

/-- One edge into the tables. An endpoint that is not a node is a `KeyError`. -/
def compterArc (s : Tables) (e : String × String) : Except String Tables :=
  match s.1.get? e.1 with
  | none => .error e.1
  | some targets =>
      match s.2.get? e.2 with
      | none => .error e.2
      | some degree => .ok (s.1.set e.1 (targets ++ [e.2]), s.2.set e.2 (degree + 1))

/-- `sorted(current)`. -/
def trier (current : List String) : List String := current.insertionSort fun a b => a ≤ b

def getParallelGroups (m : Mission) : Except String (List (List String)) :=
  (m.arcs.foldlM compterArc (tables m.nodeIds)).map fun s =>
    niveaux trier (fun u => s.1.getD u []) s.2.length s.2 (MissionGraph.initialQueue s.2)

structure SurNoeuds (nodeIds : List String) (s : Tables) : Prop where
  sources : ∀ v, (s.1.get? v).isSome ↔ v ∈ nodeIds
  cibles : ∀ v, v ∈ s.2.keys ↔ v ∈ nodeIds
  nodup : s.2.keys.Nodup

theorem tables_spec (nodeIds : List String) :
    SurNoeuds nodeIds (tables nodeIds) ∧
      ∀ v, (tables nodeIds).1.getD v [] = [] ∧ (tables nodeIds).2.getD v 0 = 0 := by
  have hfold : ∀ (ids : List String) (s : Tables), s.2.keys.Nodup →
      (∀ v, s.1.getD v [] = [] ∧ s.2.getD v 0 = 0) →
      let t := ids.foldl (fun s nodeId => (s.1.set nodeId [], s.2.set nodeId 0)) s
      (∀ v, (t.1.get? v).isSome ↔ v ∈ ids ∨ (s.1.get? v).isSome) ∧
        (∀ v, v ∈ t.2.keys ↔ v ∈ ids ∨ v ∈ s.2.keys) ∧ t.2.keys.Nodup ∧
        ∀ v, t.1.getD v [] = [] ∧ t.2.getD v 0 = 0 := by
    intro ids
    induction ids with
    | nil =>
        intro s hnodup hvide
        exact ⟨by simp, by simp, hnodup, hvide⟩
    | cons nodeId ids ih =>
        intro s hnodup hvide
        obtain ⟨hsources, hcibles, hkeys, hreads⟩ := ih
          (s.1.set nodeId [], s.2.set nodeId 0) (Dict.nodup_keys_set hnodup _ _) (by
            intro v
            simp only [Dict.getD_set]
            have hv := hvide v
            constructor <;> split <;> first | rfl | exact hv.1 | exact hv.2)
        refine ⟨fun v => ?_, fun v => ?_, hkeys, hreads⟩
        · rw [List.foldl_cons, hsources, Dict.get?_set, List.mem_cons]
          by_cases hv : v = nodeId <;> simp [hv]
        · rw [List.foldl_cons, hcibles, Dict.keys_set, List.mem_cons]
          tauto
  obtain ⟨hsources, hcibles, hkeys, hreads⟩ := hfold nodeIds ([], []) List.nodup_nil
    fun v => ⟨rfl, rfl⟩
  refine ⟨⟨fun v => ?_, fun v => ?_, hkeys⟩, hreads⟩
  · exact (hsources v).trans (by simp [Dict.get?])
  · exact (hcibles v).trans (by simp [Dict.keys])

theorem foldlM_compterArc {nodeIds : List String} {edges : List (String × String)}
    (hends : ∀ e ∈ edges, e.1 ∈ nodeIds ∧ e.2 ∈ nodeIds) {s : Tables} (hs : SurNoeuds nodeIds s) :
    ∃ t, edges.foldlM compterArc s = .ok t ∧ SurNoeuds nodeIds t ∧
      ∀ v, t.1.getD v [] = s.1.getD v [] ++ successors edges v ∧
        t.2.getD v 0 = s.2.getD v 0 + need edges [] v := by
  induction edges generalizing s with
  | nil => exact ⟨s, rfl, hs, by simp [successors, need]⟩
  | cons e edges ih =>
      obtain ⟨hsource, hcible⟩ := hends e List.mem_cons_self
      obtain ⟨targets, htargets⟩ := Option.isSome_iff_exists.mp ((hs.sources e.1).mpr hsource)
      obtain ⟨degree, hdegree⟩ := Option.isSome_iff_exists.mp
        (Dict.isSome_get?.mpr ((hs.cibles e.2).mpr hcible))
      have hstep : compterArc s e =
          .ok (s.1.set e.1 (targets ++ [e.2]), s.2.set e.2 (degree + 1)) := by
        simp only [compterArc, htargets, hdegree]
      have hnext : SurNoeuds nodeIds
          (s.1.set e.1 (targets ++ [e.2]), s.2.set e.2 (degree + 1)) := by
        refine ⟨fun v => ?_, fun v => ?_, Dict.nodup_keys_set hs.nodup _ _⟩
        · rw [Dict.get?_set]
          split
          · next hv => simp [hv, hsource]
          · exact hs.sources v
        · rw [Dict.keys_set, hs.cibles]
          exact ⟨fun h => h.elim (fun h => h ▸ hcible) id, .inr⟩
      obtain ⟨t, ht, hkeys, hreads⟩ :=
        ih (fun e' he' => hends e' (List.mem_cons_of_mem _ he')) hnext
      refine ⟨t, ?_, hkeys, fun v => ?_⟩
      · rw [List.foldlM_cons, hstep]
        exact ht
      · obtain ⟨hadjacent, hdegrees⟩ := hreads v
        rw [hadjacent, hdegrees, Dict.getD_set, Dict.getD_set, Lib.Kahn.need_cons]
        constructor
        · by_cases hv : v = e.1
          · subst hv
            simp [successors, Dict.getD, htargets]
          · simp [successors, hv, Ne.symm hv]
        · by_cases hv : v = e.2
          · subst hv
            have hread : s.2.getD e.2 0 = degree := by rw [Dict.getD, hdegree, Option.getD_some]
            simp only [if_true, List.not_mem_nil, not_false_eq_true, and_self, hread]
            omega
          · simp [hv, Ne.symm hv]

theorem getParallelGroups_spec {m : Mission} (h : BienFormee m) :
    ∃ groups, getParallelGroups m = .ok groups ∧ groups.flatten.Perm m.nodeIds ∧
      (∀ group ∈ groups, group ≠ []) ∧
      ∀ i group, groups[i]? = some group → ∀ v ∈ group,
        IsGreatest {n | Chemin m.arcs n v} i := by
  obtain ⟨hnoeuds, hvides⟩ := tables_spec m.nodeIds
  obtain ⟨s, hs, hkeys, hreads⟩ := foldlM_compterArc h.bouts hnoeuds
  have hadjacent : ∀ u, s.1.getD u [] = successors m.arcs u := by
    intro u
    rw [(hreads u).1, (hvides u).1, List.nil_append]
  have hdegrees : ∀ v, s.2.getD v 0 = need m.arcs [] v := by
    intro v
    rw [(hreads v).2, (hvides v).2, zero_add]
  have hlength : m.nodeIds.length ≤ ([] : List String).length + s.2.length := by
    have hle := (List.subperm_of_subset h.nodup fun v hv => (hkeys.cibles v).mpr hv).length_le
    rw [Dict.keys, List.length_map] at hle
    exact hle.trans (Nat.le_add_left _ _)
  have hgroups := Lib.Kahn.niveaux_spec hadjacent
    (fun l => List.perm_insertionSort (fun a b => a ≤ b) l) h.bouts h.acyclique h.nodup
    (Etage.depart hkeys.nodup hkeys.cibles hdegrees) hlength
  refine ⟨_, by rw [getParallelGroups, hs]; rfl, hgroups.1, hgroups.2.1, fun i group hi v hv => ?_⟩
  have hgreatest := hgroups.2.2 i group hi v hv
  rwa [zero_add] at hgreatest

/-- The validation accepts the well-formed graphs exactly; such a graph is sorted with every edge
forward, and its groups are its levels. -/
theorem validateGraph_sorts_groups (m : Mission) :
    ((MissionGraph.validateGraph m).2 = [] ↔ BienFormee m) ∧
      (BienFormee m →
        ((MissionGraph.topologicalSort m).Perm m.nodeIds ∧
          ∀ e ∈ m.arcs, (MissionGraph.topologicalSort m).idxOf e.1 <
            (MissionGraph.topologicalSort m).idxOf e.2) ∧
        ∃ groups, getParallelGroups m = .ok groups ∧ groups.flatten.Perm m.nodeIds ∧
          (∀ group ∈ groups, group ≠ []) ∧
          ∀ i group, groups[i]? = some group → ∀ v ∈ group,
            IsGreatest {n | Chemin m.arcs n v} i) := by
  rw [MissionGraph.validateGraph_snd]
  exact ⟨MissionGraph.issues_eq_nil_iff_bienFormee,
    fun h => ⟨MissionGraph.topologicalSort_spec h, getParallelGroups_spec h⟩⟩

end DependencyResolver

end Hermes
