import Hermes.Lib.Kahn
import Hermes.Mission.Models
import Mathlib.Algebra.GroupWithZero.Nat

/-! # The mission graph: construction and validation

`build_graph` derives every node's `dependsOn` from the edges. `validate_graph` reports unknown
endpoints and cycles, and accepts the graph when it reports nothing.
-/

namespace Hermes

open Lib (Dict)
open Lib.Kahn (kahn successors need)

namespace MissionGraph

def dependsOnFromEdges (edges : List MissionEdge) (nodeId : String) : List String :=
  (edges.filter fun e => e.targetId = nodeId).map MissionEdge.sourceId

def buildGraph (m : Mission) (nodes : List MissionNode) (edges : List MissionEdge) : Mission :=
  { m with
    nodes := nodes.map fun n => { n with dependsOn := dependsOnFromEdges edges n.nodeId }
    edges := edges }

/-- `adjacency[source].append(target)` over the edges. -/
def adjacency (edges : List (String × String)) : Dict String (List String) :=
  edges.foldl (fun d e => d.set e.1 (d.getD e.1 [] ++ [e.2])) []

/-- `in_degree[v] += 1` over the targets of one vertex. -/
def countTargets (d : Dict String Int) (targets : List String) : Dict String Int :=
  targets.foldl (fun d v => d.set v (d.getD v 0 + 1)) d

def inDegree (adjacent : Dict String (List String)) : Dict String Int :=
  adjacent.foldl (fun d entry => countTargets d entry.2) []

def allDegrees (m : Mission) : Dict String Int :=
  m.nodeIds.foldl (fun d nodeId => d.setDefault nodeId 0) (inDegree (adjacency m.arcs))

def initialQueue (degrees : Dict String Int) : List String :=
  (degrees.filter fun entry => entry.2 = 0).map Prod.fst

/-- The vertices visited by the loop of `_detect_cycles`, in order. -/
def visited (m : Mission) : List String :=
  kahn (fun u => (adjacency m.arcs).getD u []) (allDegrees m).length (allDegrees m)
    (initialQueue (allDegrees m)) []

def detectCycles (m : Mission) : Bool := (visited m).length != m.nodes.length

def edgeIssues (m : Mission) (e : MissionEdge) : List String :=
  (if m.nodeIds.contains e.sourceId then []
    else ["Edge source '" ++ e.sourceId ++ "' not in nodes"]) ++
  (if m.nodeIds.contains e.targetId then []
    else ["Edge target '" ++ e.targetId ++ "' not in nodes"])

def issues (m : Mission) : List String :=
  m.edges.flatMap (edgeIssues m) ++
    if detectCycles m then ["Graph contains cycles — must be a DAG"] else []

def validateGraph (m : Mission) : Mission × List String :=
  if (issues m).isEmpty then ({ m with status := .validated }, []) else (m, issues m)

theorem adjacency_getD (edges : List (String × String)) (u : String) :
    (adjacency edges).getD u [] = successors edges u :=
  Lib.Kahn.foldl_adjacency_getD edges [] u

theorem countTargets_getD (d : Dict String Int) (targets : List String) (v : String) :
    (countTargets d targets).getD v 0 = d.getD v 0 + targets.count v := by
  unfold countTargets
  induction targets generalizing d with
  | nil => simp
  | cons w targets ih =>
      rw [List.foldl_cons, ih, Dict.getD_set, List.count_cons]
      by_cases h : v = w
      · subst h
        simp only [if_true, beq_self_eq_true]
        omega
      · have hne : (w == v) = false := by simpa using Ne.symm h
        simp [h, hne]

/-- The number of times `v` is listed as a target. -/
def targetCount (adjacent : Dict String (List String)) (v : String) : Nat :=
  (adjacent.map fun entry => entry.2.count v).sum

theorem inDegree_getD (adjacent : Dict String (List String)) (v : String) :
    (inDegree adjacent).getD v 0 = targetCount adjacent v := by
  have hfold : ∀ d : Dict String Int,
      (adjacent.foldl (fun d entry => countTargets d entry.2) d).getD v 0
        = d.getD v 0 + targetCount adjacent v := by
    induction adjacent with
    | nil => simp [targetCount]
    | cons entry adjacent ih =>
        intro d
        rw [List.foldl_cons, ih, countTargets_getD]
        simp only [targetCount, List.map_cons, List.sum_cons]
        omega
  simpa [inDegree, Dict.getD, Dict.get?] using hfold []

theorem targetCount_eq_zero (adjacent : Dict String (List String)) (v : String) :
    targetCount adjacent v = 0 ↔ ∀ entry ∈ adjacent, v ∉ entry.2 := by
  induction adjacent with
  | nil => simp [targetCount]
  | cons entry adjacent ih =>
      simp only [targetCount, List.map_cons, List.sum_cons, Nat.add_eq_zero_iff,
        List.count_eq_zero, List.forall_mem_cons] at ih ⊢
      rw [ih]

theorem targetCount_set (adjacent : Dict String (List String)) (u t v : String) :
    targetCount (adjacent.set u (adjacent.getD u [] ++ [t])) v
      = targetCount adjacent v + if t = v then 1 else 0 := by
  induction adjacent with
  | nil => simp [Dict.set, targetCount, Dict.getD, Dict.get?, List.count_cons]
  | cons entry adjacent ih =>
      obtain ⟨k, targets⟩ := entry
      by_cases hk : k = u
      · subst hk
        have hread : Dict.getD ((k, targets) :: adjacent) k [] = targets := by
          simp [Dict.getD, Dict.get?_cons]
        rw [hread]
        simp only [Dict.set, if_true, targetCount, List.map_cons, List.sum_cons,
          List.count_append, List.count_cons, List.count_nil, beq_iff_eq]
        omega
      · have hread : Dict.getD ((k, targets) :: adjacent) u [] = Dict.getD adjacent u [] := by
          simp [Dict.getD, Dict.get?_cons, Ne.symm hk]
        rw [hread]
        simp only [Dict.set, hk, if_false, targetCount, List.map_cons, List.sum_cons] at ih ⊢
        omega

theorem targetCount_adjacency (edges : List (String × String)) (v : String) :
    targetCount (adjacency edges) v = need edges [] v := by
  have hfold : ∀ d : Dict String (List String),
      targetCount (edges.foldl (fun d e => d.set e.1 (d.getD e.1 [] ++ [e.2])) d) v
        = targetCount d v + need edges [] v := by
    induction edges with
    | nil => simp [need]
    | cons e edges ih =>
        intro d
        rw [List.foldl_cons, ih, targetCount_set]
        simp only [need, List.not_mem_nil, not_false_eq_true, and_true, List.countP_cons,
          decide_eq_true_eq]
        omega
  simpa [adjacency, targetCount] using hfold []

theorem getD_foldl_setDefault (ids : List String) (d : Dict String Int) (v : String) :
    (ids.foldl (fun d nodeId => d.setDefault nodeId 0) d).getD v 0 = d.getD v 0 := by
  induction ids generalizing d with
  | nil => rfl
  | cons nodeId ids ih => rw [List.foldl_cons, ih, Dict.getD_setDefault]

theorem allDegrees_getD (m : Mission) (v : String) :
    (allDegrees m).getD v 0 = need m.arcs [] v := by
  rw [allDegrees, getD_foldl_setDefault, inDegree_getD, targetCount_adjacency]

private theorem countTargets_keys {d : Dict String Int} (hd : d.keys.Nodup)
    (targets : List String) :
    (countTargets d targets).keys.Nodup ∧
      ∀ v, v ∈ (countTargets d targets).keys ↔ v ∈ targets ∨ v ∈ d.keys := by
  unfold countTargets
  induction targets generalizing d with
  | nil => simp [hd]
  | cons w targets ih =>
      obtain ⟨hnodup, hmem⟩ := ih (Dict.nodup_keys_set hd w (d.getD w 0 + 1))
      refine ⟨hnodup, fun v => ?_⟩
      rw [List.foldl_cons, hmem, Dict.keys_set, List.mem_cons]
      tauto

private theorem inDegree_keys (adjacent : Dict String (List String)) :
    (inDegree adjacent).keys.Nodup ∧
      ∀ v, v ∈ (inDegree adjacent).keys ↔ ∃ entry ∈ adjacent, v ∈ entry.2 := by
  have hfold : ∀ d : Dict String Int, d.keys.Nodup →
      (adjacent.foldl (fun d entry => countTargets d entry.2) d).keys.Nodup ∧
        ∀ v, v ∈ (adjacent.foldl (fun d entry => countTargets d entry.2) d).keys ↔
          v ∈ d.keys ∨ ∃ entry ∈ adjacent, v ∈ entry.2 := by
    induction adjacent with
    | nil => exact fun d hd => ⟨hd, by simp⟩
    | cons entry adjacent ih =>
        intro d hd
        obtain ⟨hcount, hcountMem⟩ := countTargets_keys hd entry.2
        obtain ⟨hnodup, hmem⟩ := ih _ hcount
        refine ⟨hnodup, fun v => ?_⟩
        rw [List.foldl_cons, hmem, hcountMem]
        simp only [List.mem_cons, exists_eq_or_imp]
        tauto
  simpa [inDegree, Dict.keys] using hfold [] List.nodup_nil

private theorem mem_keys_inDegree (edges : List (String × String)) (v : String) :
    v ∈ (inDegree (adjacency edges)).keys ↔ ∃ e ∈ edges, e.2 = v := by
  have hcount := not_congr (targetCount_eq_zero (adjacency edges) v)
  push Not at hcount
  rw [(inDegree_keys _).2, ← hcount, targetCount_adjacency, need, ne_eq, List.countP_eq_zero]
  simp

theorem keys_foldl_setDefault (ids : List String) {d : Dict String Int} (hd : d.keys.Nodup) :
    (ids.foldl (fun d nodeId => d.setDefault nodeId 0) d).keys.Nodup ∧
      ∀ v, v ∈ (ids.foldl (fun d nodeId => d.setDefault nodeId 0) d).keys ↔
        v ∈ ids ∨ v ∈ d.keys := by
  induction ids generalizing d with
  | nil => simp [hd]
  | cons nodeId ids ih =>
      obtain ⟨hnodup, hmem⟩ := ih (Dict.nodup_keys_setDefault hd nodeId 0)
      refine ⟨hnodup, fun v => ?_⟩
      rw [List.foldl_cons, hmem, Dict.mem_keys_setDefault, List.mem_cons]
      tauto

theorem allDegrees_keys (m : Mission) :
    (allDegrees m).keys.Nodup ∧
      ∀ v, v ∈ (allDegrees m).keys ↔ v ∈ m.nodeIds ∨ ∃ e ∈ m.arcs, e.2 = v := by
  obtain ⟨hnodup, hmem⟩ :=
    keys_foldl_setDefault m.nodeIds (inDegree_keys (adjacency m.arcs)).1
  refine ⟨hnodup, fun v => ?_⟩
  rw [allDegrees, hmem, mem_keys_inDegree]

private theorem mem_initialQueue {degrees : Dict String Int} (h : degrees.keys.Nodup)
    {v : String} (hv : v ∈ initialQueue degrees) : v ∈ degrees.keys ∧ degrees.getD v 0 = 0 :=
  (Lib.Kahn.mem_sources h).mp hv

private theorem visit_start (m : Mission) :
    Lib.Kahn.Inv m.arcs (allDegrees m) (initialQueue (allDegrees m)) [] :=
  Lib.Kahn.Inv.depart (allDegrees_keys m).1 (allDegrees_getD m)

/-- The shape the executor relies on: distinct nodes, known endpoints, and a rank
that every edge increases. -/
structure Valide (m : Mission) : Prop where
  nodup : m.nodeIds.Nodup
  source_mem : ∀ e ∈ m.arcs, e.1 ∈ m.nodeIds
  target_mem : ∀ e ∈ m.arcs, e.2 ∈ m.nodeIds
  ranked : ∃ rank : String → Nat, ∀ e ∈ m.arcs, rank e.1 < rank e.2

theorem issues_eq_nil_iff (m : Mission) :
    issues m = [] ↔ (∀ e ∈ m.arcs, e.1 ∈ m.nodeIds ∧ e.2 ∈ m.nodeIds) ∧
      (visited m).length = m.nodes.length := by
  have hedge : ∀ e : MissionEdge, edgeIssues m e = [] ↔
      e.sourceId ∈ m.nodeIds ∧ e.targetId ∈ m.nodeIds := by
    intro e
    simp only [edgeIssues, List.append_eq_nil_iff, List.contains_iff_mem]
    constructor
    · rintro ⟨hs, ht⟩
      constructor
      · by_contra h
        simp [h] at hs
      · by_contra h
        simp [h] at ht
    · rintro ⟨hs, ht⟩
      simp [hs, ht]
  simp only [issues, List.append_eq_nil_iff, List.flatMap_eq_nil_iff, hedge, Mission.arcs,
    List.mem_map, forall_exists_index, and_imp, forall_apply_eq_imp_iff₂, detectCycles]
  simp

theorem valide_of_issues_eq_nil {m : Mission} (h : issues m = []) : Valide m := by
  obtain ⟨hends, hlength⟩ := (issues_eq_nil_iff m).mp h
  have htargets : ∀ e ∈ m.arcs, e.2 ∈ m.nodeIds := fun e he => (hends e he).2
  have hqueue : ∀ v ∈ [] ++ initialQueue (allDegrees m), v ∈ m.nodeIds := by
    intro v hv
    obtain ⟨hnodup, hmem⟩ := allDegrees_keys m
    rcases (hmem v).mp (mem_initialQueue hnodup (by simpa using hv)).1 with hv | ⟨e, he, rfl⟩
    · exact hv
    · exact htargets e he
  obtain ⟨degrees, queue, hend⟩ :=
    Lib.Kahn.kahn_inv (adjacency_getD m.arcs) (allDegrees m).length (visit_start m)
  have hsubset := Lib.Kahn.kahn_subset (adjacency_getD m.arcs) htargets (allDegrees m).length
    (visit_start m) hqueue
  have hcount : (visited m).length = m.nodeIds.length := by
    rw [hlength, Mission.nodeIds, List.length_map]
  obtain ⟨hnodup, hsorted⟩ := Lib.Kahn.linearisation_of_length htargets hend hsubset hcount
  exact ⟨hnodup, fun e he => (hends e he).1, htargets, (visited m).idxOf, hsorted⟩

end MissionGraph

end Hermes
