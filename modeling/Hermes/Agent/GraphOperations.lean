import Hermes.Agent.ExecutionGraph
import Hermes.Lib.Niveaux

/-! # Sequences of operations on an execution graph

The methods are run as the source runs them, on a graph that they write: what is written before a
raise would stay.
-/

namespace Hermes.Agent.ExecutionGraph

open Lib ExecutionGraphValidator
open Lib.Kahn (Acyclique Chemin internes visiter)

inductive Operation where
  | addNode (node : AgentNode)
  | removeNode (nodeId : String)
  | addEdge (edge : AgentEdge)
  | removeEdge (source target : String)
  deriving DecidableEq

abbrev Methode := ExceptT GraphException (StateM ExecutionGraph)

variable (g : ExecutionGraph)

theorem cles_poserNoeud (node : AgentNode) : (g.nodes.set node.id node).keys.Nodup :=
  Dict.nodup_keys_set g.cles node.id node

/-- `self._nodes[node.id] = node` -/
def poserNoeud (node : AgentNode) : ExecutionGraph :=
  { g with
    nodes := g.nodes.set node.id node
    cles := cles_poserNoeud g node }

theorem cles_oterNoeud (nodeId : String) : (g.nodes.erase nodeId).keys.Nodup :=
  Dict.nodup_keys_erase g.cles nodeId

/-- `del self._nodes[node_id]` -/
def oterNoeud (nodeId : String) : ExecutionGraph :=
  { g with
    nodes := g.nodes.erase nodeId
    cles := cles_oterNoeud g nodeId }

def oterArcs (nodeId : String) : ExecutionGraph :=
  { g with edges := g.edges.filter fun e => e.source ≠ nodeId ∧ e.target ≠ nodeId }

def Operation.methode : Operation → Methode Unit
  | addNode node => do
      if node.id ∈ (← get).nodes.keys then throw (.noeudExistant node.id)
      modify (·.poserNoeud node)
  | removeNode nodeId => do
      if nodeId ∉ (← get).nodes.keys then throw (.noeudInconnu nodeId)
      modify (·.oterNoeud nodeId)
      modify (·.oterArcs nodeId)
  | addEdge edge => do
      let g ← get
      let errors := checkInvalidReferences g.nodes (g.edges ++ [edge])
      if errors ≠ [] then throw (.executionGraph errors)
      let cycleErrors := detectCycles g.nodes (g.edges ++ [edge])
      if cycleErrors ≠ [] then throw (.cycle cycleErrors)
      modify fun g => { g with edges := g.edges ++ [edge] }
  | removeEdge source target => do
      let g ← get
      if g.edges.any fun e => e.source = source ∧ e.target = target then
        set { g with edges := g.edges.eraseP fun e => e.source = source ∧ e.target = target }
      else throw (.arcInconnu source target)

def appliquer : Operation → Except GraphException ExecutionGraph
  | .addNode node => g.addNode node
  | .removeNode nodeId => g.removeNode nodeId
  | .addEdge edge => g.addEdge edge
  | .removeEdge source target => g.removeEdge source target

def executer (op : Operation) : Except GraphException Unit × ExecutionGraph := op.methode.run.run g

def apres (operations : List Operation) : ExecutionGraph :=
  operations.foldl (fun g op => (g.executer op).2) {}

@[simp] theorem run_get (suite : ExecutionGraph → Methode Unit) :
    StateT.run (ExceptT.run (get >>= suite)) g = StateT.run (ExceptT.run (suite g)) g := rfl

@[simp] theorem run_modify (f : ExecutionGraph → ExecutionGraph) :
    StateT.run (ExceptT.run (modify f : Methode Unit)) g = (.ok (), f g) := rfl

@[simp] theorem run_modify_bind (f : ExecutionGraph → ExecutionGraph)
    (suite : Unit → Methode Unit) :
    StateT.run (ExceptT.run ((modify f : Methode Unit) >>= suite)) g =
      StateT.run (ExceptT.run (suite ())) (f g) := rfl

@[simp] theorem run_set (g' : ExecutionGraph) :
    StateT.run (ExceptT.run (set g' : Methode Unit)) g = (.ok (), g') := rfl

theorem executer_eq (op : Operation) :
    g.executer op =
      match g.appliquer op with
      | .ok g' => (.ok (), g')
      | .error e => (.error e, g) := by
  cases op with
  | addNode node =>
      by_cases h : node.id ∈ g.nodes.keys
      · simp only [executer, Operation.methode, appliquer, addNode, run_get, h, if_true]
        rfl
      · simp only [executer, Operation.methode, appliquer, addNode, run_get, h, if_false]
        rfl
  | removeNode nodeId =>
      by_cases h : nodeId ∈ g.nodes.keys
      · simp only [executer, Operation.methode, appliquer, removeNode, run_get, h, not_true_eq_false,
          if_false]
        rfl
      · simp only [executer, Operation.methode, appliquer, removeNode, run_get, h,
          not_false_eq_true, if_true]
        rfl
  | addEdge edge =>
      by_cases h : checkInvalidReferences g.nodes (g.edges ++ [edge]) = []
      · by_cases h' : detectCycles g.nodes (g.edges ++ [edge]) = []
        · simp only [executer, Operation.methode, appliquer, addEdge, run_get, h, h', ne_eq,
            not_true_eq_false, if_false]
          rfl
        · simp only [executer, Operation.methode, appliquer, addEdge, run_get, h, h', ne_eq,
            not_true_eq_false, not_false_eq_true, if_true, if_false]
          rfl
      · simp only [executer, Operation.methode, appliquer, addEdge, run_get, h, ne_eq,
          not_false_eq_true, if_true]
        rfl
  | removeEdge source target =>
      cases h : g.edges.any fun e => e.source = source ∧ e.target = target with
      | true => simp only [executer, Operation.methode, appliquer, removeEdge, run_get, h, if_true,
          run_set]
      | false =>
          simp only [executer, Operation.methode, appliquer, removeEdge, run_get, h,
            Bool.false_eq_true, if_false]
          rfl

/-- Every edge goes between nodes, and no node leads back to itself. -/
structure Bien : Prop where
  extremites : ∀ e ∈ arcs g.edges, e.1 ∈ g.nodes.keys ∧ e.2 ∈ g.nodes.keys
  acyclique : Acyclique (arcs g.edges)

/-- A path of the graph goes from one node to the other. -/
def Mene (u v : String) : Prop :=
  u ∈ g.nodes.keys ∧ Relation.ReflTransGen (fun a b => (a, b) ∈ arcs g.edges) u v

section Invariant

variable {g} {g' : ExecutionGraph} {node : AgentNode} {edge : AgentEdge} {nodeId source target : String}

theorem arcs_concat (edges : List AgentEdge) (edge : AgentEdge) :
    arcs (edges ++ [edge]) = arcs edges ++ [(edge.source, edge.target)] := by simp [arcs]

theorem Bien.mono (h : g.Bien) (hsub : ∀ e ∈ arcs g'.edges, e ∈ arcs g.edges)
    (hends : ∀ e ∈ arcs g'.edges, e.1 ∈ g'.nodes.keys ∧ e.2 ∈ g'.nodes.keys) : g'.Bien :=
  ⟨hends, h.acyclique.mono hsub⟩

theorem Bien.addNode (h : g.Bien) (hok : g.addNode node = .ok g') : g'.Bien := by
  unfold ExecutionGraph.addNode at hok
  split at hok
  · cases hok
  · cases hok
    refine h.mono (fun e he => he) fun e he => ?_
    obtain ⟨hs, ht⟩ := h.extremites e he
    simp only [Dict.keys_set]
    exact ⟨.inr hs, .inr ht⟩

theorem Bien.removeNode (h : g.Bien) (hok : g.removeNode nodeId = .ok g') : g'.Bien := by
  unfold ExecutionGraph.removeNode at hok
  split at hok
  · cases hok
  · cases hok
    have harcs : ∀ e ∈ arcs (g.edges.filter fun e => e.source ≠ nodeId ∧ e.target ≠ nodeId),
        e ∈ arcs g.edges ∧ e.1 ≠ nodeId ∧ e.2 ≠ nodeId := by
      intro e he
      obtain ⟨edge, hedge, rfl⟩ := List.mem_map.mp he
      obtain ⟨hmem, hne⟩ := List.mem_filter.mp hedge
      exact ⟨List.mem_map_of_mem hmem, of_decide_eq_true hne⟩
    have hreste : ∀ {id}, id ∈ g.nodes.keys → id ≠ nodeId → id ∈ (g.nodes.erase nodeId).keys := by
      intro id hid hne
      rw [← Dict.isSome_get?, Dict.get?_erase, if_neg hne]
      exact Dict.isSome_get?.mpr hid
    refine h.mono (fun e he => (harcs e he).1) fun e he => ?_
    obtain ⟨hmem, hs, ht⟩ := harcs e he
    exact ⟨hreste (h.extremites e hmem).1 hs, hreste (h.extremites e hmem).2 ht⟩

theorem Bien.removeEdge (h : g.Bien) (hok : g.removeEdge source target = .ok g') : g'.Bien := by
  unfold ExecutionGraph.removeEdge at hok
  split at hok
  · cases hok
    have hsub : ∀ e ∈ arcs (g.edges.eraseP fun e => e.source = source ∧ e.target = target),
        e ∈ arcs g.edges := by
      intro e he
      obtain ⟨edge, hedge, rfl⟩ := List.mem_map.mp he
      exact List.mem_map_of_mem (List.mem_of_mem_eraseP hedge)
    exact h.mono hsub fun e he => h.extremites e (hsub e he)
  · cases hok

theorem bien_addEdge (hok : g.addEdge edge = .ok g') : g'.Bien := by
  unfold ExecutionGraph.addEdge at hok
  dsimp only at hok
  split at hok
  · cases hok
  · next href =>
      split at hok
      · cases hok
      · next hcycle =>
          cases hok
          rw [ne_eq, not_not] at href hcycle
          have hends := checkInvalidReferences_eq_nil_iff.mp href
          rw [detectCycles_eq_nil_iff g.cles, Kahn.internes_eq_self hends] at hcycle
          exact ⟨hends, hcycle⟩

theorem Bien.executer (h : g.Bien) (op : Operation) : (g.executer op).2.Bien := by
  rw [executer_eq]
  cases hop : g.appliquer op with
  | error e => exact h
  | ok g' =>
      cases op with
      | addNode node => exact h.addNode hop
      | removeNode nodeId => exact h.removeNode hop
      | addEdge edge => exact bien_addEdge hop
      | removeEdge source target => exact h.removeEdge hop

theorem bien_apres (operations : List Operation) : (apres operations).Bien := by
  have hfold : ∀ g : ExecutionGraph, g.Bien →
      (operations.foldl (fun g op => (g.executer op).2) g).Bien := by
    induction operations with
    | nil => exact fun g h => h
    | cons op operations ih => exact fun g h => ih _ (h.executer op)
  exact hfold {} ⟨by simp [arcs], Kahn.acyclique_of_rang (fun _ => 0) (by simp [arcs])⟩

theorem Bien.addEdge_cycle_iff (h : g.Bien) :
    (∃ erreurs, g.addEdge edge = .error (.cycle erreurs)) ↔ g.Mene edge.target edge.source := by
  have hends : checkInvalidReferences g.nodes (g.edges ++ [edge]) = [] ↔
      edge.source ∈ g.nodes.keys ∧ edge.target ∈ g.nodes.keys := by
    rw [checkInvalidReferences_eq_nil_iff, arcs_concat]
    constructor
    · intro hall
      exact hall _ (List.mem_append_right _ (List.mem_singleton_self _))
    · intro hedge e he
      rcases List.mem_append.mp he with he | he
      · exact h.extremites e he
      · rw [List.mem_singleton.mp he]
        exact hedge
  have hcycle : edge.source ∈ g.nodes.keys ∧ edge.target ∈ g.nodes.keys →
      (detectCycles g.nodes (g.edges ++ [edge]) ≠ [] ↔
        Relation.ReflTransGen (fun a b => (a, b) ∈ arcs g.edges) edge.target edge.source) := by
    intro hedge
    have hall := checkInvalidReferences_eq_nil_iff.mp (hends.mpr hedge)
    rw [ne_eq, detectCycles_eq_nil_iff g.cles, Kahn.internes_eq_self hall, arcs_concat,
      Kahn.acyclique_concat_iff h.acyclique, not_not]
  have hsource : g.Mene edge.target edge.source → edge.source ∈ g.nodes.keys := by
    rintro ⟨htarget, hpath⟩
    rcases hpath.cases_tail with heq | ⟨u, -, harc⟩
    · rwa [heq]
    · exact (h.extremites _ harc).2
  unfold ExecutionGraph.addEdge
  dsimp only
  constructor
  · rintro ⟨erreurs, herreur⟩
    split at herreur
    · cases herreur
    · next href =>
        rw [ne_eq, not_not] at href
        split at herreur
        · next hdetecte => exact ⟨(hends.mp href).2, (hcycle (hends.mp href)).mp hdetecte⟩
        · cases herreur
  · intro hpath
    have hedge : edge.source ∈ g.nodes.keys ∧ edge.target ∈ g.nodes.keys :=
      ⟨hsource hpath, hpath.1⟩
    have href : ¬ checkInvalidReferences g.nodes (g.edges ++ [edge]) ≠ [] := by
      rw [ne_eq, not_not]
      exact hends.mpr hedge
    refine ⟨detectCycles g.nodes (g.edges ++ [edge]), ?_⟩
    rw [if_neg href, if_pos ((hcycle hedge).mpr hpath.2)]

end Invariant

section Niveaux

variable {edges : List (String × String)} {vertices order queue : List String}
  {degrees : Dict String Int} {levelOf : Dict String Nat} {u v : String}

theorem getD_descendre (level : Nat) (levelOf : Dict String Nat) (suivants : List String)
    (v : String) :
    (descendre level levelOf suivants).getD v 0 =
      if v ∈ suivants then max (levelOf.getD v 0) (level + 1) else levelOf.getD v 0 := by
  unfold descendre
  induction suivants generalizing levelOf with
  | nil => simp
  | cons w suivants ih =>
      rw [List.foldl_cons, ih, Dict.getD_set]
      by_cases hw : v = w
      · subst hw
        simp
      · simp [hw]

theorem keys_descendre (level : Nat) (levelOf : Dict String Nat) (suivants : List String) :
    ((levelOf.keys.Nodup → (descendre level levelOf suivants).keys.Nodup)) ∧
      ∀ v, v ∈ (descendre level levelOf suivants).keys ↔ v ∈ levelOf.keys ∨ v ∈ suivants := by
  unfold descendre
  induction suivants generalizing levelOf with
  | nil => simp
  | cons w suivants ih =>
      rw [List.foldl_cons]
      obtain ⟨hnodup, hmem⟩ := ih (levelOf.set w (max (levelOf.getD w 0) (level + 1)))
      refine ⟨fun h => hnodup (Dict.nodup_keys_set h _ _), fun v => ?_⟩
      rw [hmem, Dict.keys_set, List.mem_cons]
      tauto

/-- What holds of the levels between two turns: each is the length of a path, and an edge out of a
vertex that was taken out goes down one level at least. -/
structure Profond (vertices : List String) (edges : List (String × String))
    (order queue : List String) (levelOf : Dict String Nat) : Prop where
  chemin : ∀ v, Chemin edges (levelOf.getD v 0) v
  borne : ∀ u ∈ order, ∀ v, (u, v) ∈ edges → levelOf.getD u 0 + 1 ≤ levelOf.getD v 0
  cles : levelOf.keys.Nodup
  dedans : ∀ v ∈ levelOf.keys, v ∈ vertices
  connus : ∀ v ∈ order ++ queue, v ∈ levelOf.keys

theorem Profond.step (hends : ∀ e ∈ edges, e.1 ∈ vertices ∧ e.2 ∈ vertices)
    (hinv : Kahn.Inv edges degrees (u :: queue) order)
    (h : Profond vertices edges order (u :: queue) levelOf) :
    Profond vertices edges (order ++ [u]) (Kahn.relax degrees queue (Kahn.successors edges u)).2
      (descendre (levelOf.getD u 0) levelOf (Kahn.successors edges u)) := by
  have hu : u ∉ order := fun hmem =>
    (List.nodup_append.mp hinv.nodup).2.2 u hmem u List.mem_cons_self rfl
  -- nothing behind the vertex, nor itself, comes after it
  have hderriere : ∀ w ∈ order ++ [u], w ∉ Kahn.successors edges u := by
    intro w hw hsucc
    have hneed : Kahn.need edges order w = 0 := by
      refine hinv.ready w ?_
      simp only [List.mem_append, List.mem_cons] at hw ⊢
      tauto
    exact hu (Kahn.need_eq_zero.mp hneed u (Kahn.mem_successors.mp hsucc))
  have hniveau := getD_descendre (levelOf.getD u 0) levelOf (Kahn.successors edges u)
  have hfige : ∀ w ∈ order ++ [u],
      (descendre (levelOf.getD u 0) levelOf (Kahn.successors edges u)).getD w 0 =
        levelOf.getD w 0 := fun w hw => (hniveau w).trans (if_neg (hderriere w hw))
  have hmonte : ∀ v, levelOf.getD v 0 ≤
      (descendre (levelOf.getD u 0) levelOf (Kahn.successors edges u)).getD v 0 := by
    intro v
    rw [hniveau]
    split
    · exact le_max_left _ _
    · exact le_rfl
  obtain ⟨hnodup, hkeys⟩ :=
    keys_descendre (levelOf.getD u 0) levelOf (Kahn.successors edges u)
  refine ⟨fun v => ?_, fun w hw v hv => ?_, hnodup h.cles, fun v hv => ?_, fun v hv => ?_⟩
  · rw [hniveau]
    split
    · next hsucc =>
        rcases max_choice (levelOf.getD v 0) (levelOf.getD u 0 + 1) with heq | heq
        · rw [heq]
          exact h.chemin v
        · rw [heq]
          exact .suite (Kahn.mem_successors.mp hsucc) (h.chemin u)
    · exact h.chemin v
  · rw [hfige w hw]
    rcases List.mem_append.mp hw with hw | hw
    · exact (h.borne w hw v hv).trans (hmonte v)
    · rw [List.mem_singleton.mp hw] at hv ⊢
      rw [hniveau, if_pos (Kahn.mem_successors.mpr hv)]
      exact le_max_right _ _
  · rcases (hkeys v).mp hv with hv | hv
    · exact h.dedans v hv
    · exact (hends _ (Kahn.mem_successors.mp hv)).2
  · rw [hkeys]
    have hsuite := (Kahn.Inv.step hinv).2 v
    rcases List.mem_append.mp hv with hv | hv
    · refine .inl (h.connus v ?_)
      simp only [List.mem_append, List.mem_cons] at hv ⊢
      tauto
    · rcases hsuite hv with hv | hv
      · exact .inl (h.connus v (List.mem_append_right _ (List.mem_cons_of_mem _ hv)))
      · exact .inr (Kahn.mem_successors.mpr hv)

theorem profond_niveaux {adjacent : String → List String}
    (hadj : ∀ u, adjacent u = Kahn.successors edges u)
    (hends : ∀ e ∈ edges, e.1 ∈ vertices ∧ e.2 ∈ vertices) (fuel : Nat)
    (hinv : Kahn.Inv edges degrees queue order)
    (h : Profond vertices edges order queue levelOf) :
    ∃ reste, Profond vertices edges (Kahn.kahn adjacent fuel degrees queue order) reste
      (niveaux adjacent fuel degrees queue levelOf) := by
  induction fuel generalizing degrees queue order levelOf with
  | zero => exact ⟨queue, h⟩
  | succ fuel ih =>
      cases queue with
      | nil => exact ⟨[], h⟩
      | cons u queue =>
          rw [Kahn.kahn, niveaux, hadj]
          exact ih (Kahn.Inv.step hinv).1 (h.step hends hinv)

theorem Profond.isGreatest (h : Profond vertices edges order queue levelOf)
    (hends : ∀ e ∈ edges, e.1 ∈ vertices ∧ e.2 ∈ vertices) (hordre : order.Perm vertices)
    (v : String) : IsGreatest {n | Chemin edges n v} (levelOf.getD v 0) := by
  refine ⟨h.chemin v, fun n hn => ?_⟩
  induction hn with
  | depart v => exact Nat.zero_le _
  | @suite n u v arc _ ih =>
      have hle := h.borne u (hordre.mem_iff.mpr (hends _ arc).1) v arc
      exact (Nat.succ_le_succ ih).trans hle

def etage (levelOf : Dict String Nat) (level : Nat) : List String :=
  (levelOf.filter fun item => item.2 = level).map Prod.fst

theorem mem_etage (hcles : levelOf.keys.Nodup) {level : Nat} :
    v ∈ etage levelOf level ↔ v ∈ levelOf.keys ∧ levelOf.getD v 0 = level := by
  simp only [etage, List.mem_map, List.mem_filter, decide_eq_true_eq]
  constructor
  · rintro ⟨item, ⟨hitem, hlevel⟩, rfl⟩
    refine ⟨List.mem_map_of_mem hitem, ?_⟩
    rw [Dict.getD, Dict.get?_of_mem hcles hitem, Option.getD_some, hlevel]
  · rintro ⟨hv, hlevel⟩
    obtain ⟨item, hitem, rfl⟩ := List.mem_map.mp hv
    rw [Dict.getD, Dict.get?_of_mem hcles hitem, Option.getD_some] at hlevel
    exact ⟨item, ⟨hitem, hlevel⟩, rfl⟩

theorem flatten_etages (hcles : levelOf.keys.Nodup) {haut : Nat}
    (hhaut : ∀ v ∈ levelOf.keys, levelOf.getD v 0 ≤ haut) :
    ((List.range (haut + 1)).map (etage levelOf)).flatten.Perm levelOf.keys := by
  have hnodup : ((List.range (haut + 1)).map (etage levelOf)).flatten.Nodup := by
    rw [List.nodup_flatten]
    refine ⟨fun level hlevel => ?_, ?_⟩
    · obtain ⟨l, -, rfl⟩ := List.mem_map.mp hlevel
      exact (List.filter_sublist.map Prod.fst).nodup hcles
    · rw [List.pairwise_map]
      refine (List.nodup_range (n := haut + 1)).imp fun {l l'} hne => ?_
      intro v hv hv'
      exact hne (((mem_etage hcles).mp hv).2.symm.trans ((mem_etage hcles).mp hv').2)
  refine (List.perm_ext_iff_of_nodup hnodup hcles).mpr fun v => ?_
  rw [List.mem_flatten]
  constructor
  · rintro ⟨level, hlevel, hv⟩
    obtain ⟨l, -, rfl⟩ := List.mem_map.mp hlevel
    exact ((mem_etage hcles).mp hv).1
  · intro hv
    refine ⟨etage levelOf (levelOf.getD v 0), List.mem_map_of_mem ?_,
      (mem_etage hcles).mpr ⟨hv, rfl⟩⟩
    exact List.mem_range.mpr (Nat.lt_succ_of_le (hhaut v hv))

theorem exists_niveau (h : Profond vertices edges order queue levelOf)
    (hends : ∀ e ∈ edges, e.1 ∈ vertices ∧ e.2 ∈ vertices) (hordre : order.Perm vertices)
    {level : Nat} (hv : v ∈ vertices) (hlevel : level ≤ levelOf.getD v 0) :
    ∃ w ∈ vertices, levelOf.getD w 0 = level := by
  obtain ⟨k, hk⟩ := Nat.le.dest hlevel
  induction k generalizing v with
  | zero => exact ⟨v, hv, by omega⟩
  | succ k ih =>
      have hchemin := h.chemin v
      rw [← hk, ← Nat.add_assoc] at hchemin
      obtain ⟨u, arc, hu⟩ := Kahn.chemin_succ.mp hchemin
      have hbas : level + k ≤ levelOf.getD u 0 := (h.isGreatest hends hordre u).2 hu
      have hmem : u ∈ vertices := (hends _ arc).1
      have hhaut := h.borne u (hordre.mem_iff.mpr hmem) v arc
      exact ih hmem (by omega) (by omega)

theorem foldl_max_spec (l : List Nat) (a : Nat) :
    a ≤ l.foldl max a ∧ (∀ x ∈ l, x ≤ l.foldl max a) ∧ (l.foldl max a = a ∨ l.foldl max a ∈ l) := by
  induction l generalizing a with
  | nil => simp
  | cons x l ih =>
      obtain ⟨hbas, htous, hatteint⟩ := ih (max a x)
      rw [List.foldl_cons]
      refine ⟨(le_max_left a x).trans hbas, fun y hy => ?_, ?_⟩
      · rcases List.mem_cons.mp hy with rfl | hy
        · exact (le_max_right a y).trans hbas
        · exact htous y hy
      · rcases hatteint with heq | hmem
        · rcases max_choice a x with hmax | hmax
          · exact .inl (heq.trans hmax)
          · exact .inr (by rw [heq, hmax]; exact List.mem_cons_self)
        · exact .inr (List.mem_cons_of_mem _ hmem)

theorem etages_spec (h : Profond vertices edges order queue levelOf)
    (hends : ∀ e ∈ edges, e.1 ∈ vertices ∧ e.2 ∈ vertices) (hordre : order.Perm vertices)
    {levels : List (List String)}
    (hlevels : levels = ((List.range ((levelOf.map Prod.snd).foldl max 0 + 1)).map
      (etage levelOf)).filter (· ≠ [])) :
    levels.flatten.Perm levelOf.keys ∧ ∀ i level, levels[i]? = some level →
      level ≠ [] ∧ ∀ v ∈ level, levelOf.getD v 0 = i := by
  obtain ⟨-, htous, hatteint⟩ := foldl_max_spec (levelOf.map Prod.snd) 0
  have hvaleur : ∀ v ∈ levelOf.keys, levelOf.getD v 0 ∈ levelOf.map Prod.snd := by
    intro v hv
    obtain ⟨item, hitem, rfl⟩ := List.mem_map.mp hv
    rw [Dict.getD, Dict.get?_of_mem h.cles hitem, Option.getD_some]
    exact List.mem_map_of_mem hitem
  have hflatten := flatten_etages h.cles fun v hv => htous _ (hvaleur v hv)
  constructor
  · rw [hlevels, List.flatten_filter_ne_nil]
    exact hflatten
  · cases hvide : levelOf with
    | nil =>
        intro i level hi
        rw [hlevels, hvide] at hi
        simp [etage] at hi
    | cons item reste =>
        -- the highest level has a vertex, hence so has every level below it
        obtain ⟨haut, hmem, hmax⟩ : ∃ v ∈ levelOf.keys,
            (levelOf.map Prod.snd).foldl max 0 ≤ levelOf.getD v 0 := by
          rcases hatteint with heq | hmem
          · refine ⟨item.1, ?_, (le_of_eq heq).trans (Nat.zero_le _)⟩
            rw [hvide]
            exact List.mem_cons_self
          · obtain ⟨item, hitem, hvaleur⟩ := List.mem_map.mp hmem
            refine ⟨item.1, List.mem_map_of_mem hitem, ?_⟩
            rw [Dict.getD, Dict.get?_of_mem h.cles hitem, Option.getD_some, hvaleur]
        have hpleins : ∀ level ∈ (List.range ((levelOf.map Prod.snd).foldl max 0 + 1)).map
            (etage levelOf), level ≠ [] := by
          intro level hlevel
          obtain ⟨l, hl, rfl⟩ := List.mem_map.mp hlevel
          have hbas : l ≤ levelOf.getD haut 0 :=
            (Nat.le_of_lt_succ (List.mem_range.mp hl)).trans hmax
          obtain ⟨w, hw, hniveau⟩ := exists_niveau h hends hordre (h.dedans haut hmem) hbas
          have hcle : w ∈ levelOf.keys :=
            h.connus w (List.mem_append_left _ (hordre.mem_iff.mpr hw))
          exact List.ne_nil_of_mem ((mem_etage h.cles).mpr ⟨hcle, hniveau⟩)
        intro i level hi
        rw [hlevels, List.filter_eq_self.mpr (by simpa using hpleins)] at hi
        refine ⟨hpleins level (List.mem_of_getElem? hi), fun v hv => ?_⟩
        rw [List.getElem?_map] at hi
        obtain ⟨l, hl, rfl⟩ := Option.map_eq_some_iff.mp hi
        obtain ⟨hlt, rfl⟩ := List.getElem?_eq_some_iff.mp hl
        rw [List.getElem_range] at hv
        exact hvide ▸ ((mem_etage h.cles).mp hv).2

end Niveaux

structure PlanFidele (plan : GraphExecutionPlan) : Prop where
  ordre : plan.executionOrder.Perm g.nodes.keys
  avant : ∀ e ∈ arcs g.edges, plan.executionOrder.idxOf e.1 < plan.executionOrder.idxOf e.2
  partage : plan.levels.flatten.Perm g.nodes.keys
  profondeur : ∀ i level, plan.levels[i]? = some level → level ≠ [] ∧
    ∀ v ∈ level, IsGreatest {n | Chemin (arcs g.edges) n v} i

structure GrapheFidele : Prop where
  bien : g.Bien
  rejet : ∀ op e, (g.executer op).1 = .error e → (g.executer op).2 = g
  cycle : ∀ edge : AgentEdge,
    (∃ erreurs, (g.executer (.addEdge edge)).1 = .error (.cycle erreurs)) ↔
      g.Mene edge.target edge.source
  plan : ∀ plan, g.generatePlan = .ok plan → g.PlanFidele plan

section Fidele

variable {g}

theorem executer_rejet {op : Operation} {e : GraphException} (h : (g.executer op).1 = .error e) :
    (g.executer op).2 = g := by
  rw [executer_eq] at h ⊢
  cases hop : g.appliquer op with
  | error e => rfl
  | ok g' =>
      rw [hop] at h
      cases h

theorem Bien.executer_addEdge_cycle_iff (h : g.Bien) (edge : AgentEdge) :
    (∃ erreurs, (g.executer (.addEdge edge)).1 = .error (.cycle erreurs)) ↔
      g.Mene edge.target edge.source := by
  rw [← h.addEdge_cycle_iff, executer_eq, appliquer]
  cases hop : g.addEdge edge with
  | error e => simp
  | ok g' => simp

theorem Bien.profond (h : g.Bien) :
    (visiter g.nodes.keys (arcs g.edges)).Perm g.nodes.keys ∧
      (∀ e ∈ arcs g.edges, (visiter g.nodes.keys (arcs g.edges)).idxOf e.1 <
        (visiter g.nodes.keys (arcs g.edges)).idxOf e.2) ∧
      ∃ reste, Profond g.nodes.keys (arcs g.edges) (visiter g.nodes.keys (arcs g.edges)) reste
        g.levelOf := by
  have hinternes := Kahn.internes_eq_self h.extremites
  have hadj := Kahn.adjacency_getD g.nodes.keys (arcs g.edges)
  obtain ⟨hnodup, hmem⟩ := Kahn.inDegree_keys g.cles fun e he => (h.extremites e he).2
  have hdegrees := Kahn.inDegree_getD g.nodes.keys (arcs g.edges)
  have hinv := Kahn.Inv.depart hnodup hdegrees
  have hlength : g.nodes.keys.length = g.nodes.length := by simp [Dict.keys]
  have hfuel : g.nodes.keys.length ≤ g.nodes.keys.length := le_rfl
  obtain ⟨hperm, havant⟩ :=
    Kahn.kahn_ordre hadj g.cles h.extremites h.acyclique hnodup hmem hdegrees hfuel
  have hdepart : Profond g.nodes.keys (arcs g.edges) []
      (Kahn.sources (Kahn.inDegree g.nodes.keys (arcs g.edges)))
      ((Kahn.sources (Kahn.inDegree g.nodes.keys (arcs g.edges))).map fun id => (id, 0)) := by
    refine ⟨fun v => ?_, fun u hu => absurd hu List.not_mem_nil, ?_, fun v hv => ?_, fun v hv => ?_⟩
    · rw [Kahn.getD_map]
      exact .depart v
    · rw [Kahn.keys_map]
      exact hinv.nodup
    · rw [Kahn.keys_map] at hv
      exact (hmem v).mp ((Kahn.mem_sources hnodup).mp hv).1
    · rw [Kahn.keys_map]
      exact hv
  have hfin := profond_niveaux hadj h.extremites g.nodes.keys.length hinv hdepart
  unfold visiter levelOf
  dsimp only
  rw [hinternes, ← hlength]
  exact ⟨hperm, havant, hfin⟩

theorem Bien.planFidele (h : g.Bien) {plan : GraphExecutionPlan}
    (hplan : g.generatePlan = .ok plan) : g.PlanFidele plan := by
  obtain ⟨hperm, havant, reste, hprofond⟩ := h.profond
  have hcles : g.levelOf.keys.Perm g.nodes.keys := by
    refine (List.perm_ext_iff_of_nodup hprofond.cles g.cles).mpr fun v =>
      ⟨hprofond.dedans v, fun hv => ?_⟩
    exact hprofond.connus v (List.mem_append_left _ (hperm.mem_iff.mpr hv))
  have hlevels : g.levels = ((List.range ((g.levelOf.map Prod.snd).foldl max 0 + 1)).map
      (etage g.levelOf)).filter (· ≠ []) := rfl
  obtain ⟨hpartage, hindex⟩ := etages_spec hprofond h.extremites hperm hlevels
  have hordre : plan.executionOrder = visiter g.nodes.keys (arcs g.edges) ∧
      plan.levels = g.levels := by
    unfold generatePlan topologicalSort at hplan
    dsimp only at hplan
    split at hplan
    · cases hplan
    · split at hplan
      · cases hplan
      · next hsort =>
          split at hsort
          · cases hsort
          · cases hsort
            cases hplan
            exact ⟨rfl, rfl⟩
  obtain ⟨hordre, hniveaux⟩ := hordre
  rw [← hordre] at hperm havant
  rw [← hniveaux] at hpartage hindex
  refine ⟨hperm, havant, hpartage.trans hcles, fun i level hi => ?_⟩
  obtain ⟨hplein, hniveau⟩ := hindex i level hi
  refine ⟨hplein, fun v hv => ?_⟩
  rw [← hniveau v hv]
  exact hprofond.isGreatest h.extremites (hordre ▸ h.profond.1) v

end Fidele

/-- Whatever the operations, the graph that they leave is faithful. -/
theorem grapheFidele_apres (operations : List Operation) : (apres operations).GrapheFidele where
  bien := bien_apres operations
  rejet := fun _ _ => executer_rejet
  cycle := (bien_apres operations).executer_addEdge_cycle_iff
  plan := fun _ => (bien_apres operations).planFidele

end Hermes.Agent.ExecutionGraph
