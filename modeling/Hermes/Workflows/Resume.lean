import Hermes.Workflows.Engine
import Mathlib.Tactic.FinCases

/-! # What survives the resumes

The nodes done at the start of a call are the ones whose stored result is terminal. A call never
executes them again, and it stores them as they were.
-/

namespace Hermes.Workflows

open Lib

/-- The tool answers what JSON accepts, or raises an `Exception`. -/
def Sortie.Serialisable : Sortie → Prop
  | rendu value => value.relu.isSome
  | leve _ => True
  | echappe _ => False

def Tools.Serialisable (tools : Tools) : Prop :=
  ∀ action tool params, tools action = some tool → (tool params).Serialisable

def Appel.Serialisable (a : Appel) : Prop := ∀ nodeId, (a.tools nodeId).Serialisable

def WorkflowDefinition.Serialisable (w : WorkflowDefinition) : Prop :=
  ∀ node ∈ w.nodes, ∀ item ∈ node.params, item.2.relu.isSome

def ResultatsLisibles (results : Dict String NodeResult) : Prop :=
  ∀ item ∈ results, item.2.result.relu.isSome

theorem except_bind_eq_ok {ε α β : Type} {x : Except ε α} {f : α → Except ε β} {b : β} :
    (x >>= f) = .ok b ↔ ∃ a, x = .ok a ∧ f a = .ok b := by
  cases x <;> simp [bind, Except.bind]

theorem except_map_eq_ok {ε α β : Type} {x : Except ε α} {f : α → β} {b : β} :
    x.map f = .ok b ↔ ∃ a, x = .ok a ∧ f a = b := by
  cases x <;> simp [Except.map]

section Noeud

variable {w : WorkflowDefinition} {t : Textes} {results : Dict String NodeResult}

theorem relu_resolveValue (hlu : ResultatsLisibles results) {value : String} {v : Valeur}
    (h : resolveValue t value results = .ok v) : v.relu.isSome := by
  unfold resolveValue at h
  cases hlire : lirePlaceholder value with
  | aucun =>
      rw [hlire] at h
      cases h
      rfl
  | malforme =>
      rw [hlire] at h
      cases h
  | etape nodeId key =>
      rw [hlire] at h
      dsimp only at h
      split at h
      · cases h
      · next r hr =>
          have hget := (Option.filter_eq_some_iff.mp hr).1
          split at h
          · cases h
          · next x hx =>
              cases h
              exact Valeur.isSome_relu_champ (hlu _ (Dict.mem_of_get? hget)) hx

theorem relu_resolveParams (hlu : ResultatsLisibles results) {params resolved : Params}
    (hparams : ∀ item ∈ params, item.2.relu.isSome)
    (h : resolveParams t params results = .ok resolved) :
    ∀ item ∈ resolved, item.2.relu.isSome := by
  unfold resolveParams at h
  induction params generalizing resolved with
  | nil =>
      cases h
      simp
  | cons item params ih =>
      rw [List.mapM_cons] at h
      obtain ⟨first, hfirst, h⟩ := except_bind_eq_ok.mp h
      obtain ⟨rest, hrest, h⟩ := except_bind_eq_ok.mp h
      cases h
      intro x hx
      rcases List.mem_cons.mp hx with rfl | hx
      · obtain ⟨k, v⟩ := item
        have hv := hparams (k, v) List.mem_cons_self
        cases v with
        | texte value =>
            obtain ⟨v', hv', rfl⟩ := except_map_eq_ok.mp hfirst
            exact relu_resolveValue hlu hv'
        | _ =>
            cases hfirst
            exact hv
      · exact ih (fun item hitem => hparams item (List.mem_cons_of_mem _ hitem)) hrest x hx

theorem refusDuBus_eq_none {valeurs : List Valeur} :
    refusDuBus valeurs = none ↔ ∀ v ∈ valeurs, v.relu.isSome := by
  simp [refusDuBus, List.find?_eq_none, Option.ne_none_iff_isSome]

theorem executeNode_ok {tools : Tools} {node : WorkflowNode} (htools : tools.Serialisable)
    (hparams : ∀ item ∈ node.params, item.2.relu.isSome) (hlu : ResultatsLisibles results) :
    ∃ r, (executeNode t tools node results).2 = .ok r ∧ terminal r.status = true ∧
      r.nodeId = node.id ∧ r.result.relu.isSome := by
  unfold executeNode
  split
  · exact ⟨_, rfl, rfl, rfl, rfl⟩
  · next tool htool =>
      split
      · exact ⟨_, rfl, rfl, rfl, rfl⟩
      · next params hresolved =>
          have hjson := relu_resolveParams hlu hparams hresolved
          have hbus : refusDuBus (params.map Prod.snd) = none := by
            rw [refusDuBus_eq_none]
            intro v hv
            obtain ⟨item, hitem, rfl⟩ := List.mem_map.mp hv
            exact hjson item hitem
          rw [hbus]
          dsimp only
          have hsortie := htools node.action tool params htool
          split
          · exact ⟨_, rfl, rfl, rfl, rfl⟩
          · next message hechappe =>
              rw [hechappe] at hsortie
              exact hsortie.elim
          · next value hrendu =>
              rw [hrendu] at hsortie
              have hvaleur : refusDuBus [value] = none := by
                rw [refusDuBus_eq_none]
                intro v hv
                rw [List.mem_singleton.mp hv]
                exact hsortie
              rw [hvaleur]
              exact ⟨_, rfl, rfl, rfl, hsortie⟩

end Noeud

theorem relireResultats_cons {item : String × NodeResult} {results lus : Dict String NodeResult}
    (h : relireResultats (item :: results) = some lus) :
    ∃ r lus', item.2.relu item.1 = some r ∧ relireResultats results = some lus' ∧
      lus = (item.1, r) :: lus' := by
  unfold relireResultats at h
  rw [List.mapM_cons] at h
  obtain ⟨first, hfirst, h⟩ := Option.bind_eq_some_iff.mp h
  obtain ⟨lus', hlus', h⟩ := Option.bind_eq_some_iff.mp h
  obtain ⟨r, hr, rfl⟩ := Option.map_eq_some_iff.mp hfirst
  cases h
  exact ⟨r, lus', hr, hlus', rfl⟩

theorem isSome_relireResultats {results : Dict String NodeResult}
    (hlu : ResultatsLisibles results) : (relireResultats results).isSome := by
  induction results with
  | nil => rfl
  | cons item results ih =>
      obtain ⟨v, hv⟩ := Option.isSome_iff_exists.mp (hlu item List.mem_cons_self)
      obtain ⟨lus, hlus⟩ := Option.isSome_iff_exists.mp
        (ih fun item hitem => hlu item (List.mem_cons_of_mem _ hitem))
      unfold relireResultats at hlus ⊢
      rw [List.mapM_cons, hlus]
      simp [NodeResult.relu, hv]

theorem keys_relireResultats {results lus : Dict String NodeResult}
    (h : relireResultats results = some lus) : lus.keys = results.keys := by
  induction results generalizing lus with
  | nil =>
      cases h
      rfl
  | cons item results ih =>
      obtain ⟨r, lus', _, hlus', rfl⟩ := relireResultats_cons h
      rw [Dict.keys, List.map_cons, Dict.keys, List.map_cons]
      exact congrArg (item.1 :: ·) (ih hlus')

theorem get?_relireResultats {results lus : Dict String NodeResult}
    (h : relireResultats results = some lus) (id : String) :
    lus.get? id = (results.get? id).bind (NodeResult.relu id) := by
  induction results generalizing lus with
  | nil =>
      cases h
      rfl
  | cons item results ih =>
      obtain ⟨k, r₀⟩ := item
      obtain ⟨r, lus', hr, hlus', rfl⟩ := relireResultats_cons h
      rw [Dict.get?_cons, Dict.get?_cons, ih hlus']
      split
      · next hid =>
          subst hid
          rw [Option.bind_some]
          exact hr.symm
      · rfl

theorem NodeResult.relu_relu {id : String} {r r' : NodeResult} (h : r.relu id = some r') :
    r'.relu id = some r' := by
  obtain ⟨v, hv, rfl⟩ := Option.map_eq_some_iff.mp h
  simp [NodeResult.relu, Valeur.relu_relu _ v hv]

section Tour

variable {w : WorkflowDefinition} {t : Textes} {tools : String → Tools} {approved : List String}
  {ready : List WorkflowNode} {p : Parcours}

def resultat (t : Textes) (tools : String → Tools) (results : Dict String NodeResult)
    (node : WorkflowNode) : NodeResult :=
  recueillir node (executeNode t (tools node.id) node results).2

def appelsDe (t : Textes) (tools : String → Tools) (results : Dict String NodeResult)
    (nodes : List WorkflowNode) : List Invocation :=
  (nodes.filter fun node => (executeNode t (tools node.id) node results).1).map
    fun node => ⟨node, results⟩

theorem executeWave_ok {results : Dict String NodeResult} {nodes : List WorkflowNode}
    (h : ∀ node ∈ nodes, ∃ r, (executeNode t (tools node.id) node results).2 = .ok r) :
    executeWave t tools results nodes =
      (appelsDe t tools results nodes,
        .ok (nodes.map fun node => (node.id, resultat t tools results node))) := by
  match nodes with
  | [] => rfl
  | [node] =>
      obtain ⟨r, hr⟩ := h node List.mem_cons_self
      simp only [executeWave, appelsDe, List.map_cons, List.map_nil, resultat, hr, Except.map,
        recueillir]
  | _ :: _ :: _ => rfl

def marquer (approved : List String) (ready : List WorkflowNode)
    (results : Dict String NodeResult) : Dict String NodeResult :=
  results.update ((ready.filter (retenu approved)).map fun node =>
    (node.id, { nodeId := node.id, status := .awaitingValidation }))

def ouverts (approved : List String) (ready : List WorkflowNode) : List WorkflowNode :=
  ready.filter fun node => !retenu approved node

/-- The loop after a wave no exception goes through. -/
def apresTour (t : Textes) (tools : String → Tools) (approved : List String)
    (ready : List WorkflowNode) (p : Parcours) : Parcours where
  results := (marquer approved ready p.results).update ((ouverts approved ready).map fun node =>
    (node.id, resultat t tools (marquer approved ready p.results) node))
  done := p.done ++ (ouverts approved ready).map WorkflowNode.id
  pendingNodes := p.pendingNodes ++ (ready.filter (retenu approved)).map WorkflowNode.id
  remaining := p.remaining.filter fun node => node.id ∉ ready.map WorkflowNode.id
  invocations := p.invocations ++
    appelsDe t tools (marquer approved ready p.results) (ouverts approved ready)

theorem tour_ok
    (h : ∀ node ∈ ready, ∃ r, (executeNode t (tools node.id) node
      (marquer approved ready p.results)).2 = .ok r) :
    tour t tools approved ready p = (apresTour t tools approved ready p, none) := by
  have hwave : executeWave t tools (marquer approved ready p.results) (ouverts approved ready) =
      (appelsDe t tools (marquer approved ready p.results) (ouverts approved ready),
        .ok ((ouverts approved ready).map fun node =>
          (node.id, resultat t tools (marquer approved ready p.results) node))) :=
    executeWave_ok fun node hnode => h node (List.mem_of_mem_filter hnode)
  simp only [marquer, ouverts] at hwave
  unfold tour
  dsimp only
  rw [hwave]
  rfl

theorem lisibles_marquer (h : ResultatsLisibles p.results) :
    ResultatsLisibles (marquer approved ready p.results) := by
  intro item hitem
  rcases Dict.mem_of_mem_update hitem with hitem | hitem
  · exact h item hitem
  · obtain ⟨node, _, rfl⟩ := List.mem_map.mp hitem
    rfl

theorem terminal_executeNode {results : Dict String NodeResult} {tools : Tools}
    {node : WorkflowNode} {r : NodeResult}
    (h : (executeNode t tools node results).2 = .ok r) : terminal r.status = true := by
  unfold executeNode at h
  split at h
  · cases h
    rfl
  · split at h
    · cases h
      rfl
    · split at h
      · cases h
      · split at h
        · cases h
          rfl
        · cases h
        · split at h
          · cases h
          · cases h
            rfl

theorem terminal_resultat (results : Dict String NodeResult) (node : WorkflowNode) :
    terminal (resultat t tools results node).status = true := by
  unfold resultat
  cases h : (executeNode t (tools node.id) node results).2 with
  | ok r => exact terminal_executeNode h
  | error message => rfl

theorem get?_marquer {id : String} (h : id ∉ ready.map WorkflowNode.id) :
    (marquer approved ready p.results).get? id = p.results.get? id := by
  apply Dict.get?_update_of_notMem
  intro hmem
  simp only [Dict.keys, List.map_map, List.mem_map, List.mem_filter, Function.comp_def] at hmem
  obtain ⟨node, ⟨hnode, _⟩, rfl⟩ := hmem
  exact h (List.mem_map_of_mem hnode)

theorem get?_apresTour {id : String} (h : id ∉ ready.map WorkflowNode.id) :
    (apresTour t tools approved ready p).results.get? id = p.results.get? id := by
  have hlast : id ∉ Dict.keys ((ouverts approved ready).map fun node =>
      (node.id, resultat t tools (marquer approved ready p.results) node)) := by
    intro hmem
    simp only [Dict.keys, List.map_map, List.mem_map, Function.comp_def] at hmem
    obtain ⟨node, hnode, rfl⟩ := hmem
    exact h (List.mem_map_of_mem (List.mem_of_mem_filter hnode))
  rw [apresTour, Dict.get?_update_of_notMem hlast, get?_marquer h]

variable (hnodup : (ready.map WorkflowNode.id).Nodup)

include hnodup

theorem get?_apresTour_of_ouvert {node : WorkflowNode} (hnode : node ∈ ready)
    (houvert : retenu approved node = false) :
    (apresTour t tools approved ready p).results.get? node.id =
      some (resultat t tools (marquer approved ready p.results) node) := by
  apply Dict.get?_update_of_mem
  · simp only [Dict.keys, List.map_map, Function.comp_def]
    exact hnodup.sublist (List.filter_sublist.map _)
  · apply List.mem_map.mpr
    exact ⟨node, by simp [ouverts, hnode, houvert], rfl⟩

theorem get?_apresTour_of_retenu {node : WorkflowNode} (hnode : node ∈ ready)
    (hretenu : retenu approved node = true) :
    (apresTour t tools approved ready p).results.get? node.id =
      some { nodeId := node.id, status := .awaitingValidation } := by
  have hlast : node.id ∉ Dict.keys ((ouverts approved ready).map fun node =>
      (node.id, resultat t tools (marquer approved ready p.results) node)) := by
    intro hmem
    simp only [Dict.keys, List.map_map, List.mem_map, Function.comp_def, ouverts,
      List.mem_filter] at hmem
    obtain ⟨other, ⟨hother, houvert⟩, hid⟩ := hmem
    rw [List.inj_on_of_nodup_map hnodup hother hnode hid, hretenu] at houvert
    cases houvert
  rw [apresTour, Dict.get?_update_of_notMem hlast]
  apply Dict.get?_update_of_mem
  · simp only [Dict.keys, List.map_map, Function.comp_def]
    exact hnodup.sublist (List.filter_sublist.map _)
  · apply List.mem_map.mpr
    exact ⟨node, by simp [hnode, hretenu], rfl⟩

end Tour

/-- What a tool was called on: a known node, approved when it is gated, whose predecessors are
done and one of whose edges is satisfied. -/
structure Invocation.Permise (w : WorkflowDefinition) (approved : List String) (i : Invocation) :
    Prop where
  connu : i.node ∈ w.nodes
  approuve : i.node.humanValidation = true → i.node.id ∈ approved
  predecesseurs : ∀ e ∈ w.incomingEdges i.node.id,
    ∃ r, i.vus.get? e.fromNode = some r ∧ terminal r.status = true
  entree : w.incomingEdges i.node.id = [] ∨
    ∃ e ∈ w.incomingEdges i.node.id, edgeSatisfied e i.vus = true

def Fini (results : Dict String NodeResult) (id : String) : Prop :=
  ∃ r, results.get? id = some r ∧ terminal r.status = true

/-- The loop that started from `debut`: nothing done then has changed or is called again. -/
structure Etape (w : WorkflowDefinition) (approved : List String)
    (debut : Dict String NodeResult) (p : Parcours) : Prop where
  restants : p.remaining.Sublist w.nodes
  libres : ∀ node ∈ p.remaining, node.id ∉ p.done
  cles : p.results.keys.Nodup
  finis : ∀ id, id ∈ p.done ↔ Fini p.results id
  lisibles : ResultatsLisibles p.results
  garde : ∀ id, Fini debut id → p.results.get? id = debut.get? id
  appels : ∀ i ∈ p.invocations, Fini p.results i.node.id ∧ ¬ Fini debut i.node.id ∧
    i.Permise w approved
  uniques : (p.invocations.map fun i => i.node.id).Nodup

section Boucle

variable {w : WorkflowDefinition} {t : Textes} {tools : String → Tools} {approved : List String}
  {debut : Dict String NodeResult} {p : Parcours} {ready : List WorkflowNode}

theorem mem_faits {results : Dict String NodeResult} (h : results.keys.Nodup) {id : String} :
    id ∈ faits results ↔ Fini results id := by
  simp only [faits, List.mem_map, List.mem_filter]
  constructor
  · rintro ⟨⟨k, r⟩, ⟨hmem, hfini⟩, rfl⟩
    exact ⟨r, Dict.get?_of_mem h hmem, hfini⟩
  · rintro ⟨r, hr, hfini⟩
    exact ⟨(id, r), ⟨Dict.mem_of_get? hr, hfini⟩, rfl⟩

theorem mem_readyNodes {node : WorkflowNode} :
    node ∈ readyNodes w p.done p.results p.remaining ↔
      node ∈ p.remaining ∧ estPret w p.done p.results node = true := by
  simp [readyNodes, List.mem_insertionSort]

theorem nodup_readyNodes (h : p.remaining.Sublist w.nodes) :
    ((readyNodes w p.done p.results p.remaining).map WorkflowNode.id).Nodup := by
  have hsorted : ((p.remaining.insertionSort fun a b => a.id ≤ b.id).map WorkflowNode.id).Nodup :=
    ((List.perm_insertionSort _ _).map _).nodup_iff.mpr (w.nodup_ids.sublist (h.map _))
  exact hsorted.sublist (List.filter_sublist.map _)

theorem tour_remaining (t : Textes) (tools : String → Tools) (approved : List String)
    (ready : List WorkflowNode) (p : Parcours) :
    (tour t tools approved ready p).1.remaining =
      p.remaining.filter fun node => node.id ∉ ready.map WorkflowNode.id := by
  unfold Workflows.tour
  dsimp only
  split <;> rfl

theorem boucle_fuel_irrelevant (n more : Nat) (h : p.remaining.length ≤ n) :
    boucle w t tools approved (n + more) p = boucle w t tools approved n p := by
  induction n generalizing p with
  | zero =>
      have hvide : p.remaining = [] := List.length_eq_zero_iff.mp (Nat.le_zero.mp h)
      have hready : readyNodes w p.done p.results p.remaining = [] := by
        simp [hvide, readyNodes]
      rw [Nat.zero_add, Workflows.boucle]
      cases more with
      | zero => rfl
      | succ more => rw [Workflows.boucle, hready]
  | succ n ih =>
      rw [Nat.succ_add, Workflows.boucle, Workflows.boucle]
      split
      · rfl
      · next node ready hready =>
          have hmem : node ∈ p.remaining :=
            (mem_readyNodes.mp (hready ▸ List.mem_cons_self)).1
          have hreste : (tour t tools approved (node :: ready) p).1.remaining.length <
              p.remaining.length := by
            rw [tour_remaining]
            exact List.length_filter_lt_length_iff_exists.mpr ⟨node, hmem, by simp⟩
          split
          · rfl
          · next p' htour =>
              rw [htour] at hreste
              dsimp only at hreste
              exact ih (by omega)

theorem Etape.initiale (approved : List String) (hcles : debut.keys.Nodup)
    (hlu : ResultatsLisibles debut) :
    Etape w approved debut
      { results := debut
        done := faits debut
        pendingNodes := []
        remaining := w.nodes.filter fun node => node.id ∉ faits debut
        invocations := [] } where
  restants := List.filter_sublist
  libres node hnode := by simpa using (List.mem_filter.mp hnode).2
  cles := hcles
  finis _ := mem_faits hcles
  lisibles := hlu
  garde _ _ := rfl
  appels _ h := nomatch h
  uniques := List.nodup_nil

theorem Etape.executeNode_ok (h : Etape w approved debut p) (hw : w.Serialisable)
    (htools : ∀ id, (tools id).Serialisable) (ready : List WorkflowNode) {node : WorkflowNode}
    (hnode : node ∈ w.nodes) :
    ∃ r, (executeNode t (tools node.id) node (marquer approved ready p.results)).2 = .ok r ∧
      terminal r.status = true ∧ r.nodeId = node.id ∧ r.result.relu.isSome :=
  Workflows.executeNode_ok (htools node.id) (hw node hnode) (lisibles_marquer h.lisibles)

theorem Etape.resultat_ok (h : Etape w approved debut p) (hw : w.Serialisable)
    (htools : ∀ id, (tools id).Serialisable) (ready : List WorkflowNode) {node : WorkflowNode}
    (hnode : node ∈ w.nodes) :
    terminal (resultat t tools (marquer approved ready p.results) node).status = true ∧
      (resultat t tools (marquer approved ready p.results) node).result.relu.isSome := by
  obtain ⟨r, hr, hfini, _, hlu⟩ := h.executeNode_ok (t := t) hw htools ready hnode
  unfold resultat
  rw [hr]
  exact ⟨hfini, hlu⟩

/-- Nodes of the wave are not done yet. -/
structure Vague (w : WorkflowDefinition) (p : Parcours) (ready : List WorkflowNode) : Prop where
  prets : ∀ node ∈ ready, node ∈ p.remaining ∧ estPret w p.done p.results node = true
  uniques : (ready.map WorkflowNode.id).Nodup

theorem Vague.readyNodes (h : p.remaining.Sublist w.nodes) :
    Vague w p (readyNodes w p.done p.results p.remaining) :=
  ⟨fun _ hnode => mem_readyNodes.mp hnode, nodup_readyNodes h⟩

theorem Etape.libre (h : Etape w approved debut p) (hv : Vague w p ready) {id : String}
    (hid : id ∈ p.done) : id ∉ ready.map WorkflowNode.id := by
  intro hmem
  obtain ⟨node, hnode, rfl⟩ := List.mem_map.mp hmem
  exact h.libres node (hv.prets node hnode).1 hid

theorem Etape.connu (h : Etape w approved debut p) (hv : Vague w p ready) {node : WorkflowNode}
    (hnode : node ∈ ready) : node ∈ w.nodes :=
  h.restants.subset (hv.prets node hnode).1

theorem mem_ouverts {node : WorkflowNode} :
    node ∈ ouverts approved ready ↔ node ∈ ready ∧ retenu approved node = false := by
  simp [ouverts]

theorem fini_apresTour (hlibres : ∀ node ∈ ready, ¬ Fini p.results node.id)
    (huniques : (ready.map WorkflowNode.id).Nodup) (id : String) :
    Fini (apresTour t tools approved ready p).results id ↔
      Fini p.results id ∨ id ∈ (ouverts approved ready).map WorkflowNode.id := by
  by_cases hid : id ∈ ready.map WorkflowNode.id
  · obtain ⟨node, hnode, rfl⟩ := List.mem_map.mp hid
    cases hretenu : retenu approved node with
    | true =>
        have hnot : node.id ∉ (ouverts approved ready).map WorkflowNode.id := by
          intro hmem
          obtain ⟨other, hother, hsame⟩ := List.mem_map.mp hmem
          obtain ⟨hother, houvert⟩ := mem_ouverts.mp hother
          rw [List.inj_on_of_nodup_map huniques hother hnode hsame, hretenu] at houvert
          cases houvert
        have hget : (apresTour t tools approved ready p).results.get? node.id =
            some { nodeId := node.id, status := .awaitingValidation } :=
          get?_apresTour_of_retenu huniques hnode hretenu
        simp only [Fini, hget, Option.some.injEq, exists_eq_left', terminal, Bool.false_eq_true,
          false_iff, not_or]
        exact ⟨hlibres node hnode, hnot⟩
    | false =>
        have hget : (apresTour t tools approved ready p).results.get? node.id =
            some (resultat t tools (marquer approved ready p.results) node) :=
          get?_apresTour_of_ouvert huniques hnode hretenu
        have hin : node.id ∈ (ouverts approved ready).map WorkflowNode.id :=
          List.mem_map_of_mem (mem_ouverts.mpr ⟨hnode, hretenu⟩)
        exact iff_of_true ⟨_, hget, terminal_resultat _ node⟩ (.inr hin)
  · have hnot : id ∉ (ouverts approved ready).map WorkflowNode.id := by
      intro hmem
      obtain ⟨node, hnode, rfl⟩ := List.mem_map.mp hmem
      exact hid (List.mem_map_of_mem (mem_ouverts.mp hnode).1)
    simp only [Fini, get?_apresTour hid, hnot, or_false]

theorem Etape.fini_apresTour (h : Etape w approved debut p) (hv : Vague w p ready) (id : String) :
    Fini (apresTour t tools approved ready p).results id ↔
      Fini p.results id ∨ id ∈ (ouverts approved ready).map WorkflowNode.id := by
  apply Workflows.fini_apresTour _ hv.uniques
  intro node hnode hfini
  exact h.libres node (hv.prets node hnode).1 ((h.finis _).mpr hfini)

theorem Etape.permise (h : Etape w approved debut p) (hv : Vague w p ready) {node : WorkflowNode}
    (hnode : node ∈ ouverts approved ready) :
    Invocation.Permise w approved ⟨node, marquer approved ready p.results⟩ := by
  obtain ⟨hready, houvert⟩ := mem_ouverts.mp hnode
  have hpret := (hv.prets node hready).2
  have hvu : ∀ id ∈ p.done,
      (marquer approved ready p.results).get? id = p.results.get? id := fun id hid =>
    get?_marquer (h.libre hv hid)
  unfold estPret at hpret
  rw [Bool.or_eq_true, Bool.and_eq_true, List.isEmpty_iff, List.all_eq_true,
    List.any_eq_true] at hpret
  refine ⟨h.connu hv hready, fun hgate => ?_, fun e he => ?_, ?_⟩
  · have hnode : node.humanValidation = true := hgate
    simpa [retenu, hnode] using houvert
  · rcases hpret with hnone | ⟨hall, _⟩
    · rw [hnone] at he
      cases he
    · have hdone : e.fromNode ∈ p.done := by simpa using hall e he
      obtain ⟨r, hr, hfini⟩ := (h.finis _).mp hdone
      exact ⟨r, (hvu _ hdone).trans hr, hfini⟩
  · rcases hpret with hnone | ⟨hall, e, he, hsat⟩
    · exact .inl hnone
    · have hdone : e.fromNode ∈ p.done := by simpa using hall e he
      refine .inr ⟨e, he, ?_⟩
      unfold edgeSatisfied at hsat ⊢
      rwa [hvu _ hdone]

theorem Etape.tour (h : Etape w approved debut p) (hw : w.Serialisable)
    (htools : ∀ id, (tools id).Serialisable) (hv : Vague w p ready) :
    Etape w approved debut (apresTour t tools approved ready p) := by
  have hfini := @Etape.fini_apresTour w t tools approved debut p ready h hv
  have hgarde : ∀ id, Fini debut id → id ∈ p.done := by
    intro id hid
    apply (h.finis id).mpr
    obtain ⟨r, hr, hterm⟩ := hid
    exact ⟨r, (h.garde id ⟨r, hr, hterm⟩).trans hr, hterm⟩
  refine ⟨?_, ?_, ?_, ?_, ?_, ?_, ?_, ?_⟩
  · exact List.filter_sublist.trans h.restants
  · intro node hnode hdone
    obtain ⟨hrest, hnot⟩ := List.mem_filter.mp hnode
    rcases List.mem_append.mp hdone with hdone | hdone
    · exact h.libres node hrest hdone
    · obtain ⟨other, hother, hid⟩ := List.mem_map.mp hdone
      rw [← hid] at hnot
      simp [List.mem_map_of_mem (mem_ouverts.mp hother).1] at hnot
  · exact Dict.nodup_keys_update (Dict.nodup_keys_update h.cles _) _
  · intro id
    rw [hfini id, ← h.finis id]
    exact List.mem_append
  · intro item hitem
    rcases Dict.mem_of_mem_update hitem with hitem | hitem
    · exact lisibles_marquer h.lisibles item hitem
    · obtain ⟨node, hnode, rfl⟩ := List.mem_map.mp hitem
      exact (h.resultat_ok hw htools ready (h.connu hv (mem_ouverts.mp hnode).1)).2
  · intro id hid
    rw [get?_apresTour (h.libre hv (hgarde id hid))]
    exact h.garde id hid
  · intro i hi
    rcases List.mem_append.mp hi with hi | hi
    · obtain ⟨hold, hnew, hpermise⟩ := h.appels i hi
      exact ⟨(hfini _).mpr (.inl hold), hnew, hpermise⟩
    · obtain ⟨node, hnode, rfl⟩ := List.mem_map.mp hi
      have houvert := List.mem_of_mem_filter hnode
      refine ⟨(hfini _).mpr (.inr (List.mem_map_of_mem houvert)), fun hid => ?_,
        h.permise hv houvert⟩
      exact h.libres node (hv.prets node (mem_ouverts.mp houvert).1).1 (hgarde _ hid)
  · have hnew : ((appelsDe t tools (marquer approved ready p.results)
        (ouverts approved ready)).map fun i => i.node.id).Sublist (ready.map WorkflowNode.id) := by
      simp only [appelsDe, List.map_map, Function.comp_def]
      exact (List.filter_sublist.trans List.filter_sublist).map _
    show ((p.invocations ++ _).map fun i => i.node.id).Nodup
    rw [List.map_append]
    refine List.nodup_append.mpr ⟨h.uniques, hv.uniques.sublist hnew, ?_⟩
    intro a ha b hb hab
    obtain ⟨i, hi, rfl⟩ := List.mem_map.mp ha
    apply h.libre hv ((h.finis _).mpr (h.appels i hi).1)
    rw [hab]
    exact hnew.subset hb

theorem Etape.boucle (hw : w.Serialisable) (htools : ∀ id, (tools id).Serialisable) (n : Nat)
    (h : Etape w approved debut p) :
    (boucle w t tools approved n p).2 = none ∧
      Etape w approved debut (boucle w t tools approved n p).1 := by
  induction n generalizing p with
  | zero => exact ⟨rfl, h⟩
  | succ n ih =>
      unfold Workflows.boucle
      split
      · exact ⟨rfl, h⟩
      · next node ready hready =>
          have hv : Vague w p (node :: ready) := hready ▸ Vague.readyNodes h.restants
          have hok : ∀ n ∈ node :: ready, ∃ r, (executeNode t (tools n.id) n
              (marquer approved (node :: ready) p.results)).2 = .ok r := by
            intro n hn
            obtain ⟨r, hr, _⟩ := h.executeNode_ok (t := t) hw htools (node :: ready) (h.connu hv hn)
            exact ⟨r, hr⟩
          rw [tour_ok hok]
          exact ih (h.tour hw htools hv)

end Boucle

section Appels

variable {w : WorkflowDefinition} {t : Textes} {tools : String → Tools} {approved : List String}
  {debut : Dict String NodeResult}

theorem etape_executer (approved : List String) (hw : w.Serialisable)
    (htools : ∀ id, (tools id).Serialisable)
    (hcles : debut.keys.Nodup) (hlu : ResultatsLisibles debut) :
    (executer w t tools approved debut).2 = none ∧
      Etape w approved debut (executer w t tools approved debut).1 :=
  (Etape.initiale approved hcles hlu).boucle hw htools w.nodes.length

theorem lisibles_sauter {p : Parcours} (h : ResultatsLisibles p.results) :
    ResultatsLisibles (sauter p) := by
  intro item hitem
  rcases Dict.mem_of_mem_update hitem with hitem | hitem
  · exact h item hitem
  · obtain ⟨node, _, rfl⟩ := List.mem_map.mp hitem
    rfl

theorem get?_sauter_of_notMem {p : Parcours} {id : String}
    (h : id ∉ p.remaining.map WorkflowNode.id) : (sauter p).get? id = p.results.get? id := by
  apply Dict.get?_update_of_notMem
  intro hmem
  simp only [Dict.keys, List.map_map, Function.comp_def] at hmem
  exact h hmem

theorem Etape.get?_sauter {p : Parcours} (h : Etape w approved debut p) {id : String}
    (hid : Fini p.results id) : (sauter p).get? id = p.results.get? id := by
  apply get?_sauter_of_notMem
  intro hmem
  obtain ⟨node, hnode, rfl⟩ := List.mem_map.mp hmem
  exact h.libres node hnode ((h.finis _).mpr hid)

/-- Results that were read from a store. -/
structure Relus (results : Dict String NodeResult) : Prop where
  cles : results.keys.Nodup
  stables : ∀ item ∈ results, item.2.relu item.1 = some item.2

theorem Relus.lisibles {results : Dict String NodeResult} (h : Relus results) :
    ResultatsLisibles results := by
  intro item hitem
  have hstable := h.stables item hitem
  obtain ⟨v, hv, _⟩ := Option.map_eq_some_iff.mp hstable
  rw [hv]
  rfl

theorem relus_relireResultats {results lus : Dict String NodeResult} (hcles : results.keys.Nodup)
    (h : relireResultats results = some lus) : Relus lus := by
  have hnodup : lus.keys.Nodup := by
    rw [keys_relireResultats h]
    exact hcles
  refine ⟨hnodup, fun item hitem => ?_⟩
  obtain ⟨id, r⟩ := item
  have hget := Dict.get?_of_mem hnodup hitem
  rw [get?_relireResultats h] at hget
  obtain ⟨r₀, _, hr⟩ := Option.bind_eq_some_iff.mp hget
  exact NodeResult.relu_relu hr

/-- What a call does: it stores a run, keeps what was done, and calls tools it had not called. -/
structure AppelReussi (w : WorkflowDefinition) (approved : List String)
    (debut fin : Dict String NodeResult) (calls : List Invocation) : Prop where
  relus : Relus fin
  garde : ∀ id, Fini debut id → fin.get? id = debut.get? id
  appels : ∀ i ∈ calls, Fini fin i.node.id ∧ ¬ Fini debut i.node.id ∧ i.Permise w approved
  uniques : (calls.map fun i => i.node.id).Nodup

theorem appel_reussi (approved : List String) (hw : w.Serialisable)
    (htools : ∀ id, (tools id).Serialisable) (hdebut : Relus debut) :
    ∃ fin, (executer w t tools approved debut).2 = none ∧
      relireResultats (sauter (executer w t tools approved debut).1) = some fin ∧
      AppelReussi w approved debut fin (executer w t tools approved debut).1.invocations := by
  obtain ⟨hok, h⟩ := etape_executer (t := t) approved hw htools hdebut.cles
    hdebut.lisibles
  obtain ⟨fin, hfin⟩ := Option.isSome_iff_exists.mp
    (isSome_relireResultats (lisibles_sauter h.lisibles))
  have hrelus : Relus fin := relus_relireResultats (Dict.nodup_keys_update h.cles _) hfin
  have hstocke : ∀ id r, (executer w t tools approved debut).1.results.get? id = some r →
      terminal r.status = true → fin.get? id = r.relu id := by
    intro id r hr hterm
    rw [get?_relireResultats hfin, h.get?_sauter ⟨r, hr, hterm⟩, hr, Option.bind_some]
  refine ⟨fin, hok, hfin, hrelus, fun id hid => ?_, fun i hi => ?_, h.uniques⟩
  · obtain ⟨r, hr, hterm⟩ := hid
    have hp := (h.garde id ⟨r, hr, hterm⟩).trans hr
    rw [hstocke id r hp hterm, hr]
    exact hdebut.stables (id, r) (Dict.mem_of_get? hr)
  · obtain ⟨⟨r, hr, hterm⟩, hnew, hpermise⟩ := h.appels i hi
    refine ⟨?_, hnew, hpermise⟩
    have hlu := h.lisibles _ (Dict.mem_of_get? hr)
    obtain ⟨v, hv⟩ := Option.isSome_iff_exists.mp hlu
    refine ⟨{ r with nodeId := i.node.id, result := v }, ?_, hterm⟩
    rw [hstocke _ r hr hterm, NodeResult.relu, hv]
    rfl

end Appels

section Derouler

variable {w : WorkflowDefinition} {t : Textes} {runId : String} {magasin : Magasin} {a : Appel}

theorem poursuivre_reussi (runId : String) {tools : String → Tools} (approved : List String)
    {debut : Dict String NodeResult} (hw : w.Serialisable)
    (htools : ∀ id, (tools id).Serialisable) (hdebut : Relus debut) (magasin : Magasin) :
    ∃ record calls r, poursuivre w t magasin runId tools debut approved =
        (magasin.set runId record, calls, some r) ∧
      record.approvedNodes = approved ∧ AppelReussi w approved debut record.nodeResults calls := by
  obtain ⟨fin, hok, hfin, hreussi⟩ :=
    appel_reussi (t := t) approved hw htools hdebut
  unfold poursuivre
  rcases hexec : executer w t tools approved debut with ⟨p, exception⟩
  rw [hexec] at hok hfin hreussi
  cases hok
  dsimp only at hfin ⊢
  simp only [saveRun, hfin]
  exact ⟨_, _, _, rfl, rfl, hreussi⟩

theorem Invocation.Permise.mono {approved approved' : List String} {i : Invocation}
    (h : i.Permise w approved) (hsub : approved ⊆ approved') : i.Permise w approved' :=
  ⟨h.connu, fun hgate => hsub (h.approuve hgate), h.predecesseurs, h.entree⟩

/-- A run that was started: what its calls did is stored. -/
structure Suivi (w : WorkflowDefinition) (runId : String) (approved : List String) (e : Etat)
    (record : WorkflowRunRecord) : Prop where
  commence : e.commence = true
  stocke : e.magasin.get? runId = some record
  relus : Relus record.nodeResults
  approuves : record.approvedNodes ⊆ approved
  appels : ∀ i ∈ e.invocations, Fini record.nodeResults i.node.id ∧ i.Permise w approved
  uniques : (e.invocations.map fun i => i.node.id).Nodup

theorem suivi_premier (runId : String) (hw : w.Serialisable) (ha : a.Serialisable)
    (magasin : Magasin) :
    ∃ record, Suivi w runId a.approvedNodes (pas w t runId { magasin := magasin } a) record := by
  have hvide : Relus [] := ⟨List.nodup_nil, fun _ h => nomatch h⟩
  obtain ⟨record, calls, r, hrun, happroved, hreussi⟩ :=
    poursuivre_reussi (t := t) runId a.approvedNodes hw ha hvide magasin
  refine ⟨record, ?_⟩
  unfold pas run
  simp only [Bool.false_eq_true, if_false, hrun]
  refine ⟨rfl, Dict.get?_set_self _ _ _, hreussi.relus, by rw [happroved]; exact fun _ h => h,
    fun i hi => ?_, ?_⟩
  · obtain ⟨hfini, _, hpermise⟩ := hreussi.appels i (by simpa using hi)
    exact ⟨hfini, hpermise⟩
  · simpa using hreussi.uniques

theorem Suivi.pas {approved : List String} {e : Etat} {record : WorkflowRunRecord}
    (h : Suivi w runId approved e record) (hw : w.Serialisable) (ha : a.Serialisable) :
    ∃ record', Suivi w runId (approved ++ a.approvedNodes) (pas w t runId e a) record' ∧
      ∀ id, Fini record.nodeResults id →
        record'.nodeResults.get? id = record.nodeResults.get? id := by
  obtain ⟨record', calls, r, hrun, happroved, hreussi⟩ :=
    poursuivre_reussi (t := t) runId (record.approvedNodes ++ a.approvedNodes) hw ha h.relus
      e.magasin
  have hplus : record.approvedNodes ++ a.approvedNodes ⊆ approved ++ a.approvedNodes :=
    List.append_subset.mpr ⟨List.subset_append_of_subset_left _ h.approuves,
      List.subset_append_right _ _⟩
  have hfini : ∀ id, Fini record.nodeResults id → Fini record'.nodeResults id := by
    rintro id ⟨r, hr, hterm⟩
    exact ⟨r, (hreussi.garde id ⟨r, hr, hterm⟩).trans hr, hterm⟩
  refine ⟨record', ?_, hreussi.garde⟩
  unfold Workflows.pas run
  simp only [h.commence, if_true, h.stocke, hrun]
  refine ⟨rfl, Dict.get?_set_self _ _ _, hreussi.relus, happroved ▸ hplus, fun i hi => ?_, ?_⟩
  · rcases List.mem_append.mp hi with hi | hi
    · obtain ⟨hold, hpermise⟩ := h.appels i hi
      exact ⟨hfini _ hold, hpermise.mono (List.subset_append_left _ _)⟩
    · obtain ⟨hnew, _, hpermise⟩ := hreussi.appels i hi
      exact ⟨hnew, hpermise.mono hplus⟩
  · dsimp only
    rw [List.map_append]
    refine List.nodup_append.mpr ⟨h.uniques, hreussi.uniques, fun x hx y hy hxy => ?_⟩
    obtain ⟨i, hi, rfl⟩ := List.mem_map.mp hx
    obtain ⟨j, hj, rfl⟩ := List.mem_map.mp hy
    exact (hreussi.appels j hj).2.1 (hxy ▸ (h.appels i hi).1)

theorem Suivi.foldl {approved : List String} {e : Etat} {record : WorkflowRunRecord}
    (h : Suivi w runId approved e record) (hw : w.Serialisable) (appels : List Appel)
    (happels : ∀ a ∈ appels, a.Serialisable) :
    ∃ record', Suivi w runId (approved ++ appels.flatMap Appel.approvedNodes)
        (appels.foldl (Workflows.pas w t runId) e) record' ∧
      ∀ id, Fini record.nodeResults id →
        record'.nodeResults.get? id = record.nodeResults.get? id := by
  induction appels generalizing approved e record with
  | nil => exact ⟨record, by simpa using h, fun _ _ => rfl⟩
  | cons a appels ih =>
      obtain ⟨middle, hmiddle, hfirst⟩ := h.pas (t := t) hw (happels a List.mem_cons_self)
      obtain ⟨record', hrest, hlast⟩ := ih hmiddle fun b hb => happels b (List.mem_cons_of_mem _ hb)
      refine ⟨record', by simpa using hrest, fun id hid => ?_⟩
      have hid' : Fini middle.nodeResults id := by
        obtain ⟨r, hr, hterm⟩ := hid
        exact ⟨r, (hfirst id ⟨r, hr, hterm⟩).trans hr, hterm⟩
      rw [hlast id hid', hfirst id hid]

theorem suivi_derouler (runId : String) (hw : w.Serialisable) (magasin : Magasin)
    {appels : List Appel} (hne : appels ≠ []) (happels : ∀ a ∈ appels, a.Serialisable) :
    ∃ record, Suivi w runId (appels.flatMap Appel.approvedNodes)
      (derouler w t runId magasin appels) record := by
  cases appels with
  | nil => exact absurd rfl hne
  | cons a appels =>
      obtain ⟨record, hfirst⟩ := suivi_premier (t := t) runId hw
        (happels a List.mem_cons_self) magasin
      obtain ⟨record', hrest, _⟩ :=
        hfirst.foldl (t := t) hw appels fun b hb => happels b (List.mem_cons_of_mem _ hb)
      refine ⟨record', ?_⟩
      rw [List.flatMap_cons]
      exact hrest

end Derouler

/-- When JSON can write what the nodes and the tools give, and no exception but an `Exception` is
raised: over the first calls of every run, no node's tool is called twice, a tool is only called
for a node that is approved if it is gated, on done predecessors and a satisfied edge, and what
is recorded as terminal stays as it is in the calls that follow. -/
theorem au_plus_une_fois (w : WorkflowDefinition) (t : Textes) (runId : String)
    (magasin : Magasin) (hlibre : magasin.get? runId = none) (hw : w.Serialisable)
    (appels suite : List Appel) (happels : ∀ a ∈ appels ++ suite, a.Serialisable) :
    let e := derouler w t runId magasin appels
    (e.invocations.map fun i => i.node.id).Nodup ∧
      (∀ i ∈ e.invocations, i.Permise w (appels.flatMap Appel.approvedNodes)) ∧
      ∀ id r, e.enregistre runId id = some r → terminal r.status = true →
        (derouler w t runId magasin (appels ++ suite)).enregistre runId id = some r := by
  intro e
  have hfirst : ∀ a ∈ appels, a.Serialisable := fun a ha => happels a (List.mem_append_left _ ha)
  by_cases hne : appels = []
  · subst hne
    refine ⟨List.nodup_nil, fun i (hi : i ∈ []) => absurd hi List.not_mem_nil,
      fun id r hr => ?_⟩
    have hnone : e.enregistre runId id = none := by
      show (magasin.get? runId).bind _ = none
      rw [hlibre]
      rfl
    rw [hnone] at hr
    cases hr
  · obtain ⟨record, hsuivi⟩ := suivi_derouler (t := t) runId hw magasin hne hfirst
    obtain ⟨record', hrest, hgarde⟩ := hsuivi.foldl (t := t) hw suite
      fun a ha => happels a (List.mem_append_right _ ha)
    refine ⟨hsuivi.uniques, fun i hi => (hsuivi.appels i hi).2, fun id r hr hterm => ?_⟩
    have hlu : record.nodeResults.get? id = some r := by
      have hbind : (e.magasin.get? runId).bind (fun record => record.nodeResults.get? id) =
          some r :=
        hr
      rwa [hsuivi.stocke] at hbind
    have hsame : derouler w t runId magasin (appels ++ suite) =
        suite.foldl (pas w t runId) (derouler w t runId magasin appels) := List.foldl_append
    unfold Etat.enregistre
    rw [hsame, hrest.stocke, Option.bind_some, hgarde id ⟨r, hlu, hterm⟩, hlu]

def unePorte : WorkflowDefinition where
  id := "w"
  nodes := [{ id := "a", action := "f", params := [], humanValidation := true }]
  edges := []
  valide := rfl

def textesBruts : Textes where
  repr s := "'" ++ s ++ "'"
  refus _ := "Object of type object is not JSON serializable"

def appelRendant (sortie : Sortie) (approvedNodes : List String) : Appel where
  tools _ _ := some fun _ => sortie
  approvedNodes := approvedNodes

theorem au_plus_une_fois_une_porte :
    let appels := [appelRendant (.rendu .rien) [], appelRendant (.rendu .rien) ["a"]]
    let suite := [appelRendant (.leve "late") ["a"]]
    let e := derouler unePorte textesBruts "r" [] appels
    e.invocations.map (fun i => i.node.id) = ["a"] ∧
      (e.invocations.map fun i => i.node.id).Nodup ∧
      (∀ i ∈ e.invocations, i.Permise unePorte (appels.flatMap Appel.approvedNodes)) ∧
      ∀ id r, e.enregistre "r" id = some r → terminal r.status = true →
        (derouler unePorte textesBruts "r" [] (appels ++ suite)).enregistre "r" id = some r := by
  refine ⟨by decide, au_plus_une_fois unePorte textesBruts "r" [] rfl ?_ _ _ ?_⟩
  · intro node hnode item hitem
    rw [List.mem_singleton.mp hnode] at hitem
    cases hitem
  · intro a ha nodeId action tool params htool
    fin_cases ha <;> cases htool <;> trivial

/-- The tool of the only node answers an object that JSON does not know: the call that made it is
lost, and the next one makes it again. -/
theorem rappel_apres_refus :
    ¬ ((derouler unePorte textesBruts "r" []
      [appelRendant (.rendu (.objet "object")) [], appelRendant (.rendu (.objet "object")) ["a"],
        appelRendant (.rendu (.objet "object")) ["a"]]).invocations.map
          fun i => i.node.id).Nodup := by
  decide

end Hermes.Workflows
