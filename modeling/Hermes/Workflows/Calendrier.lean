import Hermes.Lib.Vagues
import Hermes.Workflows.Resume

/-! # Approvals given at once or call after call

With tools that depend on their parameters only, a run is the evaluation of the graph wave after
wave, and the calls are a schedule of its gates.
-/

namespace Hermes.Workflows

open Lib

def references (node : WorkflowNode) : List String :=
  node.params.filterMap fun item =>
    match item.2 with
    | .texte value =>
        match lirePlaceholder value with
        | .etape nodeId _ => some nodeId
        | _ => none
    | _ => none

namespace WorkflowDefinition

def Precede (w : WorkflowDefinition) (p n : String) : Prop :=
  ∃ e ∈ w.incomingEdges n, e.fromNode = p

def Ouvert (w : WorkflowDefinition) (approved : List String) (n : String) : Prop :=
  ∃ node ∈ w.nodes, node.id = n ∧ retenu approved node = false

/-- The parameters of `n` read the result of `a`. -/
def Lit (w : WorkflowDefinition) (n a : String) : Prop :=
  ∃ node ∈ w.nodes, node.id = n ∧ a ∈ references node

/-- The waves of a call: one for each node is enough. -/
def vagues (w : WorkflowDefinition) (approved : List String) : List (String → Prop) :=
  List.replicate w.nodes.length (w.Ouvert approved)

/-- The waves of the calls, whose approvals add up. -/
def calendrier (w : WorkflowDefinition) : List String → List (List String) → List (String → Prop)
  | _, [] => []
  | approved, a :: approbations =>
      w.vagues (approved ++ a) ++ w.calendrier (approved ++ a) approbations

/-- The turn of `a` comes in an earlier wave than the turn of `n`, were every edge followed. -/
def Avant (w : WorkflowDefinition) (approbations : List (List String)) (a n : String) : Prop :=
  Vagues.Avant w.Precede (w.calendrier [] approbations) a n

end WorkflowDefinition

/-- The results that count: those that are terminal. -/
def acquis (results : Dict String NodeResult) (id : String) : Option NodeResult :=
  (results.get? id).filter fun r => terminal r.status

def Satisfaite (valeurs : String → Option NodeResult) (e : WorkflowEdge) : Prop :=
  match e.condition with
  | .always => True
  | .onSuccess => ∃ r, valeurs e.fromNode = some r ∧ r.status = .success
  | .onFailure => ∃ r, valeurs e.fromNode = some r ∧ r.status = .failed

def Entree (w : WorkflowDefinition) (n : String) (valeurs : String → Option NodeResult) : Prop :=
  w.incomingEdges n = [] ∨ ∃ e ∈ w.incomingEdges n, Satisfaite valeurs e

def extrait (valeurs : String → Option NodeResult) (node : WorkflowNode) : Dict String NodeResult :=
  (references node).filterMap fun id => (valeurs id).map fun r => (id, r)

def issue (w : WorkflowDefinition) (t : Textes) (tools : Tools) (n : String)
    (valeurs : String → Option NodeResult) : NodeResult :=
  match w.nodes.find? fun node => node.id = n with
  | none => .echec n ""
  | some node => resultat t (fun _ => tools) (extrait valeurs node) node

section Lecture

variable {w : WorkflowDefinition} {t : Textes} {tools : Tools}

theorem get?_extrait {valeurs : String → Option NodeResult} {node : WorkflowNode} {id : String}
    (h : id ∈ references node) : (extrait valeurs node).get? id = valeurs id := by
  suffices hall : ∀ ids : List String,
      Dict.get? (ids.filterMap fun id => (valeurs id).map fun r => (id, r)) id =
        if id ∈ ids then valeurs id else none by
    rw [extrait, hall, if_pos h]
  intro ids
  induction ids with
  | nil => rfl
  | cons first rest ih =>
      cases hfirst : valeurs first with
      | none =>
          rw [List.filterMap_cons_none (by rw [hfirst]; rfl), ih]
          by_cases hid : id = first
          · simp [hid, hfirst]
          · simp [hid]
      | some r =>
          rw [List.filterMap_cons_some (b := (first, r)) (by rw [hfirst]; rfl), Dict.get?_cons, ih]
          by_cases hid : id = first
          · simp [hid, hfirst]
          · simp [hid]

theorem resolveValue_congr {value : String} {results results' : Dict String NodeResult}
    (h : ∀ id key, lirePlaceholder value = .etape id key →
      (results.get? id).filter (fun r => r.status = .success) =
        (results'.get? id).filter fun r => r.status = .success) :
    resolveValue t value results = resolveValue t value results' := by
  unfold resolveValue
  cases hlire : lirePlaceholder value with
  | aucun => rfl
  | malforme => rfl
  | etape id key =>
      dsimp only
      rw [h id key hlire]

theorem resolveParams_congr {params : Params} {results results' : Dict String NodeResult}
    (h : ∀ item ∈ params, ∀ value, item.2 = .texte value →
      resolveValue t value results = resolveValue t value results') :
    resolveParams t params results = resolveParams t params results' := by
  unfold resolveParams
  induction params with
  | nil => rfl
  | cons item params ih =>
      have hrest := ih fun i hi => h i (List.mem_cons_of_mem _ hi)
      have hfirst := h item List.mem_cons_self
      rw [List.mapM_cons, List.mapM_cons, hrest]
      obtain ⟨k, v⟩ := item
      cases v with
      | texte value =>
          dsimp only
          rw [hfirst value rfl]
      | _ => rfl

theorem executeNode_congr {node : WorkflowNode} {results results' : Dict String NodeResult}
    (h : ∀ id ∈ references node,
      (results.get? id).filter (fun r => r.status = .success) =
        (results'.get? id).filter fun r => r.status = .success) :
    executeNode t tools node results = executeNode t tools node results' := by
  have hparams : resolveParams t node.params results = resolveParams t node.params results' := by
    apply resolveParams_congr
    intro item hitem value hvalue
    apply resolveValue_congr
    intro id key hlire
    apply h
    refine List.mem_filterMap.mpr ⟨item, hitem, ?_⟩
    simp [hvalue, hlire]
  unfold executeNode
  rw [hparams]

theorem filter_acquis (results : Dict String NodeResult) (id : String) :
    (acquis results id).filter (fun r => r.status = .success) =
      (results.get? id).filter fun r => r.status = .success := by
  unfold acquis
  cases results.get? id with
  | none => rfl
  | some r =>
      cases hstatus : r.status <;> simp [Option.filter, hstatus, terminal]

theorem satisfaite_acquis {results : Dict String NodeResult} {e : WorkflowEdge} :
    Satisfaite (acquis results) e ↔ edgeSatisfied e results = true := by
  have hread (s : Status) (hs : terminal s = true) :
      (∃ r, acquis results e.fromNode = some r ∧ r.status = s) ↔
        ((results.get? e.fromNode).any fun r => r.status = s) = true := by
    simp only [acquis, Option.filter_eq_some_iff, Option.any_eq_true, decide_eq_true_eq]
    constructor
    · rintro ⟨r, ⟨hr, _⟩, rfl⟩
      exact ⟨r, hr, rfl⟩
    · rintro ⟨r, hr, rfl⟩
      exact ⟨r, ⟨hr, hs⟩, rfl⟩
  unfold edgeSatisfied Satisfaite
  cases e.condition with
  | always => simp
  | onSuccess => exact hread .success rfl
  | onFailure => exact hread .failed rfl

theorem fini_iff {results : Dict String NodeResult} {id : String} :
    Fini results id ↔ (acquis results id).isSome := by
  simp only [Fini, acquis, Option.isSome_iff_exists, Option.filter_eq_some_iff]

theorem issue_eq {node : WorkflowNode} (hnode : node ∈ w.nodes)
    (valeurs : String → Option NodeResult) :
    issue w t tools node.id valeurs = resultat t (fun _ => tools) (extrait valeurs node) node := by
  have hfind : w.nodes.find? (fun n => n.id = node.id) = some node := by
    cases hfind : w.nodes.find? fun n => n.id = node.id with
    | none => simpa using List.find?_eq_none.mp hfind node hnode
    | some other =>
        have hid : other.id = node.id := by simpa using List.find?_some hfind
        rw [w.node_inj (List.mem_of_find?_eq_some hfind) hnode hid]
  unfold issue
  rw [hfind]

theorem local_issue (w : WorkflowDefinition) (t : Textes) (tools : Tools) :
    Vagues.Local w.Precede (Entree w) (issue w t tools) w.Lit where
  pret n v v' h := by
    have hsat : ∀ e ∈ w.incomingEdges n, Satisfaite v e ↔ Satisfaite v' e := by
      intro e he
      unfold Satisfaite
      rw [h e.fromNode ⟨e, he, rfl⟩]
    exact or_congr_right (exists_congr fun e => and_congr_right fun he => hsat e he)
  issue n v v' h := by
    unfold issue
    cases hfind : w.nodes.find? fun node => node.id = n with
    | none => rfl
    | some node =>
        have hid : node.id = n := by simpa using List.find?_some hfind
        have hsame : extrait v node = extrait v' node := by
          apply List.filterMap_congr
          intro id hin
          rw [h id ⟨node, List.mem_of_find?_eq_some hfind, hid, hin⟩]
        dsimp only
        rw [hsame]

end Lecture

/-- The tool answers a value that JSON gives back as it is, or raises an `Exception`. -/
def Sortie.Plate : Sortie → Prop
  | rendu value => value.relu = some value
  | leve _ => True
  | echappe _ => False

def Tools.Plats (tools : Tools) : Prop :=
  ∀ action tool params, tools action = some tool → (tool params).Plate

theorem Tools.Plats.serialisable {tools : Tools} (h : tools.Plats) : tools.Serialisable := by
  intro action tool params htool
  have hplate := h action tool params htool
  cases hsortie : tool params with
  | rendu value =>
      rw [hsortie] at hplate
      have hsome : value.relu = some value := hplate
      show value.relu.isSome
      rw [hsome]
      rfl
  | leve message => trivial
  | echappe message =>
      rw [hsortie] at hplate
      exact hplate.elim

/-- Results that are stored as they are. -/
def Fidele (results : Dict String NodeResult) : Prop :=
  ∀ item ∈ results, item.2.relu item.1 = some item.2

/-- A node that is not done is still to be looked at, or held at its gate. -/
structure Exacte (w : WorkflowDefinition) (approved : List String) (p : Parcours) : Prop where
  fidele : Fidele p.results
  connus : ∀ id ∈ p.results.keys, id ∈ w.nodes.map WorkflowNode.id
  restants : ∀ node ∈ w.nodes,
    node ∈ p.remaining ↔ node.id ∉ p.done ∧ node.id ∉ p.pendingNodes
  retenus : ∀ id ∈ p.pendingNodes, ∃ node ∈ w.nodes, node.id = id ∧ retenu approved node = true

section Vague

variable {w : WorkflowDefinition} {t : Textes} {tools : Tools} {approved : List String}
  {debut : Dict String NodeResult} {p : Parcours} {ready : List WorkflowNode}

theorem relu_resultat (htools : tools.Plats) {node : WorkflowNode}
    {results : Dict String NodeResult} {r : NodeResult}
    (hr : (executeNode t tools node results).2 = .ok r) : r.relu node.id = some r := by
  have hechec (message : String) : (NodeResult.echec node.id message).relu node.id =
      some (.echec node.id message) := rfl
  unfold executeNode at hr
  split at hr
  · cases hr
    exact hechec _
  · next tool htool =>
      split at hr
      · cases hr
        exact hechec _
      · next params _ =>
          split at hr
          · cases hr
          · split at hr
            · cases hr
              exact hechec _
            · cases hr
            · next value hvalue =>
                split at hr
                · cases hr
                · cases hr
                  have hplate := htools node.action tool params htool
                  rw [hvalue] at hplate
                  have hsome : value.relu = some value := hplate
                  simp [NodeResult.relu, hsome]

theorem keys_apresTour (hready : ∀ node ∈ ready, node ∈ w.nodes)
    (hconnus : ∀ id ∈ p.results.keys, id ∈ w.nodes.map WorkflowNode.id)
    {outils : String → Tools} :
    ∀ id ∈ (apresTour t outils approved ready p).results.keys,
      id ∈ w.nodes.map WorkflowNode.id := by
  intro id hid
  obtain ⟨item, hitem, rfl⟩ := List.mem_map.mp hid
  rcases Dict.mem_of_mem_update hitem with hitem | hitem
  · rcases Dict.mem_of_mem_update hitem with hitem | hitem
    · exact hconnus _ (List.mem_map_of_mem hitem)
    · obtain ⟨node, hnode, rfl⟩ := List.mem_map.mp hitem
      exact List.mem_map_of_mem (hready node (List.mem_of_mem_filter hnode))
  · obtain ⟨node, hnode, rfl⟩ := List.mem_map.mp hitem
    exact List.mem_map_of_mem (hready node (List.mem_of_mem_filter hnode))

theorem Exacte.tour (hx : Exacte w approved p) (h : Etape w approved debut p)
    (hw : w.Serialisable) (htools : tools.Plats) (hv : Vague w p ready) :
    Exacte w approved (apresTour t (fun _ => tools) approved ready p) := by
  refine ⟨?_, keys_apresTour (fun node hnode => h.connu hv hnode) hx.connus, ?_, ?_⟩
  · intro item hitem
    rcases Dict.mem_of_mem_update hitem with hitem | hitem
    · rcases Dict.mem_of_mem_update hitem with hitem | hitem
      · exact hx.fidele item hitem
      · obtain ⟨node, _, rfl⟩ := List.mem_map.mp hitem
        rfl
    · obtain ⟨node, hnode, rfl⟩ := List.mem_map.mp hitem
      obtain ⟨r, hr, _⟩ := h.executeNode_ok (t := t) hw (fun _ => htools.serialisable) ready
        (h.connu hv (mem_ouverts.mp hnode).1)
      dsimp only
      rw [resultat, hr]
      exact relu_resultat htools hr
  · intro node hnode
    have hsplit : node.id ∈ ready.map WorkflowNode.id ↔
        node.id ∈ (ouverts approved ready).map WorkflowNode.id ∨
          node.id ∈ (ready.filter (retenu approved)).map WorkflowNode.id := by
      simp only [ouverts, List.mem_map, List.mem_filter, ← exists_or]
      refine exists_congr fun other => ?_
      cases retenu approved other <;> simp
    simp only [apresTour, List.mem_filter, hx.restants node hnode, decide_eq_true_eq, hsplit,
      List.mem_append, not_or]
    constructor
    · rintro ⟨⟨hdone, hpending⟩, houvert, hretenu⟩
      exact ⟨⟨hdone, houvert⟩, hpending, hretenu⟩
    · rintro ⟨⟨hdone, houvert⟩, hpending, hretenu⟩
      exact ⟨⟨hdone, hpending⟩, houvert, hretenu⟩
  · intro id hpending
    rcases List.mem_append.mp hpending with hpending | hpending
    · exact hx.retenus id hpending
    · obtain ⟨node, hnode, rfl⟩ := List.mem_map.mp hpending
      obtain ⟨hready, hretenu⟩ := List.mem_filter.mp hnode
      exact ⟨node, h.connu hv hready, rfl, hretenu⟩

theorem Exacte.notMem_pendingNodes (hx : Exacte w approved p) {node : WorkflowNode}
    (hnode : node ∈ w.nodes) (houvert : retenu approved node = false) :
    node.id ∉ p.pendingNodes := by
  intro hpending
  obtain ⟨other, hother, hid, hretenu⟩ := hx.retenus _ hpending
  rw [w.node_inj hother hnode hid, houvert] at hretenu
  cases hretenu

theorem Etape.estPret_iff (h : Etape w approved debut p) {node : WorkflowNode} :
    estPret w p.done p.results node = true ↔
      (∀ q, w.Precede q node.id → (acquis p.results q).isSome) ∧
        Entree w node.id (acquis p.results) := by
  have hdone : ∀ q, q ∈ p.done ↔ (acquis p.results q).isSome := fun q =>
    (h.finis q).trans fini_iff
  unfold estPret Entree
  simp only [Bool.or_eq_true, Bool.and_eq_true, List.isEmpty_iff, List.all_eq_true,
    List.any_eq_true, decide_eq_true_eq, hdone, satisfaite_acquis,
    WorkflowDefinition.Precede]
  constructor
  · rintro (hnone | ⟨hall, hsat⟩)
    · refine ⟨fun q hq => ?_, .inl hnone⟩
      obtain ⟨e, he, _⟩ := hq
      rw [hnone] at he
      cases he
    · refine ⟨fun q hq => ?_, .inr hsat⟩
      obtain ⟨e, he, rfl⟩ := hq
      exact hall e he
  · rintro ⟨hall, hnone | hsat⟩
    · exact .inl hnone
    · exact .inr ⟨fun e he => hall _ ⟨e, he, rfl⟩, hsat⟩

theorem Etape.resultat_eq (h : Etape w approved debut p) (hv : Vague w p ready)
    {node : WorkflowNode} (hnode : node ∈ ready) :
    resultat t (fun _ => tools) (marquer approved ready p.results) node =
      issue w t tools node.id (acquis p.results) := by
  rw [issue_eq (h.connu hv hnode)]
  unfold resultat
  congr 2
  apply executeNode_congr
  intro id hid
  rw [get?_extrait hid, filter_acquis]
  by_cases hin : id ∈ ready.map WorkflowNode.id
  · -- a node of the wave has no result yet, and is at most marked as waiting
    obtain ⟨other, hother, rfl⟩ := List.mem_map.mp hin
    have hnone (results : Dict String NodeResult) (hfini : ¬ Fini results other.id) :
        (results.get? other.id).filter (fun r => r.status = .success) = none := by
      rw [Option.filter_eq_none_iff]
      intro r hr hsuccess
      exact hfini ⟨r, hr, by rw [of_decide_eq_true hsuccess]; rfl⟩
    have hlibre : ¬ Fini p.results other.id := fun hfini =>
      h.libres other (hv.prets other hother).1 ((h.finis _).mpr hfini)
    rw [hnone _ hlibre]
    apply hnone
    rintro ⟨r, hr, hterm⟩
    rcases Dict.mem_of_mem_update (Dict.mem_of_get? hr) with hmem | hmem
    · exact hlibre ⟨r, Dict.get?_of_mem h.cles hmem, hterm⟩
    · obtain ⟨waiting, _, heq⟩ := List.mem_map.mp hmem
      obtain ⟨_, rfl⟩ := Prod.mk.inj heq
      cases hterm
  · rw [get?_marquer hin]

theorem Etape.acquis_apresTour (h : Etape w approved debut p) (hx : Exacte w approved p)
    (hw : w.Serialisable) (htools : tools.Plats) :
    acquis (apresTour t (fun _ => tools) approved
        (readyNodes w p.done p.results p.remaining) p).results =
      Vagues.vague w.Precede (Entree w) (issue w t tools) (w.Ouvert approved)
        (acquis p.results) := by
  have hv : Vague w p (readyNodes w p.done p.results p.remaining) := Vague.readyNodes h.restants
  funext id
  cases hval : acquis p.results id with
  | some r =>
      have hdone : id ∈ p.done := (h.finis id).mpr (fini_iff.mpr (by rw [hval]; rfl))
      rw [Vagues.vague_of_some hval, ← hval]
      unfold acquis
      rw [get?_apresTour (h.libre hv hdone)]
  | none =>
      have hnot : id ∉ p.done := by
        intro hdone
        have hsome := fini_iff.mp ((h.finis id).mp hdone)
        rw [hval] at hsome
        cases hsome
      by_cases hpret : ∃ node ∈ w.nodes, node.id = id ∧ retenu approved node = false ∧
          estPret w p.done p.results node = true
      · obtain ⟨node, hnode, rfl, houvert, hpret⟩ := hpret
        have hattente := hx.notMem_pendingNodes hnode houvert
        have hready : node ∈ readyNodes w p.done p.results p.remaining :=
          mem_readyNodes.mpr ⟨(hx.restants node hnode).mpr ⟨hnot, hattente⟩, hpret⟩
        obtain ⟨hpreds, hentree⟩ := h.estPret_iff.mp hpret
        have hvague : Vagues.vague w.Precede (Entree w) (issue w t tools) (w.Ouvert approved)
            (acquis p.results) node.id = some (issue w t tools node.id (acquis p.results)) :=
          (Vagues.vague_of_none hval).mpr ⟨⟨⟨node, hnode, rfl, houvert⟩, hpreds, hentree⟩, rfl⟩
        have hterm := (h.resultat_ok (t := t) hw (fun _ => htools.serialisable)
          (readyNodes w p.done p.results p.remaining) hnode).1
        rw [hvague, ← h.resultat_eq hv hready]
        unfold acquis
        rw [get?_apresTour_of_ouvert hv.uniques hready houvert]
        simp only [Option.filter_some, hterm, if_true]
      · have hvague : Vagues.vague w.Precede (Entree w) (issue w t tools) (w.Ouvert approved)
            (acquis p.results) id = none := by
          rw [Option.eq_none_iff_forall_ne_some]
          intro r hr
          obtain ⟨⟨⟨node, hnode, rfl, houvert⟩, hpreds, hentree⟩, _⟩ :=
            (Vagues.vague_of_none hval).mp hr
          exact hpret ⟨node, hnode, rfl, houvert, h.estPret_iff.mpr ⟨hpreds, hentree⟩⟩
        rw [hvague]
        by_cases hin : id ∈ (readyNodes w p.done p.results p.remaining).map WorkflowNode.id
        · obtain ⟨node, hnode, rfl⟩ := List.mem_map.mp hin
          have hretenu : retenu approved node = true := by
            by_contra houvert
            exact hpret ⟨node, h.connu hv hnode, rfl, Bool.eq_false_iff.mpr houvert,
              (hv.prets node hnode).2⟩
          unfold acquis
          rw [get?_apresTour_of_retenu hv.uniques hnode hretenu]
          rfl
        · rw [← hval]
          unfold acquis
          rw [get?_apresTour hin]

theorem vague_of_readyNodes_nil (h : Etape w approved debut p) (hx : Exacte w approved p)
    (hw : w.Serialisable) (htools : tools.Plats)
    (hvide : readyNodes w p.done p.results p.remaining = []) :
    Vagues.vague w.Precede (Entree w) (issue w t tools) (w.Ouvert approved) (acquis p.results) =
      acquis p.results := by
  rw [← h.acquis_apresTour (t := t) hx hw htools, hvide]
  rfl

theorem acquis_boucle (n : Nat) (h : Etape w approved debut p) (hx : Exacte w approved p)
    (hw : w.Serialisable) (htools : tools.Plats) :
    Exacte w approved (boucle w t (fun _ => tools) approved n p).1 ∧
      acquis (boucle w t (fun _ => tools) approved n p).1.results =
        (Vagues.vague w.Precede (Entree w) (issue w t tools) (w.Ouvert approved))^[n]
          (acquis p.results) := by
  induction n generalizing p with
  | zero => exact ⟨hx, rfl⟩
  | succ n ih =>
      unfold boucle
      split
      · next hvide =>
          have hfixe := vague_of_readyNodes_nil (t := t) h hx hw htools hvide
          exact ⟨hx, (Function.iterate_fixed hfixe (n + 1)).symm⟩
      · next node ready hready =>
          have hv : Vague w p (node :: ready) := hready ▸ Vague.readyNodes h.restants
          have hok : ∀ n ∈ node :: ready, ∃ r, (executeNode t tools n
              (marquer approved (node :: ready) p.results)).2 = .ok r := by
            intro n hn
            obtain ⟨r, hr, _⟩ := h.executeNode_ok (t := t) hw (fun _ => htools.serialisable)
              (node :: ready) (h.connu hv hn)
            exact ⟨r, hr⟩
          have htour := h.acquis_apresTour (t := t) hx hw htools
          rw [hready] at htour
          rw [tour_ok hok, Function.iterate_succ_apply, ← htour]
          exact ih (h.tour hw (fun _ => htools.serialisable) hv) (hx.tour h hw htools hv)

end Vague

section Appels

variable {w : WorkflowDefinition} {t : Textes} {tools : Tools} {approved : List String}
  {debut : Dict String NodeResult} {l : List (String → Prop)}

/-- What the evaluation of the graph comes to under a schedule. -/
noncomputable def evaluation (w : WorkflowDefinition) (t : Textes) (tools : Tools)
    (l : List (String → Prop)) : String → Option NodeResult :=
  Vagues.marche w.Precede (Entree w) (issue w t tools) l

/-- Results that the schedule comes to, as they are stored. -/
structure Calcule (w : WorkflowDefinition) (t : Textes) (tools : Tools) (l : List (String → Prop))
    (results : Dict String NodeResult) : Prop where
  relus : Relus results
  connus : ∀ id ∈ results.keys, id ∈ w.nodes.map WorkflowNode.id
  acquis : acquis results = evaluation w t tools l

theorem relireResultats_of_fidele {results : Dict String NodeResult} (h : Fidele results) :
    relireResultats results = some results := by
  unfold relireResultats
  induction results with
  | nil => rfl
  | cons item results ih =>
      rw [List.mapM_cons, h item List.mem_cons_self,
        ih fun i hi => h i (List.mem_cons_of_mem _ hi)]
      rfl

theorem Calcule.vide : Calcule w t tools [] [] where
  relus := ⟨List.nodup_nil, fun _ h => nomatch h⟩
  connus _ h := nomatch h
  acquis := rfl

theorem Exacte.initiale (h : Calcule w t tools l debut) :
    Exacte w approved
      { results := debut
        done := faits debut
        pendingNodes := []
        remaining := w.nodes.filter fun node => node.id ∉ faits debut
        invocations := [] } where
  fidele := h.relus.stables
  connus := h.connus
  restants node hnode := by simp [List.mem_filter, hnode]
  retenus _ h := nomatch h

/-- One call, from results that a schedule comes to: the loop ends, and its results are those the
longer schedule comes to. -/
structure AppelExact (w : WorkflowDefinition) (t : Textes) (tools : Tools) (approved : List String)
    (l : List (String → Prop)) (p : Parcours) : Prop where
  etape : ∃ debut, Etape w approved debut p
  exacte : Exacte w approved p
  acquis : acquis p.results = evaluation w t tools (l ++ w.vagues approved)

theorem executer_exact (approved : List String) (h : Calcule w t tools l debut)
    (hw : w.Serialisable) (htools : tools.Plats) :
    (executer w t (fun _ => tools) approved debut).2 = none ∧
      AppelExact w t tools approved l (executer w t (fun _ => tools) approved debut).1 := by
  have hdepart := Etape.initiale (w := w) approved h.relus.cles h.relus.lisibles
  have hboucle := hdepart.boucle (t := t) hw (fun _ => htools.serialisable) w.nodes.length
  have hacquis := acquis_boucle (t := t) w.nodes.length hdepart (Exacte.initiale h) hw htools
  refine ⟨hboucle.1, ⟨debut, hboucle.2⟩, hacquis.1, ?_⟩
  rw [evaluation, WorkflowDefinition.vagues, Vagues.marche_replicate]
  exact hacquis.2.trans (by rw [h.acquis]; rfl)

variable {p : Parcours}

theorem acquis_sauter (h : Etape w approved debut p) : acquis (sauter p) = acquis p.results := by
  funext id
  by_cases hid : id ∈ p.remaining.map WorkflowNode.id
  · obtain ⟨node, hnode, rfl⟩ := List.mem_map.mp hid
    have hlibre : ¬ Fini p.results node.id := fun hfini =>
      h.libres node hnode ((h.finis _).mpr hfini)
    have hsaute : ¬ Fini (sauter p) node.id := by
      rintro ⟨r, hr, hterm⟩
      rcases Dict.mem_of_mem_update (Dict.mem_of_get? hr) with hmem | hmem
      · exact hlibre ⟨r, Dict.get?_of_mem h.cles hmem, hterm⟩
      · obtain ⟨skipped, _, heq⟩ := List.mem_map.mp hmem
        obtain ⟨_, rfl⟩ := Prod.mk.inj heq
        cases hterm
    rw [fini_iff, Option.not_isSome_iff_eq_none] at hlibre hsaute
    rw [hlibre, hsaute]
  · unfold acquis
    rw [get?_sauter_of_notMem hid]

theorem AppelExact.calcule (h : AppelExact w t tools approved l p) :
    Calcule w t tools (l ++ w.vagues approved) (sauter p) := by
  obtain ⟨debut, hetape⟩ := h.etape
  refine ⟨⟨Dict.nodup_keys_update hetape.cles _, fun item hitem => ?_⟩, fun id hid => ?_, ?_⟩
  · rcases Dict.mem_of_mem_update hitem with hitem | hitem
    · exact h.exacte.fidele item hitem
    · obtain ⟨node, _, rfl⟩ := List.mem_map.mp hitem
      rfl
  · obtain ⟨item, hitem, rfl⟩ := List.mem_map.mp hid
    rcases Dict.mem_of_mem_update hitem with hitem | hitem
    · exact h.exacte.connus _ (List.mem_map_of_mem hitem)
    · obtain ⟨node, hnode, rfl⟩ := List.mem_map.mp hitem
      exact List.mem_map_of_mem (hetape.restants.subset hnode)
  · rw [acquis_sauter hetape, h.acquis]

def ToutesOuvertes (w : WorkflowDefinition) (approved : List String) : Prop :=
  ∀ node ∈ w.nodes, node.humanValidation = true → node.id ∈ approved

theorem ToutesOuvertes.retenu (h : ToutesOuvertes w approved) {node : WorkflowNode}
    (hnode : node ∈ w.nodes) : retenu approved node = false := by
  cases hgate : node.humanValidation with
  | false => simp [Workflows.retenu, hgate]
  | true => simp [Workflows.retenu, hgate, h node hnode hgate]

def bilan (w : WorkflowDefinition) (valeurs : String → Option NodeResult) (id : String) :
    Option NodeResult :=
  if id ∈ w.nodes.map WorkflowNode.id then
    some ((valeurs id).getD { nodeId := id, status := .skipped })
  else none

theorem AppelExact.pendingNodes (h : AppelExact w t tools approved l p)
    (hgates : ToutesOuvertes w approved) : p.pendingNodes = [] := by
  apply List.eq_nil_iff_forall_not_mem.mpr
  intro id hid
  obtain ⟨node, hnode, rfl, hretenu⟩ := h.exacte.retenus id hid
  rw [hgates.retenu hnode] at hretenu
  cases hretenu

theorem AppelExact.get?_sauter (h : AppelExact w t tools approved l p)
    (hgates : ToutesOuvertes w approved) (id : String) :
    (sauter p).get? id = bilan w (evaluation w t tools (l ++ w.vagues approved)) id := by
  obtain ⟨debut, hetape⟩ := h.etape
  have hcalcule := h.calcule
  unfold bilan
  split
  · next hin =>
      obtain ⟨node, hnode, rfl⟩ := List.mem_map.mp hin
      rw [← h.acquis]
      cases hval : Workflows.acquis p.results node.id with
      | some r =>
          have hread := (Option.filter_eq_some_iff.mp hval)
          rw [hetape.get?_sauter ⟨r, hread⟩, hread.1]
          rfl
      | none =>
          have hdone : node.id ∉ p.done := by
            intro hdone
            have hsome := fini_iff.mp ((hetape.finis _).mp hdone)
            rw [hval] at hsome
            cases hsome
          have hrest : node ∈ p.remaining :=
            (h.exacte.restants node hnode).mpr
              ⟨hdone, h.exacte.notMem_pendingNodes hnode (hgates.retenu hnode)⟩
          unfold sauter
          apply Dict.get?_update_of_mem
          · simp only [Dict.keys, List.map_map, Function.comp_def]
            exact w.nodup_ids.sublist (hetape.restants.map _)
          · exact List.mem_map.mpr ⟨node, hrest, rfl⟩
  · next hnot =>
      apply Dict.get?_eq_none
      intro hmem
      exact hnot (hcalcule.connus id hmem)

end Appels

section Derouler

variable {w : WorkflowDefinition} {t : Textes} {tools : Tools} {runId : String}

/-- A call whose tools depend on their parameters only. -/
def appelDe (tools : Tools) (approvedNodes : List String) : Appel where
  tools _ := tools
  approvedNodes := approvedNodes

structure Rend (w : WorkflowDefinition) (t : Textes) (tools : Tools) (approved : List String)
    (l : List (String → Prop)) (record : WorkflowRunRecord) (r : WorkflowRun) : Prop where
  calcule : Calcule w t tools (l ++ w.vagues approved) record.nodeResults
  approuves : record.approvedNodes = approved
  resultats : r.nodeResults = record.nodeResults
  bilan : ToutesOuvertes w approved →
    r.status = overallStatus r.nodeResults [] ∧
      ∀ id, r.nodeResults.get? id = bilan w (evaluation w t tools (l ++ w.vagues approved)) id

theorem poursuivre_exact (runId : String) {debut : Dict String NodeResult}
    {l : List (String → Prop)} (h : Calcule w t tools l debut) (hw : w.Serialisable)
    (htools : tools.Plats) (magasin : Magasin) (approved : List String) :
    ∃ record calls r, poursuivre w t magasin runId (fun _ => tools) debut approved =
        (magasin.set runId record, calls, some r) ∧ Rend w t tools approved l record r := by
  obtain ⟨hok, hexact⟩ := executer_exact (t := t) approved h hw htools
  unfold poursuivre
  rcases hexec : executer w t (fun _ => tools) approved debut with ⟨p, exception⟩
  rw [hexec] at hok hexact
  cases hok
  dsimp only at hexact ⊢
  have hlu := relireResultats_of_fidele hexact.calcule.relus.stables
  simp only [saveRun, hlu]
  refine ⟨_, _, _, rfl, hexact.calcule, rfl, rfl, fun hgates => ⟨?_, hexact.get?_sauter hgates⟩⟩
  rw [hexact.pendingNodes hgates]

structure EnCours (w : WorkflowDefinition) (t : Textes) (tools : Tools) (runId : String)
    (approved : List String) (l : List (String → Prop)) (e : Etat)
    (record : WorkflowRunRecord) : Prop where
  commence : e.commence = true
  stocke : e.magasin.get? runId = some record
  approuves : record.approvedNodes = approved
  calcule : Calcule w t tools l record.nodeResults

theorem encours_premier (runId : String) (hw : w.Serialisable) (htools : tools.Plats)
    (magasin : Magasin) (a : List String) :
    ∃ record, EnCours w t tools runId a (w.vagues a)
      (pas w t runId { magasin := magasin } (appelDe tools a)) record := by
  obtain ⟨record, calls, r, hrun, hrend⟩ :=
    poursuivre_exact (t := t) runId (Calcule.vide (w := w)) hw htools magasin a
  refine ⟨record, ?_⟩
  unfold pas run
  simp only [appelDe, Bool.false_eq_true, if_false, hrun]
  exact ⟨rfl, Dict.get?_set_self _ _ _, hrend.approuves, by simpa using hrend.calcule⟩

theorem EnCours.pas {approved : List String} {l : List (String → Prop)} {e : Etat}
    {record : WorkflowRunRecord} (h : EnCours w t tools runId approved l e record)
    (hw : w.Serialisable) (htools : tools.Plats) (a : List String) :
    ∃ record', EnCours w t tools runId (approved ++ a) (l ++ w.vagues (approved ++ a))
      (Workflows.pas w t runId e (appelDe tools a)) record' := by
  obtain ⟨record', calls, r, hrun, hrend⟩ :=
    poursuivre_exact (t := t) runId h.calcule hw htools e.magasin (approved ++ a)
  refine ⟨record', ?_⟩
  unfold Workflows.pas run
  simp only [appelDe, h.commence, if_true, h.stocke, h.approuves, hrun]
  exact ⟨rfl, Dict.get?_set_self _ _ _, hrend.approuves, hrend.calcule⟩

theorem EnCours.foldl {approved : List String} {l : List (String → Prop)} {e : Etat}
    {record : WorkflowRunRecord} (h : EnCours w t tools runId approved l e record)
    (hw : w.Serialisable) (htools : tools.Plats) (approbations : List (List String)) :
    ∃ record', EnCours w t tools runId (approved ++ approbations.flatten)
      (l ++ w.calendrier approved approbations)
      ((approbations.map (appelDe tools)).foldl (Workflows.pas w t runId) e) record' := by
  induction approbations generalizing approved l e record with
  | nil => exact ⟨record, by simpa [WorkflowDefinition.calendrier] using h⟩
  | cons a approbations ih =>
      obtain ⟨middle, hmiddle⟩ := h.pas hw htools a
      obtain ⟨record', hrest⟩ := ih hmiddle
      refine ⟨record', ?_⟩
      simpa [WorkflowDefinition.calendrier, List.append_assoc] using hrest

/-- The run that the last call of a schedule answers. -/
def derniereExecution (w : WorkflowDefinition) (t : Textes) (tools : Tools) (runId : String)
    (magasin : Magasin) (premieres : List (List String)) (derniere : List String) :
    Option WorkflowRun :=
  let e := derouler w t runId magasin (premieres.map (appelDe tools))
  (run w t e.magasin runId (if e.commence then some runId else none)
    (appelDe tools derniere)).2.2

theorem calendrier_concat (w : WorkflowDefinition) (approved : List String)
    (premieres : List (List String)) (derniere : List String) :
    w.calendrier approved (premieres ++ [derniere]) =
      w.calendrier approved premieres ++
        w.vagues (approved ++ premieres.flatten ++ derniere) := by
  induction premieres generalizing approved with
  | nil => simp [WorkflowDefinition.calendrier]
  | cons a premieres ih =>
      simp only [List.cons_append, WorkflowDefinition.calendrier, ih, List.flatten_cons,
        List.append_assoc]

theorem derniereExecution_eq (runId : String) (hw : w.Serialisable) (htools : tools.Plats)
    (magasin : Magasin) {premieres : List (List String)} {derniere : List String}
    (hgates : ToutesOuvertes w (premieres ++ [derniere]).flatten) :
    ∃ r, derniereExecution w t tools runId magasin premieres derniere = some r ∧
      r.nodeResults.keys.Nodup ∧ r.status = overallStatus r.nodeResults [] ∧
      ∀ id, r.nodeResults.get? id =
        bilan w (evaluation w t tools (w.calendrier [] (premieres ++ [derniere]))) id := by
  have hflat : (premieres ++ [derniere]).flatten = premieres.flatten ++ derniere := by simp
  rw [hflat] at hgates
  rw [calendrier_concat, List.nil_append]
  unfold derniereExecution
  cases premieres with
  | nil =>
      obtain ⟨record, calls, r, hrun, hrend⟩ :=
        poursuivre_exact (t := t) runId (Calcule.vide (w := w)) hw htools magasin derniere
      obtain ⟨hstatus, hbilan⟩ := hrend.bilan hgates
      refine ⟨r, ?_, ?_, hstatus, hbilan⟩
      · show (poursuivre w t magasin runId (fun _ => tools) [] derniere).2.2 = some r
        rw [hrun]
      · rw [hrend.resultats]
        exact hrend.calcule.relus.cles
  | cons a premieres =>
      obtain ⟨first, hfirst⟩ := encours_premier (t := t) runId hw htools magasin a
      obtain ⟨record, hrecord⟩ := hfirst.foldl hw htools premieres
      obtain ⟨record', calls, r, hrun, hrend⟩ :=
        poursuivre_exact (t := t) runId hrecord.calcule hw htools
          (derouler w t runId magasin ((a :: premieres).map (appelDe tools))).magasin
          (a ++ premieres.flatten ++ derniere)
      obtain ⟨hstatus, hbilan⟩ := hrend.bilan hgates
      refine ⟨r, ?_, ?_, hstatus, hbilan⟩
      · have hcommence : (derouler w t runId magasin
            ((a :: premieres).map (appelDe tools))).commence = true := hrecord.commence
        have hstocke : (derouler w t runId magasin
            ((a :: premieres).map (appelDe tools))).magasin.get? runId = some record :=
          hrecord.stocke
        dsimp only
        rw [hcommence, if_pos rfl]
        unfold run
        simp only [hstocke, hrecord.approuves]
        exact congrArg (fun x => x.2.2) hrun
      · rw [hrend.resultats]
        exact hrend.calcule.relus.cles

theorem overallStatus_congr {results results' : Dict String NodeResult}
    (hcles : results.keys.Nodup) (hcles' : results'.keys.Nodup)
    (h : ∀ id, results.get? id = results'.get? id) (pending : List String) :
    overallStatus results pending = overallStatus results' pending := by
  have hmem : ∀ item, item ∈ results ↔ item ∈ results' := by
    intro item
    obtain ⟨id, r⟩ := item
    constructor
    · intro hitem
      exact Dict.mem_of_get? ((h id).symm.trans (Dict.get?_of_mem hcles hitem))
    · intro hitem
      exact Dict.mem_of_get? ((h id).trans (Dict.get?_of_mem hcles' hitem))
  have hstatus : ∀ s, s ∈ results.map (fun item => item.2.status) ↔
      s ∈ results'.map fun item => item.2.status := by
    intro s
    simp only [List.mem_map, hmem]
  have hall : ((results.map fun item => item.2.status).all fun s => s = .success ∨ s = .skipped) =
      (results'.map fun item => item.2.status).all fun s => s = .success ∨ s = .skipped := by
    rw [Bool.eq_iff_iff]
    simp only [List.all_eq_true, hstatus]
  unfold overallStatus
  simp only [hall, hstatus]

theorem mem_calendrier {approved : List String} {approbations : List (List String)}
    {ouvert : String → Prop} (h : ouvert ∈ w.calendrier approved approbations) {n : String}
    (hn : ouvert n) : ∃ node ∈ w.nodes, node.id = n := by
  induction approbations generalizing approved with
  | nil => cases h
  | cons a approbations ih =>
      rcases List.mem_append.mp h with h | h
      · rw [(List.mem_replicate.mp h).2] at hn
        obtain ⟨node, hnode, hid, _⟩ := hn
        exact ⟨node, hnode, hid⟩
      · exact ih h

theorem clos_calendrier {premieres : List (List String)} {derniere : List String}
    (hgates : ToutesOuvertes w (premieres ++ [derniere]).flatten) {n : String}
    (hn : ∃ node ∈ w.nodes, node.id = n)
    (hpreds : ∀ p, w.Precede p n →
      Vagues.atteints w.Precede (w.calendrier [] (premieres ++ [derniere])) p) :
    Vagues.atteints w.Precede (w.calendrier [] (premieres ++ [derniere])) n := by
  have hflat : (premieres ++ [derniere]).flatten = [] ++ premieres.flatten ++ derniere := by simp
  rw [hflat] at hgates
  have hlongueur : w.nodes.length = (w.nodes.map WorkflowNode.id).length := by
    rw [List.length_map]
  rw [calendrier_concat, WorkflowDefinition.vagues, hlongueur] at hpreds ⊢
  obtain ⟨node, hnode, rfl⟩ := hn
  refine Vagues.clos_replicate ?_ _ ⟨node, hnode, rfl, hgates.retenu hnode⟩ hpreds
  rintro n ⟨node, hnode, rfl, _⟩
  exact List.mem_map_of_mem hnode

theorem atteints_calendrier {premieres premieres' : List (List String)}
    {derniere derniere' : List String}
    (hgates : ToutesOuvertes w (premieres ++ [derniere]).flatten) {n : String}
    (h : Vagues.atteints w.Precede (w.calendrier [] (premieres' ++ [derniere'])) n) :
    Vagues.atteints w.Precede (w.calendrier [] (premieres ++ [derniere])) n :=
  Vagues.atteints_of_clos (fun _ ho _ hn => mem_calendrier ho hn)
    (fun _ hn hpreds => clos_calendrier hgates hn hpreds) h

theorem avant_ancetre_iff (premieres premieres' : List (List String))
    (derniere derniere' : List String)
    (hgates : ToutesOuvertes w (premieres ++ [derniere]).flatten)
    (hgates' : ToutesOuvertes w (premieres' ++ [derniere']).flatten) {a n : String}
    (ha : Relation.TransGen w.Precede a n) :
    w.Avant (premieres ++ [derniere]) a n ↔ w.Avant (premieres' ++ [derniere']) a n := by
  have hsame : ∀ m, Vagues.atteints w.Precede (w.calendrier [] (premieres ++ [derniere])) m ↔
      Vagues.atteints w.Precede (w.calendrier [] (premieres' ++ [derniere'])) m := fun m =>
    ⟨atteints_calendrier hgates', atteints_calendrier hgates⟩
  by_cases hn : Vagues.atteints w.Precede (w.calendrier [] (premieres ++ [derniere])) n
  · exact iff_of_true (Vagues.avant_of_transGen ha hn)
      (Vagues.avant_of_transGen ha ((hsame n).mp hn))
  · unfold WorkflowDefinition.Avant
    rw [Vagues.avant_iff_of_not_atteints hn,
      Vagues.avant_iff_of_not_atteints fun h => hn ((hsame n).mpr h), hsame a]

end Derouler

/-- When JSON gives back as they are the values the tools answer, and when splitting the
approvals moves the turn of no node that a placeholder names across the turn of the node that
holds the placeholder: every node ends as in the run where all the gates were approved from the
start, and so does the run. -/
theorem reprises_equivalentes (w : WorkflowDefinition) (t : Textes) (tools : Tools)
    (hw : w.Serialisable) (htools : tools.Plats) (runId runId' : String)
    (magasin magasin' : Magasin) (premieres : List (List String)) (derniere tous : List String)
    (hgates : ToutesOuvertes w (premieres ++ [derniere]).flatten) (htous : ToutesOuvertes w tous)
    (hordre : ∀ node ∈ w.nodes, ∀ a ∈ references node,
      (w.Avant (premieres ++ [derniere]) a node.id ↔ w.Avant [tous] a node.id)) :
    ∃ r r', derniereExecution w t tools runId magasin premieres derniere = some r ∧
      derniereExecution w t tools runId' magasin' [] tous = some r' ∧
      (∀ id, r.nodeResults.get? id = r'.nodeResults.get? id) ∧ r.status = r'.status := by
  have htous' : ToutesOuvertes w ([] ++ [tous]).flatten := by simpa using htous
  obtain ⟨r, hr, hcles, hstatus, hbilan⟩ :=
    derniereExecution_eq (t := t) runId hw htools magasin hgates
  obtain ⟨r', hr', hcles', hstatus', hbilan'⟩ :=
    derniereExecution_eq (t := t) runId' hw htools magasin' htous'
  have hmarche : evaluation w t tools (w.calendrier [] (premieres ++ [derniere])) =
      evaluation w t tools (w.calendrier [] ([] ++ [tous])) := by
    refine Vagues.marche_insensible (local_issue w t tools) (fun n => ?_) ?_
    · exact ⟨atteints_calendrier htous', atteints_calendrier hgates⟩
    · rintro n a ⟨node, hnode, rfl, ha⟩
      exact hordre node hnode a ha
  have hsame : ∀ id, r.nodeResults.get? id = r'.nodeResults.get? id := fun id => by
    rw [hbilan, hbilan', hmarche]
  refine ⟨r, r', hr, hr', hsame, ?_⟩
  rw [hstatus, hstatus']
  exact overallStatus_congr hcles hcles' hsame []

/-- `b` waits for `c` only, and reads the result of `a`, which waits for an approval. -/
def lectureHorsChemin : WorkflowDefinition where
  id := "w"
  nodes :=
    [{ id := "a", action := "f", params := [], humanValidation := true },
      { id := "b", action := "f", params := [("x", .texte "$steps.a.k")],
        humanValidation := false },
      { id := "c", action := "f", params := [], humanValidation := false }]
  edges := [{ fromNode := "c", toNode := "b" }]
  valide := rfl

/-- `b` reads the result of its predecessor `a`, which waits for an approval. -/
def lectureDuPredecesseur : WorkflowDefinition where
  id := "w"
  nodes :=
    [{ id := "a", action := "f", params := [], humanValidation := true },
      { id := "b", action := "f", params := [("x", .texte "$steps.a.k")],
        humanValidation := false }]
  edges := [{ fromNode := "a", toNode := "b" }]
  valide := rfl

def outilK : Tools := fun _ => some fun _ => .rendu (.dict [(.texte "k", .texte "v")])

def statutDe (id : String) (r : Option WorkflowRun) : Option Status :=
  (r.bind fun r => r.nodeResults.get? id).map NodeResult.status

theorem reprises_equivalentes_lectureDuPredecesseur :
    ∃ r r', derniereExecution lectureDuPredecesseur textesBruts outilK "r" [] [[]] ["a"] = some r ∧
      derniereExecution lectureDuPredecesseur textesBruts outilK "s" [] [] ["a"] = some r' ∧
      (∀ id, r.nodeResults.get? id = r'.nodeResults.get? id) ∧ r.status = r'.status := by
  have htous : ToutesOuvertes lectureDuPredecesseur ["a"] := by
    intro node hnode hgate
    fin_cases hnode
    · exact List.mem_cons_self
    · cases hgate
  refine reprises_equivalentes _ textesBruts outilK ?_ ?_ "r" "s" [] [] [[]] ["a"] ["a"] htous
    htous ?_
  · intro node hnode item hitem
    fin_cases hnode
    · cases hitem
    · rw [List.mem_singleton.mp hitem]
      rfl
  · intro action tool params htool
    cases htool
    rfl
  · intro node hnode a ha
    fin_cases hnode
    · cases ha
    · have hreference : lectureDuPredecesseur.nodes.map references = [[], ["a"]] := by decide
      obtain ⟨_, hb⟩ := List.cons.inj hreference
      rw [List.head_eq_of_cons_eq hb] at ha
      rw [List.mem_singleton.mp ha]
      have hentrees : lectureDuPredecesseur.incomingEdges "b" =
          [{ fromNode := "a", toNode := "b" }] := by decide
      have hprecede : lectureDuPredecesseur.Precede "a" "b" :=
        ⟨{ fromNode := "a", toNode := "b" }, by rw [hentrees]; exact List.mem_cons_self, rfl⟩
      exact avant_ancetre_iff [[]] [] ["a"] ["a"] htous htous (.single hprecede)

/-- Approved from the start, `a` ends before `b` reads it; approved later, `b` has failed. -/
theorem lecture_hors_chemin :
    statutDe "b" (derniereExecution lectureHorsChemin textesBruts outilK "r" [] [[]] ["a"]) =
        some .failed ∧
      statutDe "b" (derniereExecution lectureHorsChemin textesBruts outilK "r" [] [] ["a"]) =
        some .success := by
  decide

end Hermes.Workflows
