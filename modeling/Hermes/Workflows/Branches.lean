import Hermes.Workflows.Acyclique
import Hermes.Workflows.Resume

/-! # The branches that are not taken

At the end of a run nothing more is ready, and what is left is skipped. A node whose predecessors
are all done is skipped when no edge into it is live.
-/

namespace Hermes.Workflows

open Lib

/-- The source was executed, and the condition holds for its outcome. -/
def Vivante (results : Dict String NodeResult) (e : WorkflowEdge) : Prop :=
  Fini results e.fromNode ∧ edgeSatisfied e results = true

def Saute (results : Dict String NodeResult) (id : String) : Prop :=
  ∃ r, results.get? id = some r ∧ r.status = .skipped

/-- A node that edges lead to is skipped when none of them is live, and runs when one is. -/
structure Loi (w : WorkflowDefinition) (results : Dict String NodeResult) : Prop where
  saute_iff : ∀ node ∈ w.nodes, w.incomingEdges node.id ≠ [] →
    (Saute results node.id ↔ ∀ e ∈ w.incomingEdges node.id, ¬ Vivante results e)
  execute : ∀ node ∈ w.nodes, (∃ e ∈ w.incomingEdges node.id, Vivante results e) →
    Fini results node.id

/-- A node that waits, and that nothing will reach: each edge into it comes from a done node whose
outcome refuses it, or from a dead node. -/
inductive Mort (w : WorkflowDefinition) (p : Parcours) : String → Prop
  | mk {node : WorkflowNode} (restant : node ∈ p.remaining)
      (entree : w.incomingEdges node.id ≠ [])
      (refusees : ∀ e ∈ w.incomingEdges node.id, e.fromNode ∈ p.done →
        edgeSatisfied e p.results = false)
      (mortes : ∀ e ∈ w.incomingEdges node.id, e.fromNode ∉ p.done → Mort w p e.fromNode) :
      Mort w p node.id

/-- A node that waits on a dead branch while another branch has reached it. -/
def JonctionMorte (w : WorkflowDefinition) (p : Parcours) : Prop :=
  ∃ node ∈ p.remaining,
    (∃ e ∈ w.incomingEdges node.id, e.fromNode ∈ p.done ∧ edgeSatisfied e p.results = true) ∧
      ∃ e ∈ w.incomingEdges node.id, Mort w p e.fromNode

/-- What the loop keeps: its nodes are done, gated or waiting, and a done node that edges lead to
had all their sources done and one of them satisfied. -/
structure Tenue (w : WorkflowDefinition) (p : Parcours) : Prop where
  restants : p.remaining.Sublist w.nodes
  libres : ∀ node ∈ p.remaining, node.id ∉ p.done
  cles : p.results.keys.Nodup
  finis : ∀ id, id ∈ p.done ↔ Fini p.results id
  partage : ∀ node ∈ w.nodes,
    node.id ∈ p.done ∨ node.id ∈ p.pendingNodes ∨ node ∈ p.remaining
  justes : ∀ node ∈ w.nodes, node.id ∈ p.done → w.incomingEdges node.id = [] ∨
    ((∀ e ∈ w.incomingEdges node.id, e.fromNode ∈ p.done) ∧
      ∃ e ∈ w.incomingEdges node.id, edgeSatisfied e p.results = true)

section Tour

variable {w : WorkflowDefinition} {t : Textes} {tools : String → Tools} {approved : List String}
  {ready : List WorkflowNode} {p p' : Parcours} {results : Dict String NodeResult}

theorem executeWave_eq_ok {nodes : List WorkflowNode} {calls : List Invocation}
    {wave : Dict String NodeResult} (h : executeWave t tools results nodes = (calls, .ok wave)) :
    calls = appelsDe t tools results nodes ∧
      wave = nodes.map fun node => (node.id, resultat t tools results node) := by
  match nodes with
  | [] =>
      cases h
      exact ⟨rfl, rfl⟩
  | [node] =>
      simp only [executeWave, Prod.mk.injEq] at h
      refine ⟨h.1.symm, ?_⟩
      obtain ⟨r, hr, hwave⟩ := except_map_eq_ok.mp h.2
      simp only [← hwave, List.map_cons, List.map_nil, resultat, hr, recueillir]
  | _ :: _ :: _ =>
      cases h
      exact ⟨rfl, rfl⟩

theorem tour_eq_ok (h : tour t tools approved ready p = (p', none)) :
    p' = apresTour t tools approved ready p := by
  unfold tour at h
  dsimp only at h
  split at h
  · cases h
  · next calls wave hwave =>
      obtain ⟨hcalls, hresults⟩ := executeWave_eq_ok hwave
      cases h
      rw [hcalls, hresults]
      rfl

theorem Tenue.libre (h : Tenue w p) (hv : Vague w p ready) {id : String} (hid : id ∈ p.done) :
    id ∉ ready.map WorkflowNode.id := by
  intro hmem
  obtain ⟨node, hnode, rfl⟩ := List.mem_map.mp hmem
  exact h.libres node (hv.prets node hnode).1 hid

theorem edgeSatisfied_congr {results' : Dict String NodeResult} {e : WorkflowEdge}
    (h : results'.get? e.fromNode = results.get? e.fromNode) :
    edgeSatisfied e results' = edgeSatisfied e results := by
  unfold edgeSatisfied
  rw [h]

theorem Tenue.edgeSatisfied_apresTour (h : Tenue w p) (hv : Vague w p ready) {e : WorkflowEdge}
    (hdone : e.fromNode ∈ p.done) :
    edgeSatisfied e (apresTour t tools approved ready p).results = edgeSatisfied e p.results :=
  edgeSatisfied_congr (get?_apresTour (h.libre hv hdone))

theorem estPret_iff {done : List String} {node : WorkflowNode} :
    estPret w done results node = true ↔ w.incomingEdges node.id = [] ∨
      ((∀ e ∈ w.incomingEdges node.id, e.fromNode ∈ done) ∧
        ∃ e ∈ w.incomingEdges node.id, edgeSatisfied e results = true) := by
  simp [estPret, List.isEmpty_iff]

theorem mem_done_apresTour {id : String} :
    id ∈ (apresTour t tools approved ready p).done ↔
      id ∈ p.done ∨ id ∈ (ouverts approved ready).map WorkflowNode.id := List.mem_append

theorem Tenue.tour (h : Tenue w p) (hv : Vague w p ready) :
    Tenue w (apresTour t tools approved ready p) := by
  have hlibres : ∀ node ∈ ready, ¬ Fini p.results node.id := fun node hnode hfini =>
    h.libres node (hv.prets node hnode).1 ((h.finis _).mpr hfini)
  have hfini := @fini_apresTour t tools approved p ready hlibres hv.uniques
  refine ⟨List.filter_sublist.trans h.restants, ?_, ?_, ?_, ?_, ?_⟩
  · intro node hnode hdone
    obtain ⟨hrest, hnot⟩ := List.mem_filter.mp hnode
    cases mem_done_apresTour.mp hdone with
    | inl hdone => exact h.libres node hrest hdone
    | inr hdone =>
        obtain ⟨other, hother, hid⟩ := List.mem_map.mp hdone
        rw [← hid] at hnot
        simp [List.mem_map_of_mem (mem_ouverts.mp hother).1] at hnot
  · exact Dict.nodup_keys_update (Dict.nodup_keys_update h.cles _) _
  · intro id
    rw [hfini id, ← h.finis id]
    exact mem_done_apresTour
  · intro node hnode
    cases h.partage node hnode with
    | inl hdone => exact .inl (mem_done_apresTour.mpr (.inl hdone))
    | inr hreste =>
        cases hreste with
        | inl hpending => exact .inr (.inl (List.mem_append_left _ hpending))
        | inr hreste =>
            by_cases hready : node.id ∈ ready.map WorkflowNode.id
            · obtain ⟨other, hother, hid⟩ := List.mem_map.mp hready
              cases hretenu : retenu approved other with
              | true =>
                  refine .inr (.inl (List.mem_append_right _ ?_))
                  exact List.mem_map.mpr ⟨other, List.mem_filter.mpr ⟨hother, hretenu⟩, hid⟩
              | false =>
                  refine .inl (mem_done_apresTour.mpr (.inr ?_))
                  exact List.mem_map.mpr ⟨other, mem_ouverts.mpr ⟨hother, hretenu⟩, hid⟩
            · exact .inr (.inr (List.mem_filter.mpr ⟨hreste, by simpa using hready⟩))
  · intro node hnode hdone
    have htransport : (∀ e ∈ w.incomingEdges node.id, e.fromNode ∈ p.done) ∧
        (∃ e ∈ w.incomingEdges node.id, edgeSatisfied e p.results = true) →
        (∀ e ∈ w.incomingEdges node.id, e.fromNode ∈ (apresTour t tools approved ready p).done) ∧
        ∃ e ∈ w.incomingEdges node.id,
          edgeSatisfied e (apresTour t tools approved ready p).results = true := by
      intro hjuste
      obtain ⟨hsources, e, he, hsat⟩ := hjuste
      refine ⟨fun e he => mem_done_apresTour.mpr (.inl (hsources e he)), e, he, ?_⟩
      rw [h.edgeSatisfied_apresTour hv (hsources e he)]
      exact hsat
    cases mem_done_apresTour.mp hdone with
    | inl hdone => exact (h.justes node hnode hdone).imp_right htransport
    | inr hdone =>
        obtain ⟨other, hother, hid⟩ := List.mem_map.mp hdone
        have hpret := (hv.prets other (mem_ouverts.mp hother).1).2
        rw [estPret_iff, hid] at hpret
        exact hpret.imp_right htransport

theorem Mort.entree_refusee {id : String} (h : Mort w p id) :
    ∃ node ∈ p.remaining, node.id = id := by
  cases h with
  | mk restant _ _ _ => exact ⟨_, restant, rfl⟩

theorem Mort.pas_pret {node : WorkflowNode} (h : Mort w p node.id) :
    estPret w p.done p.results node = false := by
  rw [← Bool.not_eq_true, estPret_iff]
  generalize hid : node.id = id at h ⊢
  cases h with
  | mk restant entree refusees mortes =>
      intro hpret
      cases hpret with
      | inl hvide => exact entree hvide
      | inr hsources =>
          obtain ⟨hdone, e, he, hsat⟩ := hsources
          rw [refusees e he (hdone e he)] at hsat
          cases hsat

theorem Mort.tour (ht : Tenue w p) (hv : Vague w p ready) {id : String} (h : Mort w p id) :
    Mort w (apresTour t tools approved ready p) id := by
  have htenue := @Tenue.tour w t tools approved ready p ht hv
  induction h with
  | @mk node restant entree refusees mortes ih =>
      have hmort : Mort w p node.id := .mk restant entree refusees mortes
      have hready : node.id ∉ ready.map WorkflowNode.id := by
        intro hmem
        obtain ⟨other, hother, hid⟩ := List.mem_map.mp hmem
        have hpret := (hv.prets other hother).2
        rw [← hid] at hmort
        rw [hmort.pas_pret] at hpret
        cases hpret
      refine .mk (List.mem_filter.mpr ⟨restant, by simpa using hready⟩) entree ?_ ?_
      · intro e he hdone
        by_cases hold : e.fromNode ∈ p.done
        · rw [ht.edgeSatisfied_apresTour hv hold]
          exact refusees e he hold
        · -- a dead source does not turn out to be done
          exfalso
          obtain ⟨source, hsource, hid⟩ := (ih e he hold).entree_refusee
          exact htenue.libres source hsource (hid ▸ hdone)
      · intro e he hdone
        exact ih e he fun hold => hdone (mem_done_apresTour.mpr (.inl hold))

theorem JonctionMorte.tour (ht : Tenue w p) (hv : Vague w p ready) (h : JonctionMorte w p) :
    JonctionMorte w (apresTour t tools approved ready p) := by
  obtain ⟨node, hnode, ⟨vive, hvive, hdone, hsat⟩, morte, hmorte, hmort⟩ := h
  have hlibre : morte.fromNode ∉ p.done := by
    obtain ⟨source, hsource, hid⟩ := hmort.entree_refusee
    rw [← hid]
    exact ht.libres source hsource
  have hready : node.id ∉ ready.map WorkflowNode.id := by
    intro hmem
    obtain ⟨other, hother, hid⟩ := List.mem_map.mp hmem
    have hpret := estPret_iff.mp (hv.prets other hother).2
    rw [hid] at hpret
    cases hpret with
    | inl hvide =>
        rw [hvide] at hvive
        cases hvive
    | inr hsources => exact hlibre (hsources.1 morte hmorte)
  refine ⟨node, List.mem_filter.mpr ⟨hnode, by simpa using hready⟩,
    ⟨vive, hvive, mem_done_apresTour.mpr (.inl hdone), ?_⟩, morte, hmorte, hmort.tour ht hv⟩
  rw [ht.edgeSatisfied_apresTour hv hdone]
  exact hsat

end Tour

section Boucle

variable {w : WorkflowDefinition} {t : Textes} {tools : String → Tools} {approved : List String}
  {p p' : Parcours}

theorem tour_of_boucle {node : WorkflowNode} {ready : List WorkflowNode} {n : Nat}
    (hready : readyNodes w p.done p.results p.remaining = node :: ready)
    (hok : (boucle w t tools approved (n + 1) p).2 = none) :
    tour t tools approved (node :: ready) p
      = (apresTour t tools approved (node :: ready) p, none) := by
  rw [boucle, hready] at hok
  dsimp only at hok
  split at hok
  · cases hok
  · next p' htour => rw [htour, tour_eq_ok htour]

theorem boucle_pas {node : WorkflowNode} {ready : List WorkflowNode}
    (hready : readyNodes w p.done p.results p.remaining = node :: ready)
    (htour : tour t tools approved (node :: ready) p
      = (apresTour t tools approved (node :: ready) p, none)) (n : Nat) :
    boucle w t tools approved (n + 1) p
      = boucle w t tools approved n (apresTour t tools approved (node :: ready) p) := by
  rw [boucle, hready]
  dsimp only
  rw [htour]

theorem boucle_arret (hready : readyNodes w p.done p.results p.remaining = []) (n : Nat) :
    boucle w t tools approved n p = (p, none) := by
  cases n with
  | zero => rfl
  | succ n => rw [boucle, hready]

theorem Tenue.vague (h : Tenue w p) {node : WorkflowNode} {ready : List WorkflowNode}
    (hready : readyNodes w p.done p.results p.remaining = node :: ready) :
    Vague w p (node :: ready) := hready ▸ Vague.readyNodes h.restants

theorem Tenue.boucle {n : Nat} (h : Tenue w p) (hok : (boucle w t tools approved n p).2 = none) :
    Tenue w (boucle w t tools approved n p).1 := by
  induction n generalizing p with
  | zero => exact h
  | succ n ih =>
      cases hready : readyNodes w p.done p.results p.remaining with
      | nil =>
          rw [boucle_arret hready]
          exact h
      | cons node ready =>
          have hpas := boucle_pas hready (tour_of_boucle hready hok) n
          rw [hpas] at hok ⊢
          exact ih (h.tour (h.vague hready)) hok

theorem JonctionMorte.boucle {n : Nat} (ht : Tenue w p) (hj : JonctionMorte w p)
    (hok : (boucle w t tools approved n p).2 = none) :
    JonctionMorte w (boucle w t tools approved n p).1 := by
  induction n generalizing p with
  | zero => exact hj
  | succ n ih =>
      cases hready : readyNodes w p.done p.results p.remaining with
      | nil =>
          rw [boucle_arret hready]
          exact hj
      | cons node ready =>
          have hpas := boucle_pas hready (tour_of_boucle hready hok) n
          rw [hpas] at hok ⊢
          have hv := ht.vague hready
          exact ih (ht.tour hv) (hj.tour ht hv) hok

theorem jonction_fin {k n : Nat} (ht : Tenue w p) (hkn : k ≤ n)
    (hok : (boucle w t tools approved n p).2 = none)
    (hj : JonctionMorte w (boucle w t tools approved k p).1) :
    JonctionMorte w (boucle w t tools approved n p).1 := by
  induction k generalizing n p with
  | zero => exact hj.boucle ht hok
  | succ k ih =>
      obtain ⟨m, rfl⟩ : ∃ m, n = m + 1 := ⟨n - 1, by omega⟩
      cases hready : readyNodes w p.done p.results p.remaining with
      | nil =>
          rw [boucle_arret hready] at hj ⊢
          exact hj
      | cons node ready =>
          have htour := tour_of_boucle hready hok
          rw [boucle_pas hready htour] at hok hj ⊢
          exact ih (ht.tour (ht.vague hready)) (by omega) hok hj

theorem boucle_fin {n : Nat} (hn : p.remaining.length ≤ n)
    (hok : (boucle w t tools approved n p).2 = none) :
    readyNodes w (boucle w t tools approved n p).1.done (boucle w t tools approved n p).1.results
      (boucle w t tools approved n p).1.remaining = [] := by
  induction n generalizing p with
  | zero =>
      have hvide : p.remaining = [] := List.length_eq_zero_iff.mp (Nat.le_zero.mp hn)
      simp [boucle, hvide, readyNodes]
  | succ n ih =>
      cases hready : readyNodes w p.done p.results p.remaining with
      | nil =>
          rw [boucle_arret hready]
          exact hready
      | cons node ready =>
          have hpas := boucle_pas hready (tour_of_boucle hready hok) n
          rw [hpas] at hok ⊢
          refine ih ?_ hok
          have hmem : node ∈ p.remaining := (mem_readyNodes.mp (hready ▸ List.mem_cons_self)).1
          have hreste : (apresTour t tools approved (node :: ready) p).remaining.length
              < p.remaining.length :=
            List.length_filter_lt_length_iff_exists.mpr ⟨node, hmem, by simp⟩
          omega

end Boucle

section Fin

variable {w : WorkflowDefinition} {p : Parcours}

theorem mort_of_restant (ht : Tenue w p) (hpending : p.pendingNodes = [])
    (hfin : readyNodes w p.done p.results p.remaining = []) (hj : ¬ JonctionMorte w p) :
    ∀ node ∈ p.remaining, Mort w p node.id := by
  obtain ⟨rang, hrang⟩ := w.exists_rang
  intro node hnode
  generalize hr : rang node.id = r
  induction r using Nat.strong_induction_on generalizing node with
  | _ r ih =>
      have hpret : estPret w p.done p.results node ≠ true := by
        intro hpret
        have hmem := mem_readyNodes.mpr ⟨hnode, hpret⟩
        rw [hfin] at hmem
        cases hmem
      rw [ne_eq, estPret_iff, not_or] at hpret
      -- the sources that are not done wait, and are dead by induction on the rank
      have hmortes : ∀ e ∈ w.incomingEdges node.id, e.fromNode ∉ p.done →
          Mort w p e.fromNode := by
        intro e he hdone
        have hedge := List.mem_filter.mp he
        obtain ⟨source, hsource, hid⟩ := List.mem_map.mp (w.edges_connues e hedge.1).1
        have hlt := hrang e hedge.1
        have hto : e.toNode = node.id := by simpa using hedge.2
        rw [hto, hr] at hlt
        cases ht.partage source hsource with
        | inl hd => exact absurd (hid ▸ hd) hdone
        | inr hreste =>
            rw [hpending] at hreste
            cases hreste with
            | inl hnil => cases hnil
            | inr hreste =>
                rw [← hid]
                exact ih (rang source.id) (hid ▸ hlt) source hreste rfl
      refine .mk hnode hpret.1 (fun e he hdone => ?_) hmortes
      -- a satisfied edge leaves a source that is not done, hence a dead junction
      by_contra hsat
      rw [Bool.not_eq_false] at hsat
      have hattend : ¬ ∀ e ∈ w.incomingEdges node.id, e.fromNode ∈ p.done :=
        fun hall => hpret.2 ⟨hall, e, he, hsat⟩
      push Not at hattend
      obtain ⟨morte, hmorte, hlibre⟩ := hattend
      exact hj ⟨node, hnode, ⟨e, he, hdone, hsat⟩, morte, hmorte, hmortes morte hmorte hlibre⟩

theorem get?_sauter_of_mem (ht : Tenue w p) {node : WorkflowNode} (hnode : node ∈ p.remaining) :
    (sauter p).get? node.id = some { nodeId := node.id, status := .skipped } := by
  apply Dict.get?_update_of_mem
  · simp only [Dict.keys, List.map_map, Function.comp_def]
    exact w.nodup_ids.sublist (ht.restants.map _)
  · exact List.mem_map.mpr ⟨node, hnode, rfl⟩

theorem Tenue.get?_sauter (ht : Tenue w p) {id : String} (hid : id ∈ p.done) :
    (sauter p).get? id = p.results.get? id := by
  apply get?_sauter_of_notMem
  intro hmem
  obtain ⟨node, hnode, rfl⟩ := List.mem_map.mp hmem
  exact ht.libres node hnode hid

theorem Tenue.fini_sauter (ht : Tenue w p) (hpending : p.pendingNodes = []) {node : WorkflowNode}
    (hnode : node ∈ w.nodes) : Fini (sauter p) node.id ↔ node.id ∈ p.done := by
  constructor
  · intro hfini
    cases ht.partage node hnode with
    | inl hdone => exact hdone
    | inr hreste =>
        rw [hpending] at hreste
        cases hreste with
        | inl hnil => cases hnil
        | inr hreste =>
            obtain ⟨r, hr, hterm⟩ := hfini
            rw [get?_sauter_of_mem ht hreste] at hr
            cases hr
            cases hterm
  · intro hdone
    obtain ⟨r, hr, hterm⟩ := (ht.finis _).mp hdone
    exact ⟨r, (ht.get?_sauter hdone).trans hr, hterm⟩

theorem Tenue.vivante_sauter (ht : Tenue w p) (hpending : p.pendingNodes = []) {id : String}
    {e : WorkflowEdge} (he : e ∈ w.incomingEdges id) :
    Vivante (sauter p) e ↔ e.fromNode ∈ p.done ∧ edgeSatisfied e p.results = true := by
  obtain ⟨source, hsource, hid⟩ :=
    List.mem_map.mp (w.edges_connues e (List.mem_filter.mp he).1).1
  have hfini : Fini (sauter p) e.fromNode ↔ e.fromNode ∈ p.done := by
    rw [← hid]
    exact ht.fini_sauter hpending hsource
  rw [Vivante, hfini]
  refine and_congr_right fun hdone => ?_
  rw [edgeSatisfied_congr (ht.get?_sauter hdone)]

theorem Mort.sans_vivante (ht : Tenue w p) (hpending : p.pendingNodes = []) {node : WorkflowNode}
    (h : Mort w p node.id) : ∀ e ∈ w.incomingEdges node.id, ¬ Vivante (sauter p) e := by
  generalize hid : node.id = id at h ⊢
  cases h with
  | mk restant entree refusees mortes =>
      intro e he hvive
      have hsource := (ht.vivante_sauter hpending he).mp hvive
      rw [refusees e he hsource.1] at hsource
      cases hsource.2

theorem loi_sauter_iff (ht : Tenue w p) (hpending : p.pendingNodes = [])
    (hfin : readyNodes w p.done p.results p.remaining = []) :
    Loi w (sauter p) ↔ ¬ JonctionMorte w p := by
  constructor
  · intro hloi hj
    obtain ⟨node, hnode, ⟨e, he, hdone, hsat⟩, -⟩ := hj
    have hfini := hloi.execute node (ht.restants.subset hnode)
      ⟨e, he, (ht.vivante_sauter hpending he).mpr ⟨hdone, hsat⟩⟩
    exact ht.libres node hnode
      ((ht.fini_sauter hpending (ht.restants.subset hnode)).mp hfini)
  · intro hj
    have hmort := mort_of_restant ht hpending hfin hj
    have hissue : ∀ node ∈ w.nodes, node.id ∈ p.done ∨ node ∈ p.remaining := by
      intro node hnode
      have hpartage := ht.partage node hnode
      rw [hpending] at hpartage
      simpa using hpartage
    refine ⟨fun node hnode hentree => ?_, fun node hnode hvive => ?_⟩
    · cases hissue node hnode with
      | inl hdone =>
          obtain ⟨r, hr, hterm⟩ := (ht.fini_sauter hpending hnode).mpr hdone
          have hsaute : ¬ Saute (sauter p) node.id := by
            intro hsaute
            obtain ⟨r', hr', hskipped⟩ := hsaute
            rw [hr] at hr'
            cases hr'
            rw [hskipped] at hterm
            cases hterm
          cases ht.justes node hnode hdone with
          | inl hvide => exact absurd hvide hentree
          | inr hjuste =>
              obtain ⟨hsources, e, he, hsat⟩ := hjuste
              refine iff_of_false hsaute fun hall => ?_
              exact hall e he ((ht.vivante_sauter hpending he).mpr ⟨hsources e he, hsat⟩)
      | inr hreste =>
          exact iff_of_true ⟨_, get?_sauter_of_mem ht hreste, rfl⟩
            ((hmort node hreste).sans_vivante ht hpending)
    · cases hissue node hnode with
      | inl hdone => exact (ht.fini_sauter hpending hnode).mpr hdone
      | inr hreste =>
          obtain ⟨e, he, hvive⟩ := hvive
          exact absurd hvive ((hmort node hreste).sans_vivante ht hpending e he)

end Fin

/-- Results that a call can start from: what is done in them had its sources done and an edge
satisfied. -/
structure Fonde (w : WorkflowDefinition) (results : Dict String NodeResult) : Prop where
  cles : results.keys.Nodup
  justes : ∀ node ∈ w.nodes, Fini results node.id → w.incomingEdges node.id = [] ∨
    ((∀ e ∈ w.incomingEdges node.id, Fini results e.fromNode) ∧
      ∃ e ∈ w.incomingEdges node.id, edgeSatisfied e results = true)

def initial (w : WorkflowDefinition) (results : Dict String NodeResult) : Parcours where
  results := results
  done := faits results
  pendingNodes := []
  remaining := w.nodes.filter fun node => node.id ∉ faits results
  invocations := []

section Appels

variable {w : WorkflowDefinition} {t : Textes} {tools : String → Tools} {approved : List String}
  {results : Dict String NodeResult} {p : Parcours}

theorem Fonde.vide (w : WorkflowDefinition) : Fonde w [] where
  cles := List.nodup_nil
  justes _ _ hfini := by
    obtain ⟨r, hr, -⟩ := hfini
    cases hr

theorem Fonde.initial (h : Fonde w results) : Tenue w (initial w results) where
  restants := List.filter_sublist
  libres node hnode := by simpa [Workflows.initial] using (List.mem_filter.mp hnode).2
  cles := h.cles
  finis _ := mem_faits h.cles
  partage node hnode := by
    by_cases hdone : node.id ∈ faits results
    · exact .inl hdone
    · exact .inr (.inr (List.mem_filter.mpr ⟨hnode, by simpa using hdone⟩))
  justes node hnode hdone := by
    have hfait : ∀ id, id ∈ faits results ↔ Fini results id := fun _ => mem_faits h.cles
    refine (h.justes node hnode ((hfait _).mp hdone)).imp_right fun hjuste => ?_
    exact ⟨fun e he => (hfait _).mpr (hjuste.1 e he), hjuste.2⟩

theorem Tenue.fonde_sauter (ht : Tenue w p) : Fonde w (sauter p) := by
  have hfini : ∀ id, id ∈ p.done → Fini (sauter p) id := by
    intro id hdone
    obtain ⟨r, hr, hterm⟩ := (ht.finis id).mp hdone
    exact ⟨r, (ht.get?_sauter hdone).trans hr, hterm⟩
  refine ⟨Dict.nodup_keys_update ht.cles _, fun node hnode hf => ?_⟩
  have hdone : node.id ∈ p.done := by
    by_cases hreste : node.id ∈ p.remaining.map WorkflowNode.id
    · obtain ⟨other, hother, hid⟩ := List.mem_map.mp hreste
      obtain ⟨r, hr, hterm⟩ := hf
      rw [← hid, get?_sauter_of_mem ht hother] at hr
      cases hr
      cases hterm
    · obtain ⟨r, hr, hterm⟩ := hf
      rw [get?_sauter_of_notMem hreste] at hr
      exact (ht.finis _).mpr ⟨r, hr, hterm⟩
  refine (ht.justes node hnode hdone).imp_right fun hjuste => ?_
  obtain ⟨hsources, e, he, hsat⟩ := hjuste
  refine ⟨fun e he => hfini _ (hsources e he), e, he, ?_⟩
  rw [edgeSatisfied_congr (ht.get?_sauter (hsources e he))]
  exact hsat

theorem status_relire {lus : Dict String NodeResult} (h : relireResultats results = some lus)
    (id : String) :
    (lus.get? id).map NodeResult.status = (results.get? id).map NodeResult.status := by
  have hkeys : (lus.get? id).isSome = true ↔ (results.get? id).isSome = true := by
    rw [Dict.isSome_get?, Dict.isSome_get?, keys_relireResultats h]
  have hget := get?_relireResultats h id
  cases hr : results.get? id with
  | none =>
      rw [hr] at hget
      rw [hget]
      rfl
  | some r =>
      rw [hr, Option.bind_some] at hget
      rw [hr, hget] at hkeys
      obtain ⟨r', hr'⟩ := Option.isSome_iff_exists.mp (hkeys.mpr rfl)
      obtain ⟨v, -, hv⟩ := Option.map_eq_some_iff.mp hr'
      rw [hget, hr', ← hv]
      rfl

theorem fini_congr {lus : Dict String NodeResult} {id : String}
    (h : (lus.get? id).map NodeResult.status = (results.get? id).map NodeResult.status) :
    Fini lus id ↔ Fini results id := by
  have hfini : ∀ d : Dict String NodeResult, Fini d id ↔
      ∃ s ∈ (d.get? id).map NodeResult.status, terminal s = true := by
    intro d
    cases hd : d.get? id <;> simp [Fini, hd]
  rw [hfini, hfini, h]

theorem edgeSatisfied_status {lus : Dict String NodeResult} {e : WorkflowEdge}
    (h : (lus.get? e.fromNode).map NodeResult.status
      = (results.get? e.fromNode).map NodeResult.status) :
    edgeSatisfied e lus = edgeSatisfied e results := by
  have hany : ∀ (d : Dict String NodeResult) (s : Status),
      ((d.get? e.fromNode).any fun r => r.status = s)
        = ((d.get? e.fromNode).map NodeResult.status).any fun s' => s' = s := by
    intro d s
    cases d.get? e.fromNode <;> rfl
  unfold edgeSatisfied
  simp only [hany, h]

theorem Fonde.relire {lus : Dict String NodeResult} (h : Fonde w results)
    (hlus : relireResultats results = some lus) : Fonde w lus := by
  have hstatus := status_relire hlus
  refine ⟨by rw [keys_relireResultats hlus]; exact h.cles, fun node hnode hfini => ?_⟩
  refine (h.justes node hnode ((fini_congr (hstatus _)).mp hfini)).imp_right fun hjuste => ?_
  obtain ⟨hsources, e, he, hsat⟩ := hjuste
  refine ⟨fun e he => (fini_congr (hstatus _)).mpr (hsources e he), e, he, ?_⟩
  rw [edgeSatisfied_status (hstatus _)]
  exact hsat

theorem poursuivre_fonde (magasin : Magasin) (runId : String) (h : Fonde w results)
    (hmagasin : ∀ record, magasin.get? runId = some record → Fonde w record.nodeResults) :
    ∀ record, (poursuivre w t magasin runId tools results approved).1.get? runId = some record →
      Fonde w record.nodeResults := by
  intro record hrecord
  unfold poursuivre at hrecord
  split at hrecord
  · exact hmagasin record hrecord
  · next p hexec =>
      have hboucle : boucle w t tools approved w.nodes.length (initial w results) = (p, none) := hexec
      have ht := h.initial.boucle (by rw [hboucle])
      rw [hboucle] at ht
      dsimp only at hrecord
      unfold saveRun at hrecord
      cases hlus : relireResultats (sauter p) with
      | none =>
          simp only [hlus, Option.map_none] at hrecord
          exact hmagasin record hrecord
      | some lus =>
          simp only [hlus, Option.map_some, Dict.get?_set_self, Option.some.injEq] at hrecord
          rw [← hrecord]
          exact ht.fonde_sauter.relire hlus

theorem run_fonde {e : Etat} {runId : String} {a : Appel}
    (hmagasin : ∀ record, e.magasin.get? runId = some record → Fonde w record.nodeResults) :
    ∀ record, (pas w t runId e a).magasin.get? runId = some record → Fonde w record.nodeResults := by
  intro record hrecord
  unfold pas run at hrecord
  cases hcommence : e.commence with
  | false =>
      simp only [hcommence, Bool.false_eq_true, if_false] at hrecord
      exact poursuivre_fonde e.magasin runId (Fonde.vide w) hmagasin record hrecord
  | true =>
      simp only [hcommence, if_true] at hrecord
      split at hrecord
      · exact hmagasin record hrecord
      · next old hold =>
          exact poursuivre_fonde e.magasin runId (hmagasin old hold) hmagasin record hrecord

theorem derouler_fonde {magasin : Magasin} {runId : String} (hlibre : magasin.get? runId = none)
    (appels : List Appel) :
    ∀ record, (derouler w t runId magasin appels).magasin.get? runId = some record →
      Fonde w record.nodeResults := by
  have hfold : ∀ e : Etat, (∀ record, e.magasin.get? runId = some record →
      Fonde w record.nodeResults) → ∀ record,
        (appels.foldl (pas w t runId) e).magasin.get? runId = some record →
          Fonde w record.nodeResults := by
    induction appels with
    | nil => exact fun _ h => h
    | cons a appels ih => exact fun e h => ih _ (run_fonde h)
  apply hfold
  intro record hrecord
  rw [hlibre] at hrecord
  cases hrecord

end Appels

def depart (e : Etat) (runId : String) (a : Appel) : Dict String NodeResult × List String :=
  if e.commence then
    match e.magasin.get? runId with
    | none => ([], [])
    | some record => (record.nodeResults, record.approvedNodes ++ a.approvedNodes)
  else ([], a.approvedNodes)

def enTete (w : WorkflowDefinition) (t : Textes) (runId : String) (e : Etat) (a : Appel)
    (k : Nat) : Parcours :=
  (boucle w t a.tools (depart e runId a).2 k (initial w (depart e runId a).1)).1

def rendu (w : WorkflowDefinition) (t : Textes) (runId : String) (e : Etat) (a : Appel) :
    Option WorkflowRun :=
  (run w t e.magasin runId (if e.commence then some runId else none) a).2.2

section Run

variable {w : WorkflowDefinition} {t : Textes} {runId : String} {e : Etat} {a : Appel}
  {r : WorkflowRun}

theorem poursuivre_rendu {magasin : Magasin} {tools : String → Tools} {approved : List String}
    {results : Dict String NodeResult}
    (h : (poursuivre w t magasin runId tools results approved).2.2 = some r) :
    ∃ p, boucle w t tools approved w.nodes.length (initial w results) = (p, none) ∧
      r.nodeResults = sauter p ∧ r.pendingNodes = p.pendingNodes := by
  unfold poursuivre at h
  split at h
  · cases h
  · next p hexec =>
      refine ⟨p, hexec, ?_⟩
      dsimp only at h
      split at h
      · cases h
      · cases h
        exact ⟨rfl, rfl⟩

theorem rendu_spec (h : rendu w t runId e a = some r) :
    ∃ p, boucle w t a.tools (depart e runId a).2 w.nodes.length
        (initial w (depart e runId a).1) = (p, none) ∧
      r.nodeResults = sauter p ∧ r.pendingNodes = p.pendingNodes := by
  unfold rendu run at h
  unfold depart
  cases hcommence : e.commence with
  | false =>
      simp only [hcommence, Bool.false_eq_true, if_false] at h
      exact poursuivre_rendu h
  | true =>
      simp only [hcommence, if_true] at h ⊢
      cases hrecord : e.magasin.get? runId with
      | none =>
          simp only [hrecord] at h
          cases h
      | some record =>
          simp only [hrecord] at h
          exact poursuivre_rendu h

theorem depart_fonde
    (hmagasin : ∀ record, e.magasin.get? runId = some record → Fonde w record.nodeResults) :
    Fonde w (depart e runId a).1 := by
  unfold depart
  split
  · split
    · exact Fonde.vide w
    · next record hrecord => exact hmagasin record hrecord
  · exact Fonde.vide w

end Run

/-- A run that returns with nothing gated skips the nodes that no live edge reaches, and those
only, exactly when at no turn of its loop a node that a live edge has reached waits on a dead
branch. -/
theorem loi_iff (w : WorkflowDefinition) (t : Textes) (runId : String) (magasin : Magasin)
    (hlibre : magasin.get? runId = none) (appels : List Appel) (a : Appel) (r : WorkflowRun)
    (hrendu : rendu w t runId (derouler w t runId magasin appels) a = some r)
    (hpending : r.pendingNodes = []) :
    Loi w r.nodeResults ↔
      ∀ k, ¬ JonctionMorte w (enTete w t runId (derouler w t runId magasin appels) a k) := by
  obtain ⟨p, hboucle, hresults, hgates⟩ := rendu_spec hrendu
  have hdepart : Tenue w (initial w (depart (derouler w t runId magasin appels) runId a).1) :=
    (depart_fonde (derouler_fonde hlibre appels)).initial
  have hok := congrArg Prod.snd hboucle
  have htenue := hdepart.boucle hok
  have hfin := boucle_fin (w := w) (List.length_filter_le _ _) hok
  rw [hboucle] at htenue hfin
  rw [hgates] at hpending
  rw [hresults, loi_sauter_iff htenue hpending hfin]
  constructor
  · intro hj k hk
    apply hj
    have hp : (boucle w t a.tools (depart (derouler w t runId magasin appels) runId a).2
        w.nodes.length (initial w (depart (derouler w t runId magasin appels) runId a).1)).1 = p :=
      congrArg Prod.fst hboucle
    by_cases hkn : k ≤ w.nodes.length
    · have hlast := jonction_fin hdepart hkn hok hk
      rwa [hp] at hlast
    · obtain ⟨more, rfl⟩ : ∃ more, k = w.nodes.length + more := ⟨k - w.nodes.length, by omega⟩
      rw [enTete, boucle_fuel_irrelevant _ more (List.length_filter_le _ _), hp] at hk
      exact hk
  · intro h hj
    apply h w.nodes.length
    rw [enTete, hboucle]
    exact hj

/-- Two exclusive branches and the node that joins them. -/
def deuxBranches : WorkflowDefinition where
  id := "w"
  nodes :=
    [{ id := "essai", action := "f", params := [], humanValidation := false },
      { id := "reussite", action := "f", params := [], humanValidation := false },
      { id := "reprise", action := "f", params := [], humanValidation := false },
      { id := "suite", action := "f", params := [], humanValidation := false }]
  edges :=
    [{ fromNode := "essai", toNode := "reussite", condition := .onSuccess },
      { fromNode := "essai", toNode := "reprise", condition := .onFailure },
      { fromNode := "reussite", toNode := "suite" }, { fromNode := "reprise", toNode := "suite" }]
  valide := by rfl

/-- The only call of a fresh run whose tools all succeed. -/
def appelReussi : Appel := appelRendant (.rendu .rien) []

theorem loi_iff_deuxBranches :
    ∃ r, rendu deuxBranches textesBruts "r" (derouler deuxBranches textesBruts "r" [] [])
        appelReussi = some r ∧ r.pendingNodes = [] ∧
      (Loi deuxBranches r.nodeResults ↔ ∀ k, ¬ JonctionMorte deuxBranches
        (enTete deuxBranches textesBruts "r" (derouler deuxBranches textesBruts "r" [] [])
          appelReussi k)) :=
  ⟨_, rfl, rfl, loi_iff deuxBranches textesBruts "r" [] rfl [] appelReussi _ rfl rfl⟩

/-- The branch that is taken reaches the junction, and the junction is skipped. -/
theorem suite_sautee :
    ∃ r, rendu deuxBranches textesBruts "r" (derouler deuxBranches textesBruts "r" [] [])
        appelReussi = some r ∧ r.pendingNodes = [] ∧ ¬ Loi deuxBranches r.nodeResults := by
  refine ⟨_, rfl, rfl, fun hloi => ?_⟩
  obtain ⟨result, hresult, hterm⟩ := hloi.execute
    { id := "suite", action := "f", params := [], humanValidation := false } (by simp [deuxBranches])
    ⟨{ fromNode := "reussite", toNode := "suite" }, by decide,
      ⟨{ nodeId := "reussite", status := .success }, rfl, rfl⟩, rfl⟩
  have hsaute : result.status = .skipped := by
    rw [← Option.some.inj hresult]
  rw [hsaute] at hterm
  cases hterm

end Hermes.Workflows
