import Hermes.Workflows.Schema
import Mathlib.Algebra.Order.BigOperators.Group.List
import Mathlib.Algebra.Order.Ring.Nat

/-! # Accepted definitions have no cycle

A node turns black when all the nodes its edges lead to are black.
-/

namespace Hermes.Workflows

open Lib

def couleur (color : Dict String Color) (id : String) : Color := color.getD id .white

def suivre (edges : List WorkflowEdge) (depth : Nat) (color : Dict String Color)
    (e : WorkflowEdge) : Except InvalidWorkflow (Dict String Color) :=
  match couleur color e.toNode with
  | .gray => .error (.cycle e.toNode)
  | .white => visit edges depth e.toNode color
  | .black => .ok color

theorem visit_succ (edges : List WorkflowEdge) (depth : Nat) (id : String)
    (color : Dict String Color) :
    visit edges (depth + 1) id color =
      ((edges.filter fun e => e.fromNode = id).foldlM (suivre edges depth)
        (color.set id .gray)).map fun color => color.set id .black := rfl

/-- Every edge out of a black node leads to a black node of a smaller rank. -/
def Rangee (edges : List WorkflowEdge) (color : Dict String Color) : Prop :=
  ∃ rang : String → Nat, ∀ e ∈ edges, couleur color e.fromNode = .black →
    couleur color e.toNode = .black ∧ rang e.toNode < rang e.fromNode

/-- Black and gray nodes keep their colour, and no node turns white. -/
structure Avance (color color' : Dict String Color) : Prop where
  noirs : ∀ id, couleur color id = .black → couleur color' id = .black
  gris : ∀ id, couleur color id = .gray → couleur color' id = .gray
  blancs : ∀ id, couleur color' id = .white → couleur color id = .white

def SansNouveauGris (color color' : Dict String Color) : Prop :=
  ∀ id, couleur color' id = .gray → couleur color id = .gray

def blancs (ids : List String) (color : Dict String Color) : Nat :=
  (ids.filter fun id => couleur color id = .white).length

section Couleurs

variable {ids : List String} {edges : List WorkflowEdge} {color color' color'' : Dict String Color}
  {id : String} {c : Color}

theorem couleur_set (color : Dict String Color) (id x : String) (c : Color) :
    couleur (color.set id c) x = if x = id then c else couleur color x :=
  Dict.getD_set color id x c .white

theorem Avance.refl (color : Dict String Color) : Avance color color :=
  ⟨fun _ h => h, fun _ h => h, fun _ h => h⟩

theorem Avance.trans (h : Avance color color') (h' : Avance color' color'') :
    Avance color color'' :=
  ⟨fun id hid => h'.noirs id (h.noirs id hid), fun id hid => h'.gris id (h.gris id hid),
    fun id hid => h.blancs id (h'.blancs id hid)⟩

theorem Avance.blancs_le (h : Avance color color') (ids : List String) :
    Workflows.blancs ids color' ≤ Workflows.blancs ids color := by
  apply (List.monotone_filter_right ids _).length_le
  intro id hid
  simpa using h.blancs id (by simpa using hid)

theorem blancs_set_lt (hid : id ∈ ids) (hblanc : couleur color id = .white) (hc : c ≠ .white) :
    blancs ids (color.set id c) < blancs ids color := by
  have hfilter : (ids.filter fun x => couleur (color.set id c) x = .white)
      = (ids.filter fun x => couleur color x = .white).filter fun x => x ≠ id := by
    rw [List.filter_filter]
    apply List.filter_congr
    intro x _
    rw [couleur_set]
    by_cases hx : x = id
    · simp [hx, hc]
    · simp [hx]
  rw [blancs, blancs, hfilter]
  apply List.length_filter_lt_length_iff_exists.mpr
  exact ⟨id, List.mem_filter.mpr ⟨hid, by simpa using hblanc⟩, by simp⟩

theorem Rangee.griser (h : Rangee edges color) (hblanc : couleur color id = .white) :
    Rangee edges (color.set id .gray) := by
  obtain ⟨rang, hrang⟩ := h
  refine ⟨rang, fun e he hnoir => ?_⟩
  rw [couleur_set] at hnoir
  split at hnoir
  · cases hnoir
  · have hto := hrang e he hnoir
    refine ⟨?_, hto.2⟩
    rw [couleur_set, if_neg]
    · exact hto.1
    · intro heq
      rw [heq, hblanc] at hto
      cases hto.1

theorem Rangee.noircir (h : Rangee edges color) (hgris : couleur color id = .gray)
    (hsortants : ∀ e ∈ edges, e.fromNode = id → couleur color e.toNode = .black) :
    Rangee edges (color.set id .black) := by
  obtain ⟨rang, hrang⟩ := h
  have hne : ∀ x, couleur color x = .black → x ≠ id := by
    intro x hx heq
    rw [heq, hgris] at hx
    cases hx
  refine ⟨fun x => if x = id then (edges.map fun e => rang e.toNode).sum + 1 else rang x,
    fun e he hnoir => ?_⟩
  rw [couleur_set] at hnoir
  have hto : couleur color e.toNode = .black := by
    split at hnoir
    · next heq => exact hsortants e he heq
    · exact (hrang e he hnoir).1
  have htoNe := hne _ hto
  refine ⟨by rw [couleur_set, if_neg htoNe]; exact hto, ?_⟩
  dsimp only
  rw [if_neg htoNe]
  split
  · have hle : rang e.toNode ≤ (edges.map fun e => rang e.toNode).sum :=
      List.le_sum_of_mem (List.mem_map_of_mem he)
    omega
  · next hfrom =>
      rw [if_neg hfrom] at hnoir
      exact (hrang e he hnoir).2

theorem Avance.griser (hblanc : couleur color id = .white) :
    Avance color (color.set id .gray) := by
  have hne : ∀ x, couleur color x ≠ .white → x ≠ id := by
    intro x hx heq
    rw [heq] at hx
    exact hx hblanc
  refine ⟨fun x hx => ?_, fun x hx => ?_, fun x hx => ?_⟩
  · rw [couleur_set, if_neg (hne x (by rw [hx]; decide))]
    exact hx
  · rw [couleur_set, if_neg (hne x (by rw [hx]; decide))]
    exact hx
  · rw [couleur_set] at hx
    split at hx
    · cases hx
    · exact hx

/-- What a visit leaves: its node black, the colours further on, the black nodes ranked. -/
structure Visitee (edges : List WorkflowEdge) (id : String) (color color' : Dict String Color) :
    Prop where
  rangee : Rangee edges color'
  avance : Avance color color'
  gris : SansNouveauGris color color'
  noir : couleur color' id = .black

theorem suivis_spec {depth : Nat} {suivies : List WorkflowEdge}
    (hvisit : ∀ {id : String} {color color' : Dict String Color}, id ∈ ids →
      couleur color id = .white → blancs ids color ≤ depth → Rangee edges color →
      visit edges depth id color = .ok color' → Visitee edges id color color')
    (hcibles : ∀ e ∈ suivies, e.toNode ∈ ids) (hblancs : blancs ids color ≤ depth)
    (hrangee : Rangee edges color)
    (hfold : suivies.foldlM (suivre edges depth) color = .ok color') :
    Rangee edges color' ∧ Avance color color' ∧ SansNouveauGris color color' ∧
      ∀ e ∈ suivies, couleur color' e.toNode = .black := by
  induction suivies generalizing color with
  | nil =>
      cases hfold
      exact ⟨hrangee, Avance.refl _, fun _ h => h, fun _ hnil => nomatch hnil⟩
  | cons e suivies ih =>
      rw [List.foldlM_cons] at hfold
      have hpas : ∀ milieu, suivre edges depth color e = .ok milieu →
          Rangee edges milieu ∧ Avance color milieu ∧ SansNouveauGris color milieu ∧
            couleur milieu e.toNode = .black := by
        intro milieu hmilieu
        unfold suivre at hmilieu
        split at hmilieu
        · cases hmilieu
        · next hblanc =>
            have hv := hvisit (hcibles e List.mem_cons_self) hblanc hblancs hrangee hmilieu
            exact ⟨hv.rangee, hv.avance, hv.gris, hv.noir⟩
        · next hnoir =>
            cases hmilieu
            exact ⟨hrangee, Avance.refl color, fun _ h => h, hnoir⟩
      cases hsuivre : suivre edges depth color e with
      | error err =>
          rw [hsuivre] at hfold
          cases hfold
      | ok milieu =>
          rw [hsuivre] at hfold
          obtain ⟨hrangee', havance, hgris, hnoir⟩ := hpas milieu hsuivre
          obtain ⟨hfin, hreste, hgris', hnoirs⟩ := ih
            (fun e' he' => hcibles e' (List.mem_cons_of_mem _ he'))
            ((havance.blancs_le ids).trans hblancs) hrangee' hfold
          refine ⟨hfin, havance.trans hreste, fun x hx => hgris x (hgris' x hx), fun e' he' => ?_⟩
          cases List.mem_cons.mp he' with
          | inl heq =>
              rw [heq]
              exact hreste.noirs _ hnoir
          | inr he' => exact hnoirs e' he'

theorem visit_spec (hcibles : ∀ e ∈ edges, e.toNode ∈ ids) {depth : Nat} (hid : id ∈ ids)
    (hblanc : couleur color id = .white) (hblancs : blancs ids color ≤ depth)
    (hrangee : Rangee edges color) (h : visit edges depth id color = .ok color') :
    Visitee edges id color color' := by
  induction depth generalizing id color color' with
  | zero =>
      have hlt := blancs_set_lt (c := .gray) hid hblanc (by decide)
      omega
  | succ depth ih =>
      rw [visit_succ] at h
      cases hfold : (edges.filter fun e => e.fromNode = id).foldlM (suivre edges depth)
          (color.set id .gray) with
      | error err =>
          rw [hfold] at h
          cases h
      | ok fin =>
          rw [hfold] at h
          cases h
          have hlt := blancs_set_lt (c := .gray) hid hblanc (by decide)
          obtain ⟨hfin, havance, hnouveaux, hnoirs⟩ := suivis_spec ih
            (fun e he => hcibles e (List.mem_filter.mp he).1) (by omega)
            (hrangee.griser hblanc) hfold
          have hgris : couleur fin id = .gray := by
            apply havance.gris
            rw [couleur_set, if_pos rfl]
          have htotal := (Avance.griser hblanc).trans havance
          refine ⟨hfin.noircir hgris fun e he hfrom => ?_, ⟨fun x hx => ?_, fun x hx => ?_,
            fun x hx => ?_⟩, fun x hx => ?_, by rw [couleur_set, if_pos rfl]⟩
          · exact hnoirs e (List.mem_filter.mpr ⟨he, by simpa using hfrom⟩)
          · rw [couleur_set]
            split
            · rfl
            · exact htotal.noirs x hx
          · have hne : x ≠ id := by
              intro heq
              rw [heq, hblanc] at hx
              cases hx
            rw [couleur_set, if_neg hne]
            exact htotal.gris x hx
          · rw [couleur_set] at hx
            split at hx
            · cases hx
            · exact htotal.blancs x hx
          · rw [couleur_set] at hx
            split at hx
            · cases hx
            · next hne =>
                have hx' := hnouveaux x hx
                rw [couleur_set, if_neg hne] at hx'
                exact hx'

end Couleurs

section Acceptation

variable {nodes : List WorkflowNode} {edges : List WorkflowEdge} {color color' : Dict String Color}

def depuis (edges : List WorkflowEdge) (depth : Nat) (color : Dict String Color)
    (n : WorkflowNode) : Except InvalidWorkflow (Dict String Color) :=
  match couleur color n.id with
  | .white => visit edges depth n.id color
  | _ => .ok color

theorem checkAcyclic_eq (nodes : List WorkflowNode) (edges : List WorkflowEdge) :
    checkAcyclic nodes edges =
      (nodes.foldlM (depuis edges nodes.length) (nodes.map fun n => (n.id, .white))).map
        fun _ => () := rfl

theorem depuis_spec {ids : List String} {depth : Nat} (hcibles : ∀ e ∈ edges, e.toNode ∈ ids)
    (hids : ∀ n ∈ nodes, n.id ∈ ids) (hblancs : blancs ids color ≤ depth)
    (hgris : ∀ id, couleur color id ≠ .gray) (hrangee : Rangee edges color)
    (hfold : nodes.foldlM (depuis edges depth) color = .ok color') :
    Rangee edges color' ∧ Avance color color' ∧ ∀ n ∈ nodes, couleur color' n.id = .black := by
  induction nodes generalizing color with
  | nil =>
      cases hfold
      exact ⟨hrangee, Avance.refl _, fun _ hnil => nomatch hnil⟩
  | cons n nodes ih =>
      rw [List.foldlM_cons] at hfold
      have hpas : ∀ milieu, depuis edges depth color n = .ok milieu →
          Rangee edges milieu ∧ Avance color milieu ∧ SansNouveauGris color milieu ∧
            couleur milieu n.id = .black := by
        intro milieu hmilieu
        unfold depuis at hmilieu
        split at hmilieu
        · next hblanc =>
            have hv := visit_spec hcibles (hids n List.mem_cons_self) hblanc hblancs hrangee hmilieu
            exact ⟨hv.rangee, hv.avance, hv.gris, hv.noir⟩
        · next hcolore =>
            cases hmilieu
            refine ⟨hrangee, Avance.refl _, fun _ h => h, ?_⟩
            cases hc : couleur color n.id with
            | white => exact absurd hc hcolore
            | gray => exact absurd hc (hgris n.id)
            | black => rfl
      cases hdepuis : depuis edges depth color n with
      | error err =>
          rw [hdepuis] at hfold
          cases hfold
      | ok milieu =>
          rw [hdepuis] at hfold
          obtain ⟨hrangee', havance, hnouveaux, hnoir⟩ := hpas milieu hdepuis
          obtain ⟨hfin, hreste, hnoirs⟩ := ih (fun m hm => hids m (List.mem_cons_of_mem _ hm))
            ((havance.blancs_le ids).trans hblancs)
            (fun x hx => hgris x (hnouveaux x hx)) hrangee' hfold
          refine ⟨hfin, havance.trans hreste, fun m hm => ?_⟩
          cases List.mem_cons.mp hm with
          | inl heq =>
              rw [heq]
              exact hreste.noirs _ hnoir
          | inr hm => exact hnoirs m hm

theorem checkEdges_ok {ids : List String} (h : checkEdges ids edges = .ok ()) :
    ∀ e ∈ edges, e.fromNode ∈ ids ∧ e.toNode ∈ ids := by
  induction edges with
  | nil => exact fun _ hnil => nomatch hnil
  | cons e edges ih =>
      rw [checkEdges] at h
      split at h
      · cases h
      · next hfrom =>
          split at h
          · cases h
          · next hto =>
              intro e' he'
              cases List.mem_cons.mp he' with
              | inl heq =>
                  rw [heq]
                  exact ⟨not_not.mp hfrom, not_not.mp hto⟩
              | inr he' => exact ih h e' he'

theorem couleur_blanche (nodes : List WorkflowNode) (id : String) :
    couleur (nodes.map fun n => (n.id, .white)) id = .white := by
  induction nodes with
  | nil => rfl
  | cons n nodes ih =>
      rw [couleur, List.map_cons, Dict.getD, Dict.get?_cons]
      split
      · rfl
      · exact ih

theorem rang_of_checkAcyclic
    (hends : ∀ e ∈ edges, e.fromNode ∈ nodes.map WorkflowNode.id ∧
      e.toNode ∈ nodes.map WorkflowNode.id)
    (h : checkAcyclic nodes edges = .ok ()) :
    ∃ rang : String → Nat, ∀ e ∈ edges, rang e.toNode < rang e.fromNode := by
  rw [checkAcyclic_eq] at h
  cases hfold : nodes.foldlM (depuis edges nodes.length)
      (nodes.map fun n => (n.id, Color.white)) with
  | error err =>
      rw [hfold] at h
      cases h
  | ok fin =>
      have hblancs : blancs (nodes.map WorkflowNode.id) (nodes.map fun n => (n.id, Color.white))
          ≤ nodes.length := by
        rw [blancs]
        exact (List.length_filter_le _ _).trans_eq (List.length_map _)
      have hdebut : Rangee edges (nodes.map fun n => (n.id, Color.white)) := by
        refine ⟨fun _ => 0, fun e _ hnoir => ?_⟩
        rw [couleur_blanche] at hnoir
        cases hnoir
      obtain ⟨hrangee, -, hnoirs⟩ := depuis_spec (fun e he => (hends e he).2)
        (fun n hn => List.mem_map_of_mem hn) hblancs
        (fun id hid => by rw [couleur_blanche] at hid; cases hid) hdebut hfold
      obtain ⟨rang, hrang⟩ := hrangee
      refine ⟨rang, fun e he => ?_⟩
      obtain ⟨n, hn, hid⟩ := List.mem_map.mp (hends e he).1
      exact (hrang e he (by rw [← hid]; exact hnoirs n hn)).2

namespace WorkflowDefinition

theorem checks_of_valide (w : WorkflowDefinition) :
    checkEdges (w.nodes.map WorkflowNode.id) w.edges = .ok () ∧
      checkAcyclic w.nodes w.edges = .ok () := by
  have hvalide := w.valide
  unfold validate at hvalide
  dsimp only at hvalide
  split_ifs at hvalide
  cases hedges : checkEdges (w.nodes.map WorkflowNode.id) w.edges with
  | error err =>
      rw [hedges] at hvalide
      cases hvalide
  | ok u =>
      rw [hedges] at hvalide
      exact ⟨rfl, hvalide⟩

theorem edges_connues (w : WorkflowDefinition) :
    ∀ e ∈ w.edges, e.fromNode ∈ w.nodes.map WorkflowNode.id ∧
      e.toNode ∈ w.nodes.map WorkflowNode.id :=
  checkEdges_ok w.checks_of_valide.1

theorem exists_rang (w : WorkflowDefinition) :
    ∃ rang : String → Nat, ∀ e ∈ w.edges, rang e.fromNode < rang e.toNode := by
  obtain ⟨rang, hrang⟩ := rang_of_checkAcyclic w.edges_connues w.checks_of_valide.2
  refine ⟨fun id => (w.edges.map fun e => rang e.fromNode).sum - rang id, fun e he => ?_⟩
  have hlt := hrang e he
  have hle : rang e.fromNode ≤ (w.edges.map fun e => rang e.fromNode).sum :=
    List.le_sum_of_mem (List.mem_map_of_mem he)
  dsimp only
  omega

end WorkflowDefinition

end Acceptation

end Hermes.Workflows
