import Hermes.Lib.Profondeur
import Hermes.Mission.PlannerModels

/-! # The checks of a plan on its graph

`_check_dependencies` looks for an unknown task and `_check_cycles` for a cycle, by a depth-first
search from every key.
-/

namespace Hermes.Planner.ValidationEngine

open Lib (Dict)
open Lib.Profondeur (Tri Mene)

def inconnue (taskIds : List String) : Dict String (List String) → Option String
  | [] => none
  | (taskId, deps) :: entries =>
      if taskId ∉ taskIds then some ("Unknown task in dependency graph: '" ++ taskId ++ "'")
      else
        match deps.find? fun dep => dep ∉ taskIds with
        | some dep => some ("Task '" ++ taskId ++ "' depends on unknown task '" ++ dep ++ "'")
        | none => inconnue taskIds entries

def noter (report : ValidationReport) : Option String → ValidationReport
  | none => { report with totalChecks := report.totalChecks + 1 }
  | some issue =>
      { issues := report.issues ++ [issue]
        totalChecks := report.totalChecks + 1
        failedChecks := report.failedChecks + 1 }

def checkDependencies (result : PlanningResult) (report : ValidationReport) : ValidationReport :=
  noter report (inconnue (result.taskBreakdowns.map TaskBreakdown.taskId) result.dependencyGraph)

structure Exploration where
  visited : List String := []
  recStack : List String := []

def explorer (hasCycle : String → Exploration → Option (Bool × Exploration)) :
    List String → Exploration → Option (Bool × Exploration)
  | [], e => some (false, e)
  | neighbor :: neighbors, e =>
      if neighbor ∉ e.visited then
        match hasCycle neighbor e with
        | none => none
        | some (true, e) => some (true, e)
        | some (false, e) => explorer hasCycle neighbors e
      else if neighbor ∈ e.recStack then some (true, e)
      else explorer hasCycle neighbors e

/-- `has_cycle`. Nothing past the depth that the interpreter allows. -/
def hasCycle (graph : Dict String (List String)) : Nat → String → Exploration →
    Option (Bool × Exploration)
  | 0, _, _ => none
  | limite + 1, node, e =>
      let entree := { visited := node :: e.visited, recStack := node :: e.recStack }
      match explorer (hasCycle graph limite) (graph.getD node []) entree with
      | none => none
      | some (true, e) => some (true, e)
      | some (false, e) => some (false, { e with recStack := e.recStack.filter fun x => x ≠ node })

def chercher (graph : Dict String (List String)) (limite : Nat) :
    List String → Exploration → Option Bool
  | [], _ => some false
  | node :: nodes, e =>
      if node ∉ e.visited then
        match hasCycle graph limite node e with
        | none => none
        | some (true, _) => some true
        | some (false, e) => chercher graph limite nodes e
      else chercher graph limite nodes e

def checkCycles (limite : Nat) (result : PlanningResult) (report : ValidationReport) :
    Option ValidationReport :=
  (chercher result.dependencyGraph limite result.dependencyGraph.keys {}).map fun trouve =>
    noter report (if trouve then some "Dependency graph contains a cycle" else none)

theorem noter_issues {report : ValidationReport} {issue : Option String} :
    (noter report issue).issues = report.issues ↔ issue = none := by
  cases issue with
  | none => simp [noter]
  | some issue => simp [noter]

theorem inconnue_eq_none {taskIds : List String} {graph : Dict String (List String)} :
    inconnue taskIds graph = none ↔
      ∀ entry ∈ graph, entry.1 ∈ taskIds ∧ ∀ dep ∈ entry.2, dep ∈ taskIds := by
  induction graph with
  | nil => simp [inconnue]
  | cons entry graph ih =>
      obtain ⟨taskId, deps⟩ := entry
      rw [inconnue, List.forall_mem_cons]
      split
      · next hid => simp [hid]
      · next hid =>
          split
          · next dep hdep =>
              have hmem := List.mem_of_find?_eq_some hdep
              have hdep := List.find?_some hdep
              simp only [reduceCtorEq, false_iff, not_and]
              intro h
              exact absurd (h.2 dep hmem) (by simpa using hdep)
          · next hdeps =>
              rw [ih]
              simp only [List.find?_eq_none, decide_not, Bool.not_eq_true', decide_eq_false_iff_not,
                not_not] at hdeps
              simp only [not_not.mp hid, true_and, iff_and_self]
              exact fun _ => hdeps

/-- The vertices that the search is done with, the last one first. -/
structure Noirs (graph : Dict String (List String)) (noirs : List String) (e : Exploration) :
    Prop where
  tri : Tri (fun x => graph.getD x []) noirs
  visites : ∀ x, x ∈ e.visited ↔ x ∈ noirs ∨ x ∈ e.recStack

/-- What a search that finds no cycle leaves: more vertices it is done with, the stack as it was. -/
structure Fini (graph : Dict String (List String)) (noirs : List String) (e e' : Exploration)
    (faits : List String) : Prop where
  etat : Noirs graph noirs e'
  pile : e'.recStack = e.recStack
  faits : ∀ x ∈ faits, x ∈ noirs

variable {graph : Dict String (List String)} {noirs : List String} {e e' : Exploration}
  {node : String}

theorem explorer_fini {visite : String → Exploration → Option (Bool × Exploration)}
    (hvisite : ∀ {node noirs e e'}, Noirs graph noirs e → node ∉ e.visited →
      visite node e = some (false, e') → ∃ noirs', Fini graph noirs' e e' (node :: noirs))
    {neighbors : List String} (h : Noirs graph noirs e)
    (hrun : explorer visite neighbors e = some (false, e')) :
    ∃ noirs', Fini graph noirs' e e' (neighbors ++ noirs) := by
  induction neighbors generalizing noirs e with
  | nil =>
      cases hrun
      exact ⟨noirs, h, rfl, fun x hx => hx⟩
  | cons neighbor neighbors ih =>
      rw [explorer] at hrun
      split at hrun
      · next hnouveau =>
          split at hrun
          · cases hrun
          · cases hrun
          · next milieu hmilieu =>
              obtain ⟨noirs₁, h₁⟩ := hvisite h hnouveau hmilieu
              obtain ⟨noirs₂, h₂⟩ := ih h₁.etat hrun
              refine ⟨noirs₂, h₂.etat, h₂.pile.trans h₁.pile, fun x hx => ?_⟩
              have hsuite : ∀ y ∈ noirs₁, y ∈ noirs₂ :=
                fun y hy => h₂.faits y (List.mem_append_right _ hy)
              rcases List.mem_append.mp hx with hx | hx
              · rcases List.mem_cons.mp hx with rfl | hx
                · exact hsuite _ (h₁.faits _ List.mem_cons_self)
                · exact h₂.faits x (List.mem_append_left _ hx)
              · exact hsuite x (h₁.faits x (List.mem_cons_of_mem _ hx))
      · next hconnu =>
          split at hrun
          · cases hrun
          · next hpile =>
              -- a vertex that is known and not on the stack is one the search is done with
              have hnoir := ((h.visites neighbor).mp (not_not.mp hconnu)).resolve_right hpile
              obtain ⟨noirs', h'⟩ := ih h hrun
              refine ⟨noirs', h'.etat, h'.pile, fun x hx => ?_⟩
              rcases List.mem_cons.mp hx with rfl | hx
              · exact h'.faits _ (List.mem_append_right _ hnoir)
              · exact h'.faits x hx

theorem hasCycle_fini {limite : Nat} (h : Noirs graph noirs e) (hnouveau : node ∉ e.visited)
    (hrun : hasCycle graph limite node e = some (false, e')) :
    ∃ noirs', Fini graph noirs' e e' (node :: noirs) := by
  induction limite generalizing node noirs e e' with
  | zero => cases hrun
  | succ limite ih =>
      rw [hasCycle] at hrun
      have hentree : Noirs graph noirs ⟨node :: e.visited, node :: e.recStack⟩ := by
        refine ⟨h.tri, fun x => ?_⟩
        rw [List.mem_cons, List.mem_cons, h.visites]
        tauto
      split at hrun
      · cases hrun
      · cases hrun
      · next sortie hsortie =>
          cases hrun
          obtain ⟨noirs', h'⟩ := explorer_fini (fun h hn hr => ih h hn hr) hentree hsortie
          have hpile : node ∉ e.recStack := fun hmem => hnouveau ((h.visites node).mpr (.inr hmem))
          have hfiltre : sortie.recStack.filter (fun x => x ≠ node) = e.recStack := by
            rw [h'.pile, List.filter_cons_of_neg (by simp), List.filter_eq_self]
            intro x hx
            exact decide_eq_true (ne_of_mem_of_not_mem hx hpile)
          refine ⟨node :: noirs', ⟨⟨fun y hy => ?_, h'.etat.tri⟩, fun x => ?_⟩, hfiltre, fun x hx => ?_⟩
          · exact h'.faits y (List.mem_append_left _ hy)
          · change x ∈ sortie.visited ↔ x ∈ node :: noirs' ∨ x ∈ sortie.recStack.filter _
            rw [hfiltre, h'.etat.visites, h'.pile, List.mem_cons, List.mem_cons]
            tauto
          · rcases List.mem_cons.mp hx with rfl | hx
            · exact List.mem_cons_self
            · exact List.mem_cons_of_mem _ (h'.faits x (List.mem_append_right _ hx))

theorem chercher_fini {limite : Nat} {nodes : List String} (h : Noirs graph noirs e)
    (hpile : e.recStack = []) (hrun : chercher graph limite nodes e = some false) :
    ∃ noirs', Tri (fun x => graph.getD x []) noirs' ∧ ∀ x ∈ nodes ++ noirs, x ∈ noirs' := by
  induction nodes generalizing noirs e with
  | nil => exact ⟨noirs, h.tri, fun x hx => hx⟩
  | cons node nodes ih =>
      rw [chercher] at hrun
      split at hrun
      · next hnouveau =>
          split at hrun
          · cases hrun
          · cases hrun
          · next milieu hmilieu =>
              obtain ⟨noirs₁, h₁⟩ := hasCycle_fini h hnouveau hmilieu
              obtain ⟨noirs₂, htri, hfaits⟩ := ih h₁.etat (h₁.pile.trans hpile) hrun
              refine ⟨noirs₂, htri, fun x hx => ?_⟩
              have hsuite : ∀ y ∈ node :: noirs, y ∈ noirs₂ :=
                fun y hy => hfaits y (List.mem_append_right _ (h₁.faits y hy))
              rcases List.mem_append.mp hx with hx | hx
              · rcases List.mem_cons.mp hx with rfl | hx
                · exact hsuite _ List.mem_cons_self
                · exact hfaits x (List.mem_append_left _ hx)
              · exact hsuite x (List.mem_cons_of_mem _ hx)
      · next hconnu =>
          have hnoir : node ∈ noirs := by
            refine ((h.visites node).mp (not_not.mp hconnu)).resolve_right ?_
            rw [hpile]
            exact List.not_mem_nil
          obtain ⟨noirs', htri, hfaits⟩ := ih h hpile hrun
          refine ⟨noirs', htri, fun x hx => ?_⟩
          rcases List.mem_cons.mp hx with rfl | hx
          · exact hfaits _ (List.mem_append_right _ hnoir)
          · exact hfaits x hx

theorem acyclique_of_chercher {limite : Nat}
    (h : chercher graph limite graph.keys {} = some false) (x : String) :
    ¬ Relation.TransGen (Mene fun x => graph.getD x []) x x := by
  have hdepart : Noirs graph [] {} := ⟨trivial, fun x => by simp⟩
  obtain ⟨noirs, htri, hfaits⟩ := chercher_fini hdepart rfl h
  intro hcycle
  have hcle : x ∈ graph.keys := by
    obtain ⟨y, hy, -⟩ := Relation.TransGen.head'_iff.mp hcycle
    by_contra hnot
    simp [Mene, Dict.getD, Dict.get?_eq_none hnot] at hy
  exact (htri.acyclique (hfaits x (by simpa using hcle))).1 hcycle

end Hermes.Planner.ValidationEngine
