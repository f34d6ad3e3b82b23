import Hermes.Lib.Dict
import Mathlib.Algebra.Order.Field.Rat
import Mathlib.Data.List.Induction
import Mathlib.Data.List.MinMax
import Mathlib.Tactic.Linarith

/-! # Votes on a proposal

A vote is recorded under the lock; its outcome is read without it, and what was read is written in
a second section. Cancellations and other votes fall in between.
-/

namespace Hermes.Consensus

open Lib

inductive ConsensusStatus where
  | proposed | voting | reached | failed | cancelled
  deriving DecidableEq

inductive ConsensusMode where
  | unanimous | majority | superMajority | single
  deriving DecidableEq

structure Reglement where
  options : List String
  mode : ConsensusMode
  minimumVoters : Nat
  minimum : 1 ≤ minimumVoters

structure ConsensusProposal where
  status : ConsensusStatus := .proposed
  votes : Dict String String := []
  winner : String := ""
  deriving DecidableEq

/-- The options, in the order of the first votes of the agents. -/
def ConsensusProposal.exprimes (p : ConsensusProposal) : List String := p.votes.map Prod.snd

def compter (exprimes : List String) : Dict String Nat :=
  exprimes.foldl (fun counts o => Dict.set counts o (Dict.getD counts o 0 + 1)) []

section Engine

variable (r : Reglement)

def outcome (p : ConsensusProposal) : Option String :=
  let counts := compter p.exprimes
  let total := p.votes.length
  if total < r.minimumVoters then none
  else
    match r.mode with
    | .unanimous =>
        match p.exprimes with
        | [] => none
        | o :: suite => if ∀ o' ∈ suite, o' = o then some o else none
    | .superMajority =>
        (counts.find? fun item => decide ((2 / 3 : ℚ) ≤ (item.2 : ℚ) / total)).map Prod.fst
    | .majority =>
        match counts.keys.argmax fun o => counts.getD o 0 with
        | none => none
        | some best => if (total : ℚ) / 2 < counts.getD best 0 then some best else none
    | .single => p.exprimes.head?

/-- The proposal, the votes whose outcome is to be read, the outcomes that are to be written, and
how many times `consensus.reached` has been emitted. -/
structure Etat where
  proposition : ConsensusProposal := {}
  lectures : Nat := 0
  resultats : List String := []
  emis : Nat := 0
  deriving DecidableEq

def Etat.conclure (s : Etat) (winner : String) : Etat :=
  { s with
    proposition := { s.proposition with status := .reached, winner := winner }
    emis := s.emis + 1 }

inductive Pas where
  | startVoting
  /-- The first section of `vote`. -/
  | vote (agentId option : String)
  /-- `p.outcome()`, after that section. -/
  | lire
  | ecrire (rang : Nat)
  | tryResolve
  | cancel

def executer (s : Etat) : Pas → Etat
  | .startVoting =>
      if s.proposition.status ≠ .proposed then s
      else { s with proposition := { s.proposition with status := .voting } }
  | .vote agentId option =>
      if s.proposition.status ∉ [ConsensusStatus.proposed, .voting] then s
      else if option ∉ r.options then s
      else
        { s with
          proposition := { s.proposition with
            status := .voting
            votes := s.proposition.votes.set agentId option }
          lectures := s.lectures + 1 }
  | .lire =>
      if s.lectures = 0 then s
      else
        { s with
          lectures := s.lectures - 1
          resultats := s.resultats ++ (outcome r s.proposition).toList }
  | .ecrire rang =>
      match s.resultats[rang]? with
      | none => s
      | some winner => { s with resultats := s.resultats.eraseIdx rang }.conclure winner
  | .tryResolve =>
      if s.proposition.status = .reached then s
      else
        match outcome r s.proposition with
        | none => s
        | some winner => s.conclure winner
  | .cancel =>
      if s.proposition.status ∈ [ConsensusStatus.reached, .cancelled] then s
      else { s with proposition := { s.proposition with status := .cancelled } }

def apres (h : List Pas) : Etat := h.foldl (executer r) {}

/-- The rule of the mode, on the votes that the proposal holds. -/
def Regle (p : ConsensusProposal) (winner : String) : Prop :=
  match r.mode with
  | .unanimous => ∀ o ∈ p.exprimes, o = winner
  | .superMajority => 2 * p.votes.length ≤ 3 * p.exprimes.count winner
  | .majority => p.votes.length < 2 * p.exprimes.count winner
  | .single => winner ∈ p.exprimes

def Finale (p : ConsensusProposal) : Prop := p.status = .reached ∨ p.status = .cancelled

structure Loi (h : List Pas) : Prop where
  stable : ∀ avant milieu suite, h = avant ++ milieu ++ suite →
    Finale (apres r avant).proposition →
      (apres r (avant ++ milieu)).proposition = (apres r avant).proposition
  uneFois : ∀ avant suite, h = avant ++ suite → (apres r avant).emis ≤ 1
  accord : ∀ avant suite, h = avant ++ suite → (apres r avant).proposition.status = .reached →
    r.minimumVoters ≤ (apres r avant).proposition.votes.length ∧
      Regle r (apres r avant).proposition (apres r avant).proposition.winner

/-- A vote writes its outcome while the proposal is open and still has that outcome, and nothing
resolves a cancelled proposal. -/
def Permis (s : Etat) : Pas → Prop
  | .ecrire rang => ∀ winner, s.resultats[rang]? = some winner →
      s.proposition.status = .voting ∧ outcome r s.proposition = some winner
  | .tryResolve => s.proposition.status = .cancelled → outcome r s.proposition = none
  | _ => True

def Sereine (h : List Pas) : Prop :=
  ∀ avant pas suite, h = avant ++ pas :: suite → Permis r (apres r avant) pas

end Engine

theorem getD_compter (exprimes : List String) (o : String) :
    (compter exprimes).getD o 0 = exprimes.count o := by
  induction exprimes using List.reverseRecOn with
  | nil => rfl
  | append_singleton l x ih =>
      have hdernier : compter (l ++ [x]) = (compter l).set x ((compter l).getD x 0 + 1) := by
        rw [compter, List.foldl_append]
        rfl
      rw [hdernier, Dict.getD_set, List.count_append, List.count_singleton]
      by_cases hx : o = x
      · rw [hx] at ih ⊢
        simp [ih]
      · simp [hx, Ne.symm hx, ih]

theorem nodup_compter (exprimes : List String) : (compter exprimes).keys.Nodup := by
  induction exprimes using List.reverseRecOn with
  | nil => exact List.nodup_nil
  | append_singleton l x ih =>
      rw [compter, List.foldl_append]
      exact Dict.nodup_keys_set ih _ _

variable {r : Reglement} {p : ConsensusProposal} {s : Etat} {winner : String}

theorem regle_of_outcome (h : outcome r p = some winner) :
    r.minimumVoters ≤ p.votes.length ∧ Regle r p winner := by
  unfold outcome at h
  simp only at h
  split at h
  · cases h
  · next hquorum =>
      refine ⟨not_lt.mp hquorum, ?_⟩
      have htotal : (0 : ℚ) < p.votes.length := by
        have hminimum := r.minimum
        exact_mod_cast (by omega : 0 < p.votes.length)
      unfold Regle
      split at h
      · split at h
        · cases h
        · next o suite hexprimes =>
            split at h
            · next htous =>
                cases h
                rw [hexprimes]
                exact List.forall_mem_cons.mpr ⟨rfl, htous⟩
            · cases h
      · obtain ⟨item, hitem, rfl⟩ := Option.map_eq_some_iff.mp h
        have hcompte : item.2 = p.exprimes.count item.1 := by
          have hget := Dict.get?_of_mem (nodup_compter _) (List.mem_of_find?_eq_some hitem)
          rw [← getD_compter, Dict.getD, hget]
          rfl
        have hpart : (2 / 3 : ℚ) ≤ item.2 / p.votes.length := by simpa using List.find?_some hitem
        rw [le_div_iff₀ htotal, hcompte] at hpart
        have htiers : (2 * p.votes.length : ℚ) ≤ 3 * p.exprimes.count item.1 := by linarith
        exact_mod_cast htiers
      · split at h
        · cases h
        · next best hbest =>
            split at h
            · next hmoitie =>
                cases h
                rw [getD_compter] at hmoitie
                have hdouble : (p.votes.length : ℚ) < 2 * p.exprimes.count winner := by linarith
                exact_mod_cast hdouble
            · cases h
      · exact List.mem_of_mem_head? h

theorem executer_finale {pas : Pas} (hpas : Permis r s pas) (hs : Finale s.proposition) :
    (executer r s pas).proposition = s.proposition := by
  have houverte : s.proposition.status ∉ [ConsensusStatus.proposed, .voting] := by
    cases hs with
    | inl h => simp [h]
    | inr h => simp [h]
  cases pas with
  | startVoting =>
      rw [executer, if_pos]
      intro h
      exact houverte (h ▸ List.mem_cons_self)
  | vote agentId option => rw [executer, if_pos houverte]
  | lire =>
      rw [executer]
      split <;> rfl
  | ecrire rang =>
      rw [executer]
      split
      · rfl
      · next winner hw => exact absurd ((hpas winner hw).1 ▸ by simp) houverte
  | tryResolve =>
      rw [executer]
      split
      · rfl
      · next hreached =>
          rw [hpas (hs.resolve_left hreached)]
  | cancel =>
      rw [executer, if_pos]
      cases hs with
      | inl h => simp [h]
      | inr h => simp [h]

/-- The event has been emitted if and only if the proposal is reached, and then by its rule. -/
structure Inv (r : Reglement) (s : Etat) : Prop where
  atteinte : s.proposition.status = .reached → s.emis = 1 ∧
    r.minimumVoters ≤ s.proposition.votes.length ∧ Regle r s.proposition s.proposition.winner
  ouverte : s.proposition.status ≠ .reached → s.emis = 0

theorem Inv.conclure (hs : Inv r s) (hstatus : s.proposition.status ≠ .reached)
    (hw : outcome r s.proposition = some winner) : Inv r (s.conclure winner) := by
  constructor
  · intro _
    refine ⟨?_, regle_of_outcome hw⟩
    rw [Etat.conclure, hs.ouverte hstatus]
  · exact fun h => absurd rfl h

theorem Inv.executer {pas : Pas} (hs : Inv r s) (hpas : Permis r s pas) :
    Inv r (executer r s pas) := by
  -- a step that leaves the proposal short of REACHED and emits nothing
  have hreste : ∀ s' : Etat, s.proposition.status ≠ .reached → s'.proposition.status ≠ .reached →
      s'.emis = s.emis → Inv r s' := by
    intro s' h h' hemis
    exact ⟨fun hr => absurd hr h', fun _ => hemis.trans (hs.ouverte h)⟩
  cases pas with
  | startVoting =>
      rw [Consensus.executer]
      split
      · exact hs
      · next h => exact hreste _ (by simp [not_not.mp h]) (by simp) rfl
  | vote agentId option =>
      rw [Consensus.executer]
      split
      · exact hs
      · next h =>
          split
          · exact hs
          · refine hreste _ ?_ (by simp) rfl
            intro hr
            simp [hr] at h
  | lire =>
      rw [Consensus.executer]
      split
      · exact hs
      · exact ⟨hs.atteinte, hs.ouverte⟩
  | ecrire rang =>
      rw [Consensus.executer]
      split
      · exact hs
      · next winner hw =>
          obtain ⟨hvoting, houtcome⟩ := hpas winner hw
          have hs' : Inv r { s with resultats := s.resultats.eraseIdx rang } :=
            ⟨hs.atteinte, hs.ouverte⟩
          exact hs'.conclure (by simp [hvoting]) houtcome
  | tryResolve =>
      rw [Consensus.executer]
      split
      · exact hs
      · next hr =>
          split
          · exact hs
          · next winner hw => exact hs.conclure hr hw
  | cancel =>
      rw [Consensus.executer]
      split
      · exact hs
      · next h => exact hreste _ (fun hr => h (by simp [hr])) (by simp) rfl

section Histoires

variable {h avant milieu suite : List Pas}

theorem apres_concat (r : Reglement) (h : List Pas) (pas : Pas) :
    apres r (h ++ [pas]) = executer r (apres r h) pas := by
  rw [apres, List.foldl_append]
  rfl

theorem Sereine.inv (hh : Sereine r h) (hsuite : h = avant ++ suite) : Inv r (apres r avant) := by
  induction avant using List.reverseRecOn generalizing suite with
  | nil => exact ⟨fun hr => (by cases hr), fun _ => rfl⟩
  | append_singleton avant pas ih =>
      rw [List.append_assoc, List.singleton_append] at hsuite
      rw [apres_concat]
      exact (ih hsuite).executer (hh avant pas suite hsuite)

theorem Sereine.finale (hh : Sereine r h) (hsuite : h = avant ++ milieu ++ suite)
    (hfin : Finale (apres r avant).proposition) :
    (apres r (avant ++ milieu)).proposition = (apres r avant).proposition := by
  induction milieu using List.reverseRecOn generalizing suite with
  | nil => rw [List.append_nil]
  | append_singleton milieu pas ih =>
      rw [← List.append_assoc, List.append_assoc, List.singleton_append] at hsuite
      have hmilieu := ih hsuite
      rw [← List.append_assoc, apres_concat, executer_finale (hh _ pas suite hsuite), hmilieu]
      rwa [hmilieu]

/-- A run in which no outcome is written on a proposal that has changed since, and no cancelled
proposal is resolved. -/
theorem loi_of_sereine (r : Reglement) (h : List Pas) (hh : Sereine r h) : Loi r h where
  stable _ _ _ hsuite hfin := hh.finale hsuite hfin
  uneFois avant suite hsuite := by
    have hinv := hh.inv hsuite
    by_cases hr : (apres r avant).proposition.status = .reached
    · exact (hinv.atteinte hr).1.le
    · rw [hinv.ouverte hr]
      exact Nat.zero_le 1
  accord _ _ hsuite hr := ((hh.inv hsuite).atteinte hr).2

end Histoires

theorem loi_une_voix :
    Loi ⟨["x"], .unanimous, 1, by decide⟩ [.vote "a" "x", .lire, .ecrire 0] := by
  apply loi_of_sereine
  intro avant pas suite hsuite
  match avant, hsuite with
  | [], h =>
      cases h
      trivial
  | [_], h =>
      cases h
      trivial
  | [_, _], h =>
      cases h
      intro winner hw
      cases hw
      decide
  | _ :: _ :: _ :: avant, h =>
      simp at h

/-- A cancellation falls between the vote and the writing of its outcome: it is undone. -/
theorem loi_annulee :
    ¬Loi ⟨["x"], .unanimous, 1, by decide⟩ [.vote "a" "x", .lire, .cancel, .ecrire 0] := by
  intro hloi
  have hstable := hloi.stable [.vote "a" "x", .lire, .cancel] [.ecrire 0] [] rfl (Or.inr (by decide))
  exact absurd hstable (by decide)

end Hermes.Consensus
