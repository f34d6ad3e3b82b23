import Hermes.Lib.Runs
import Hermes.Mission.GraphExecutor
import Mathlib.Algebra.BigOperators.Group.List.Basic
import Mathlib.Algebra.Order.Ring.Unbundled.Rat

/-! # The gate that all missions share

A node enters the gate with the limit its mission has just asked for, waits for a place until its
deadline, runs, and leaves.
-/

namespace Hermes

structure Portillon where
  occupees : Nat := 0
  deriving DecidableEq

namespace Portillon

inductive Tour where
  | entre (apres : Portillon)
  | expire
  | attend
  deriving DecidableEq

/-- One turn of `_entrer`, with the time left before the deadline. -/
def tour (p : Portillon) (limite : Int) (restant : Rat) : Tour :=
  if max 1 limite ≤ p.occupees then
    if restant ≤ 0 then .expire else .attend
  else .entre { occupees := p.occupees + 1 }

def sortir (p : Portillon) : Portillon where
  occupees := p.occupees - 1

theorem tour_entre {p apres : Portillon} {limite : Int} {restant : Rat}
    (h : p.tour limite restant = .entre apres) :
    (p.occupees : Int) < max 1 limite ∧ apres.occupees = p.occupees + 1 := by
  unfold tour at h
  split at h
  · split at h <;> cases h
  · next hfree =>
      cases h
      exact ⟨not_le.mp hfree, rfl⟩

inductive Phase where
  | attend
  | expiree
  | occupe
  /-- `execute_node` has ended, by a return or an exception. -/
  | rendue (succes : Execution)
  deriving DecidableEq

/-- A call of `_executer_sous_portillon`. -/
structure Entree where
  nodeId : String
  limite : Int
  echeance : Rat
  phase : Phase
  deriving DecidableEq

inductive Mouvement where
  | entree (i : Nat)
  | sortie (i : Nat)
  deriving DecidableEq

structure Etat where
  portillon : Portillon := {}
  entrees : List Entree := []
  journal : List Mouvement := []
  deriving DecidableEq

inductive Evenement where
  /-- A mission asks its limit and calls `place` for a node. -/
  | arriver (nodeId : String) (capacite : Capacite) (delaiS maintenant : Rat)
  | essayer (i : Nat) (maintenant : Rat)
  /-- `execute_node` ends in the call at this index. -/
  | terminer (i : Nat) (issue : Execution)

namespace Phase

def tient : Phase → Bool
  | occupe => true
  | attend | expiree | rendue _ => false

def accordees : Phase → Nat
  | occupe | rendue _ => 1
  | attend | expiree => 0

def liberees : Phase → Nat
  | rendue _ => 1
  | attend | expiree | occupe => 0

end Phase

def tenues (s : Etat) : Nat := s.entrees.countP (·.phase.tient)

def limites (s : Etat) : List Int := s.entrees.map (·.limite)

def avancer (s : Etat) (i : Nat) (e : Entree) (phase : Phase) : List Entree :=
  s.entrees.set i { e with phase := phase }

def pas (repli : Int) (s : Etat) : Evenement → Option Etat
  | .arriver nodeId capacite delaiS maintenant =>
      some
        { s with
          entrees := s.entrees ++
            [{ nodeId := nodeId
               limite := GraphExecutor.limiteDeConcurrence repli capacite
               echeance := maintenant + max 0 delaiS
               phase := .attend }] }
  | .essayer i maintenant =>
      match s.entrees[i]? with
      | none => none
      | some e =>
          if e.phase = .attend then
            match s.portillon.tour e.limite (e.echeance - maintenant) with
            | .entre apres =>
                some
                  { portillon := apres
                    entrees := avancer s i e .occupe
                    journal := s.journal ++ [.entree i] }
            | .expire => some { s with entrees := avancer s i e .expiree }
            | .attend => some s
          else none
  | .terminer i issue =>
      match s.entrees[i]? with
      | none => none
      | some e =>
          if e.phase = .occupe ∧ issue ≠ .muet then
            -- the `finally` of `place`, whether the node returned or raised
            some
              { portillon := s.portillon.sortir
                entrees := avancer s i e (.rendue issue)
                journal := s.journal ++ [.sortie i] }
          else none

/-- How often the journal of a state grants and releases a place to each call. -/
structure Comptes (s : Etat) : Prop where
  accordees : ∀ i, s.journal.count (.entree i) = (s.entrees[i]?).elim 0 (·.phase.accordees)
  liberees : ∀ i, s.journal.count (.sortie i) = (s.entrees[i]?).elim 0 (·.phase.liberees)

structure Inv (s : Etat) : Prop where
  occupees : s.portillon.occupees = tenues s
  positives : ∀ l ∈ limites s, 1 ≤ l
  borne : ∀ L, (∀ l ∈ limites s, l ≤ L) → (s.portillon.occupees : Int) ≤ max 1 L
  comptes : Comptes s

theorem limiteDeConcurrence_pos (repli : Int) (capacite : Capacite) :
    1 ≤ GraphExecutor.limiteDeConcurrence repli capacite := by
  cases capacite <;> exact le_max_left 1 _

section Avancer

variable {s : Etat} {i : Nat} {e : Entree} (he : s.entrees[i]? = some e) (phase : Phase)

include he

theorem countP_avancer :
    (avancer s i e phase).countP (·.phase.tient) + (if e.phase.tient then 1 else 0) =
      tenues s + if phase.tient then 1 else 0 := by
  obtain ⟨hi, hget⟩ := List.getElem?_eq_some_iff.mp he
  have hheld : (if e.phase.tient then 1 else 0) ≤ tenues s := by
    split
    · next h => exact List.countP_pos_iff.mpr ⟨e, List.mem_of_getElem? he, h⟩
    · exact Nat.zero_le _
  unfold avancer tenues at *
  rw [List.countP_set hi, hget]
  dsimp only
  omega

theorem limites_avancer : (avancer s i e phase).map (·.limite) = limites s := by
  obtain ⟨hi, hget⟩ := List.getElem?_eq_some_iff.mp he
  have hbound : i < (s.entrees.map (·.limite)).length := by simpa using hi
  have hself : e.limite = (s.entrees.map (·.limite))[i] := by simp [hget]
  unfold avancer limites
  rw [List.map_set, hself, List.set_getElem_self]

theorem comptes_avancer (h : Comptes s) {p : Portillon} {journal : List Mouvement}
    (haccordees : ∀ k, journal.count (.entree k) + (if k = i then e.phase.accordees else 0) =
      s.journal.count (.entree k) + if k = i then phase.accordees else 0)
    (hliberees : ∀ k, journal.count (.sortie k) + (if k = i then e.phase.liberees else 0) =
      s.journal.count (.sortie k) + if k = i then phase.liberees else 0) :
    Comptes { portillon := p, entrees := avancer s i e phase, journal := journal } := by
  obtain ⟨hi, -⟩ := List.getElem?_eq_some_iff.mp he
  have hmoved : (avancer s i e phase)[i]? = some { e with phase := phase } := by
    unfold avancer
    exact List.getElem?_set_self hi
  have hother : ∀ k, k ≠ i → (avancer s i e phase)[k]? = s.entrees[k]? := by
    intro k hk
    unfold avancer
    exact List.getElem?_set_ne (Ne.symm hk)
  constructor
  · intro k
    have hbefore := h.accordees k
    have hmove := haccordees k
    by_cases hk : k = i
    · subst hk
      simp only [he, hmoved, Option.elim_some, if_true] at hbefore hmove ⊢
      omega
    · simp only [hother k hk, if_neg hk] at hmove ⊢
      omega
  · intro k
    have hbefore := h.liberees k
    have hmove := hliberees k
    by_cases hk : k = i
    · subst hk
      simp only [he, hmoved, Option.elim_some, if_true] at hbefore hmove ⊢
      omega
    · simp only [hother k hk, if_neg hk] at hmove ⊢
      omega

theorem inv_avancer (h : Inv s) {p : Portillon} {journal : List Mouvement}
    (hoccupees : p.occupees + (if e.phase.tient then 1 else 0) =
      s.portillon.occupees + if phase.tient then 1 else 0)
    (hborne : p.occupees ≤ s.portillon.occupees ∨ (p.occupees : Int) ≤ e.limite)
    (haccordees : ∀ k, journal.count (.entree k) + (if k = i then e.phase.accordees else 0) =
      s.journal.count (.entree k) + if k = i then phase.accordees else 0)
    (hliberees : ∀ k, journal.count (.sortie k) + (if k = i then e.phase.liberees else 0) =
      s.journal.count (.sortie k) + if k = i then phase.liberees else 0) :
    Inv { portillon := p, entrees := avancer s i e phase, journal := journal } := by
  have hlimites := limites_avancer he phase
  refine ⟨?_, ?_, ?_, comptes_avancer he phase h.comptes haccordees hliberees⟩
  · have hheld := countP_avancer he phase
    have hbefore := h.occupees
    show p.occupees = (avancer s i e phase).countP (·.phase.tient)
    omega
  · intro l hl
    rw [limites, hlimites] at hl
    exact h.positives l hl
  · intro L hL
    rw [limites, hlimites] at hL
    have hbefore := h.borne L hL
    have hown : e.limite ≤ L := hL _ (List.mem_map_of_mem (List.mem_of_getElem? he))
    show (p.occupees : Int) ≤ max 1 L
    omega

end Avancer

theorem count_entree_concat (journal : List Mouvement) (i k : Nat) :
    (journal ++ [Mouvement.entree i]).count (Mouvement.entree k) =
      journal.count (Mouvement.entree k) + if k = i then 1 else 0 := by
  rw [List.count_append, List.count_singleton]
  by_cases hk : k = i
  · simp [hk]
  · simp [hk, Ne.symm hk]

theorem count_sortie_concat (journal : List Mouvement) (i k : Nat) :
    (journal ++ [Mouvement.sortie i]).count (Mouvement.sortie k) =
      journal.count (Mouvement.sortie k) + if k = i then 1 else 0 := by
  rw [List.count_append, List.count_singleton]
  by_cases hk : k = i
  · simp [hk]
  · simp [hk, Ne.symm hk]

theorem inv_vide : Inv {} :=
  ⟨rfl, by simp [limites], fun L _ => by simp, ⟨fun _ => rfl, fun _ => rfl⟩⟩

theorem elim_append {entrees : List Entree} {e : Entree} {f : Phase → Nat} (h : f e.phase = 0)
    (i : Nat) :
    ((entrees ++ [e])[i]?).elim 0 (fun e => f e.phase) =
      (entrees[i]?).elim 0 (fun e => f e.phase) := by
  by_cases hi : i < entrees.length
  · rw [List.getElem?_append_left hi]
  · have hnone : entrees[i]? = none := List.getElem?_eq_none (not_lt.mp hi)
    rw [List.getElem?_append_right (not_lt.mp hi), hnone]
    cases i - entrees.length with
    | zero => exact h
    | succ n => rfl

theorem inv_arriver {repli : Int} {s s' : Etat} (h : Inv s) {nodeId : String}
    {capacite : Capacite} {delaiS maintenant : Rat}
    (hpas : pas repli s (.arriver nodeId capacite delaiS maintenant) = some s') : Inv s' := by
  cases hpas
  have hlimites : ∀ (e : Entree), limites { s with entrees := s.entrees ++ [e] } =
      limites s ++ [e.limite] := fun e => by simp [limites]
  refine ⟨?_, ?_, ?_, ?_, ?_⟩
  · simpa [tenues, Phase.tient] using h.occupees
  · intro l hl
    rw [hlimites] at hl
    rcases List.mem_append.mp hl with hold | hnew
    · exact h.positives l hold
    · rw [List.mem_singleton.mp hnew]
      exact limiteDeConcurrence_pos repli capacite
  · intro L hL
    rw [hlimites] at hL
    exact h.borne L fun l hl => hL l (List.mem_append_left _ hl)
  · intro i
    rw [elim_append rfl]
    exact h.comptes.accordees i
  · intro i
    rw [elim_append rfl]
    exact h.comptes.liberees i

theorem inv_essayer {repli : Int} {s s' : Etat} (h : Inv s) {i : Nat} {maintenant : Rat}
    (hpas : pas repli s (.essayer i maintenant) = some s') : Inv s' := by
  unfold pas at hpas
  dsimp only at hpas
  split at hpas
  · cases hpas
  · next e he =>
      split at hpas
      · next hphase =>
          split at hpas
          · next apres htour =>
              cases hpas
              obtain ⟨hfree, hplus⟩ := tour_entre htour
              have hlimite := h.positives e.limite (List.mem_map_of_mem (List.mem_of_getElem? he))
              apply inv_avancer he .occupe h
              · simp [hphase, Phase.tient, hplus]
              · omega
              · intro k
                rw [count_entree_concat]
                simp [hphase, Phase.accordees]
              · intro k
                simp [hphase, Phase.liberees, List.count_append]
          · cases hpas
            apply inv_avancer he .expiree h
            · simp [hphase, Phase.tient]
            · exact Or.inl (le_refl _)
            · intro k
              simp [hphase, Phase.accordees]
            · intro k
              simp [hphase, Phase.liberees]
          · cases hpas
            exact h
      · cases hpas

theorem inv_terminer {repli : Int} {s s' : Etat} (h : Inv s) {i : Nat} {issue : Execution}
    (hpas : pas repli s (.terminer i issue) = some s') : Inv s' := by
  unfold pas at hpas
  dsimp only at hpas
  split at hpas
  · cases hpas
  · next e he =>
      split at hpas
      · next hphase =>
          cases hpas
          have hheld := countP_avancer he (.rendue issue)
          have hbefore := h.occupees
          simp only [hphase.1, Phase.tient, if_true, Bool.false_eq_true, if_false] at hheld
          apply inv_avancer he (.rendue issue) h
          · simp only [hphase.1, Phase.tient, if_true, Bool.false_eq_true, if_false, sortir]
            omega
          · exact Or.inl (Nat.sub_le _ _)
          · intro k
            simp [hphase.1, Phase.accordees, List.count_append]
          · intro k
            rw [count_sortie_concat]
            simp [hphase.1, Phase.liberees]
      · cases hpas

theorem pas_inv {repli : Int} {s s' : Etat} {ev : Evenement} (h : Inv s)
    (hpas : pas repli s ev = some s') : Inv s' := by
  cases ev with
  | arriver nodeId capacite delaiS maintenant => exact inv_arriver h hpas
  | essayer i maintenant => exact inv_essayer h hpas
  | terminer i issue => exact inv_terminer h hpas

theorem accord_sous_limite {repli : Int} {s s' : Etat} {ev : Evenement} (h : Inv s)
    (hpas : pas repli s ev = some s') {i : Nat}
    (haccord : s.journal.count (.entree i) < s'.journal.count (.entree i)) :
    ∃ e, s.entrees[i]? = some e ∧ (tenues s : Int) < e.limite := by
  cases ev with
  | arriver nodeId capacite delaiS maintenant =>
      cases hpas
      exact absurd haccord (lt_irrefl _)
  | terminer k issue =>
      unfold pas at hpas
      dsimp only at hpas
      split at hpas
      · cases hpas
      · split at hpas
        · cases hpas
          simp [List.count_append] at haccord
        · cases hpas
  | essayer k maintenant =>
      unfold pas at hpas
      dsimp only at hpas
      split at hpas
      · cases hpas
      · next e he =>
          split at hpas
          · split at hpas
            · next apres htour =>
                cases hpas
                rw [count_entree_concat] at haccord
                by_cases hik : i = k
                · subst hik
                  have hfree := (tour_entre htour).1
                  have hpos := h.positives e.limite
                    (List.mem_map_of_mem (List.mem_of_getElem? he))
                  refine ⟨e, he, ?_⟩
                  rw [← h.occupees]
                  omega
                · rw [if_neg hik] at haccord
                  exact absurd haccord (lt_irrefl _)
            · cases hpas
              exact absurd haccord (lt_irrefl _)
            · cases hpas
              exact absurd haccord (lt_irrefl _)
          · cases hpas

/-- Over every interleaving of the nodes of any missions: a place is granted only below the
limit the call passed, the gate counts the places granted and not released, a call whose
node has ended has released the one place it was granted, and no more nodes run at once than
the largest limit passed. -/
theorem portillon_sur {repli : Int} {evs : List Evenement} {s : Etat}
    (hrun : Lib.run (pas repli) {} evs = some s) :
    (∀ ev s', pas repli s ev = some s' → ∀ i,
        s.journal.count (.entree i) < s'.journal.count (.entree i) →
          ∃ e, s.entrees[i]? = some e ∧ (tenues s : Int) < e.limite) ∧
      s.portillon.occupees = tenues s ∧
      (∀ i e, s.entrees[i]? = some e →
        s.journal.count (.entree i) = e.phase.accordees ∧
          s.journal.count (.sortie i) = e.phase.liberees) ∧
      ∀ L, (∀ e ∈ s.entrees, e.limite = L) → (tenues s : Int) ≤ max 1 L := by
  have hinv : Inv s :=
    Lib.run_invariant (fun _ _ _ h hpas => pas_inv h hpas) inv_vide hrun
  refine ⟨fun ev s' hpas i hi => accord_sous_limite hinv hpas hi, hinv.occupees, ?_, ?_⟩
  · intro i e he
    have haccordees := hinv.comptes.accordees i
    have hliberees := hinv.comptes.liberees i
    rw [he] at haccordees hliberees
    exact ⟨haccordees, hliberees⟩
  · intro L hL
    rw [← hinv.occupees]
    refine hinv.borne L fun l hl => ?_
    obtain ⟨e, he, rfl⟩ := List.mem_map.mp hl
    exact le_of_eq (hL e he)

/-- Two missions, a limit of one: the second node enters once the first, which raises, has
left. -/
theorem portillon_sur_deuxMissions :
    ∃ s, Lib.run (pas 1) {}
        [.arriver "a" .nonCablee 10 0, .arriver "b" .nonCablee 10 0, .essayer 0 0,
          .terminer 0 .leve, .essayer 1 1] = some s ∧
      s.portillon.occupees = 1 ∧ s.journal = [.entree 0, .sortie 0, .entree 1] ∧
      (tenues s : Int) ≤ max 1 1 := by
  have hrun : ∃ s, Lib.run (pas 1) {}
      [.arriver "a" .nonCablee 10 0, .arriver "b" .nonCablee 10 0, .essayer 0 0, .terminer 0 .leve,
        .essayer 1 1] = some s ∧
      s.portillon.occupees = 1 ∧ s.journal = [.entree 0, .sortie 0, .entree 1] ∧
      ∀ e ∈ s.entrees, e.limite = 1 := ⟨_, rfl, rfl, rfl, by decide⟩
  obtain ⟨s, hs, hocc, hjournal, hlimites⟩ := hrun
  exact ⟨s, hs, hocc, hjournal, (portillon_sur hs).2.2.2 1 hlimites⟩

section Vidange

variable {s : Etat}

/-- The entry and the exit that a call has before it. -/
def Phase.reste : Phase → Nat
  | attend => 2
  | occupe => 1
  | expiree | rendue _ => 0

def reste (entrees : List Entree) : Nat := (entrees.map (·.phase.reste)).sum

def expirees (entrees : List Entree) : List Bool := entrees.map (·.phase = .expiree)

/-- No call arrives, and the clock reads `instant`. -/
def Evenement.vide (instant : Rat) : Evenement → Prop
  | .arriver .. => False
  | .essayer _ maintenant => maintenant = instant
  | .terminer .. => True

section Avancer

variable {i : Nat} {e : Entree} (he : s.entrees[i]? = some e)

include he

theorem reste_avancer (phase : Phase) :
    reste (avancer s i e phase) + e.phase.reste = reste s.entrees + phase.reste := by
  obtain ⟨hi, rfl⟩ := List.getElem?_eq_some_iff.mp he
  have hborne : i < (s.entrees.map (·.phase.reste)).length := by simpa using hi
  have hplace := List.sum_take_add_sum_drop (s.entrees.map (·.phase.reste)) i
  rw [List.drop_eq_getElem_cons hborne, List.sum_cons, List.getElem_map] at hplace
  rw [reste, avancer, List.map_set, List.sum_set, if_pos hborne, reste]
  dsimp only at hplace ⊢
  omega

theorem expirees_avancer {phase : Phase} (havant : e.phase ≠ .expiree) (hapres : phase ≠ .expiree) :
    expirees (avancer s i e phase) = expirees s.entrees := by
  obtain ⟨hi, rfl⟩ := List.getElem?_eq_some_iff.mp he
  have hborne : i < (expirees s.entrees).length := by simpa [expirees] using hi
  have hvaleur : (expirees s.entrees)[i] = false := by simp [expirees, havant]
  rw [expirees, avancer, List.map_set, decide_eq_false hapres, ← hvaleur]
  exact List.set_getElem_self hborne

end Avancer

theorem pas_vidange (repli : Int) (instant : Rat) (h : Inv s) (hreste : reste s.entrees ≠ 0) :
    ∃ ev : Evenement, ev.vide instant ∧ ∃ s', pas repli s ev = some s' ∧
      reste s'.entrees + 1 = reste s.entrees ∧ expirees s'.entrees = expirees s.entrees := by
  by_cases htenue : ∃ e ∈ s.entrees, e.phase = .occupe
  · obtain ⟨e, hmem, hphase⟩ := htenue
    obtain ⟨i, he⟩ := List.mem_iff_getElem?.mp hmem
    have hmoins := reste_avancer he (.rendue .leve)
    rw [hphase] at hmoins
    exact ⟨.terminer i .leve, trivial,
      { portillon := _, entrees := avancer s i e (.rendue .leve), journal := _ },
      by rw [pas, he]; simp only [hphase]; rfl, hmoins,
      expirees_avancer he (by simp [hphase]) (by decide)⟩
  · -- the gate is empty: a call that waits enters, whatever its limit and its deadline
    have hlibre : s.portillon.occupees = 0 := by
      rw [h.occupees, tenues, List.countP_eq_zero]
      intro e hmem htient
      cases hphase : e.phase <;> rw [hphase] at htient <;> cases htient
      exact htenue ⟨e, hmem, hphase⟩
    obtain ⟨e, hmem, hphase⟩ : ∃ e ∈ s.entrees, e.phase = .attend := by
      by_contra hattend
      refine hreste (List.sum_eq_zero_iff_forall_eq_nat.mpr fun n hn => ?_)
      obtain ⟨e, hmem, rfl⟩ := List.mem_map.mp hn
      cases hphase : e.phase with
      | attend => exact absurd ⟨e, hmem, hphase⟩ hattend
      | occupe => exact absurd ⟨e, hmem, hphase⟩ htenue
      | expiree | rendue => rfl
    obtain ⟨i, he⟩ := List.mem_iff_getElem?.mp hmem
    have htour : s.portillon.tour e.limite (e.echeance - instant) =
        .entre { occupees := s.portillon.occupees + 1 } :=
      if_neg (by omega)
    have hmoins := reste_avancer he .occupe
    rw [hphase] at hmoins
    exact ⟨.essayer i instant, rfl,
      { portillon := _, entrees := avancer s i e .occupe, journal := _ },
      by rw [pas, he]; simp only [hphase, if_true, htour]; rfl, Nat.succ.inj hmoins,
      expirees_avancer he (by simp [hphase]) (by decide)⟩

theorem run_vidange (repli : Int) (instant : Rat) (h : Inv s) :
    ∃ suite : List Evenement, (∀ ev ∈ suite, ev.vide instant) ∧
      suite.length = reste s.entrees ∧ ∃ s', Lib.run (pas repli) s suite = some s' ∧
        expirees s'.entrees = expirees s.entrees ∧ reste s'.entrees = 0 := by
  induction hn : reste s.entrees generalizing s with
  | zero => exact ⟨[], by simp, rfl, s, rfl, rfl, hn⟩
  | succ n ih =>
      obtain ⟨ev, hev, s₁, hpas, hreste, hexpirees⟩ := pas_vidange repli instant h (by omega)
      obtain ⟨suite, hsuite, hlongueur, s', hrun, hgardees, hfin⟩ := ih (pas_inv h hpas) (by omega)
      exact ⟨ev :: suite, List.forall_mem_cons.mpr ⟨hev, hsuite⟩, congrArg _ hlongueur, s',
        Lib.run_cons_eq_some.mpr ⟨s₁, hpas, hrun⟩, hgardees.trans hexpirees, hfin⟩

/-- Whatever the missions have done and whatever the clock reads, the gate can empty: in one step
for each entry and each exit that is left, every call that waits gets a place, and none expires. -/
theorem portillon_se_vide {repli : Int} {evs : List Evenement}
    (hrun : Lib.run (pas repli) {} evs = some s) (instant : Rat) :
    ∃ suite : List Evenement, (∀ ev ∈ suite, ev.vide instant) ∧
      suite.length = reste s.entrees ∧ ∃ s', Lib.run (pas repli) s suite = some s' ∧
        expirees s'.entrees = expirees s.entrees ∧ s'.portillon.occupees = 0 ∧
          ∀ e ∈ s'.entrees, e.phase = .expiree ∨ ∃ issue, e.phase = .rendue issue := by
  have hinv : Inv s := Lib.run_invariant (fun _ _ _ h hpas => pas_inv h hpas) inv_vide hrun
  obtain ⟨suite, hvide, hlongueur, s', hsuite, hexpirees, hfin⟩ := run_vidange repli instant hinv
  have hinv' : Inv s' := Lib.run_invariant (fun _ _ _ h hpas => pas_inv h hpas) hinv hsuite
  have hfinies (e : Entree) (he : e ∈ s'.entrees) :
      e.phase = .expiree ∨ ∃ issue, e.phase = .rendue issue := by
    have hzero : e.phase.reste = 0 :=
      List.sum_eq_zero_iff_forall_eq_nat.mp hfin _ (List.mem_map_of_mem he)
    cases hphase : e.phase with
    | attend | occupe => rw [hphase] at hzero; cases hzero
    | expiree => exact .inl rfl
    | rendue issue => exact .inr ⟨issue, rfl⟩
  refine ⟨suite, hvide, hlongueur, s', hsuite, hexpirees, ?_, hfinies⟩
  rw [hinv'.occupees, tenues, List.countP_eq_zero]
  intro e he
  rcases hfinies e he with hphase | ⟨_, hphase⟩ <;> simp [hphase, Phase.tient]

/-- One node runs and another waits, with a limit of one: three steps, after every deadline. -/
theorem portillon_se_vide_deuxNoeuds :
    ∃ s, Lib.run (pas 1) {}
        [.arriver "a" .nonCablee 10 0, .arriver "b" .nonCablee 10 0, .essayer 0 0] = some s ∧
      ∃ suite : List Evenement, suite.length = 3 ∧ (∀ ev ∈ suite, ev.vide 100) ∧
        ∃ s', Lib.run (pas 1) s suite = some s' ∧ expirees s'.entrees = [false, false] := by
  have hrun : ∃ s, Lib.run (pas 1) {}
      [.arriver "a" .nonCablee 10 0, .arriver "b" .nonCablee 10 0, .essayer 0 0] = some s ∧
      reste s.entrees = 3 ∧ expirees s.entrees = [false, false] := ⟨_, rfl, rfl, by decide⟩
  obtain ⟨s, hs, hreste, hexpirees⟩ := hrun
  obtain ⟨suite, hvide, hlongueur, s', hsuite, hgardees, -, -⟩ := portillon_se_vide hs 100
  exact ⟨s, hs, suite, hlongueur.trans hreste, hvide, s', hsuite, hgardees.trans hexpirees⟩

end Vidange

end Portillon

end Hermes
