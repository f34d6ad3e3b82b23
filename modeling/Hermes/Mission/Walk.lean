import Hermes.Mission.StepRefinement

/-! # The walk of a mission

`_run_mission_steps` calls `execute_step` until the mission is terminal, paused, out of ready
nodes or at the pass ceiling, then prepares a second attempt when the workspace contradicted the
result.
-/

namespace Hermes

open DependencyResolver GraphExecutor

def maxExecutionPasses : Nat := 100

def estTerminal : MissionStatus → Bool
  | .completed => true
  | .failed => true
  | .cancelled => true
  | _ => false

structure Tentative where
  place : String → Bool
  executeNode : String → Execution
  capacite : Nat → Capacite
  horloge : Nat → Instant
  verification : Bool → Option MissionVerification
  reprise : Instant

namespace Tentative

def passe (t : Tentative) (k : Nat) : Passe where
  place := t.place
  executeNode := t.executeNode
  capacite := t.capacite k
  maintenant := t.horloge k
  verification := t.verification

def reussit (t : Tentative) (nodeId : String) : Bool :=
  t.place nodeId && decide (t.executeNode nodeId = .rend true)

end Tentative

structure Marche where
  mission : Mission
  executed : Nat
  passes : Nat
  deriving DecidableEq

/-- The loop of `_run_mission_steps`, with the passes left as fuel. -/
def marcher (repli : Int) (t : Tentative) : Nat → Marche → Option Marche
  | 0, s => some s
  | fuel + 1, s =>
      if estTerminal s.mission.status ∨ s.mission.status = .paused then some s
      else
        match executeStep repli (t.passe s.passes) s.mission with
        | none => none
        | some e =>
            if e.count = 0 then some { s with mission := e.mission, passes := s.passes + 1 }
            else
              marcher repli t fuel
                { mission := e.mission
                  executed := s.executed + e.count
                  passes := s.passes + 1 }

def remettreEnAttente (n : MissionNode) : MissionNode :=
  { n with status := .pending, resultSummary := "" }

/-- What a retry writes on the mission before rebuilding its graph. -/
def preparee (m : Mission) (brief : String) : Mission :=
  { m with
    objective := brief
    metadata :=
      { m.metadata with
        retryBrief := none
        attempts := some (m.metadata.attempts.getD 1 + 1)
        originalObjective :=
          some (m.metadata.originalObjective.getD (Lib.Texte.ou m.objective m.description)) } }

/-- `preparer_reprise`: pops the brief and, when there is one, puts the mission back to its start.
-/
def preparerReprise (m : Mission) (now : Instant) : Mission × Bool :=
  let popped := { m with metadata := { m.metadata with retryBrief := none } }
  match m.metadata.retryBrief with
  | none => (popped, false)
  | some brief =>
      if brief = "" then (popped, false)
      else
        let built := (buildGraph (preparee m brief) (m.nodes.map remettreEnAttente) m.edges).1
        startMission { built with status := .ready } now

/-- The mission at the end of the walk, the nodes executed over all attempts, and the
passes of the last one. -/
structure Bilan where
  mission : Mission
  executed : Nat
  passes : Nat
  deriving DecidableEq

/-- `_run_mission_steps` with `_run_retry_if_suggested`: the fuel bounds the number of
attempts, `none` also stands for a step that never ends. -/
def runMissionSteps (repli : Int) : Nat → (Nat → Tentative) → Mission → Option Bilan
  | 0, _, _ => none
  | fuel + 1, ts, m =>
      let depart : Marche := { mission := m, executed := 0, passes := 0 }
      match marcher repli (ts 0) maxExecutionPasses depart with
      | none => none
      | some s =>
          if estTerminal s.mission.status then
            match preparerReprise s.mission (ts 0).reprise with
            | (m', true) =>
                (runMissionSteps repli fuel (fun k => ts (k + 1)) m').map fun b =>
                  { b with executed := s.executed + b.executed }
            | (m', false) => some { mission := m', executed := s.executed, passes := s.passes }
          else some { mission := s.mission, executed := s.executed, passes := s.passes }

/-- The statuses are those of a walk of this attempt that started with every node
PENDING. -/
def ExpliqueePar (t : Tentative) (m : Mission) : Prop :=
  DagWalk.Expliquee (fun v => v ∈ m.nodeIds) m.precede (fun v => t.reussit v = true) m.statut

/-- A mission under way: built, accepted, every status explained by the outcomes, and not yet
closed. -/
structure EnMarche (t : Tentative) (m : Mission) : Prop where
  construite : m.Construite
  valide : MissionGraph.Valide m
  expliquee : ExpliqueePar t m
  running : m.status = .running
  ouverte : toutCompte m = true → m.nodes = []

/-- The mission a walk is about to close: every node is counted. -/
structure Comptee (t : Tentative) (m marked : Mission) : Prop where
  squelette : marked.squelette = m.squelette
  enveloppe : marked.enveloppe = m.enveloppe
  expliquee : ExpliqueePar t marked
  compte : toutCompte marked = true
  non_vide : marked.nodes ≠ []

/-- The mission the completion block leaves at pass `k`. -/
def fermee (t : Tentative) (k : Nat) (marked : Mission) : Mission :=
  cloturer (t.passe k) (allSuccess marked) marked

theorem precede_source_mem {m : Mission} (hm : MissionGraph.Valide m) :
    ∀ u v, m.precede u v → u ∈ m.nodeIds :=
  fun u v huv => hm.source_mem (u, v) huv

def Reglees (m : Mission) : Prop :=
  ∀ v, v ∈ m.nodeIds → m.statut v = .completed ∨ m.statut v = .failed

theorem toutCompte_iff {m : Mission} {t : Tentative} (hnodup : m.nodeIds.Nodup)
    (he : ExpliqueePar t m) : toutCompte m = true ↔ Reglees m := by
  simp only [toutCompte, getProgress, decide_eq_true_eq, total_le_counts_iff]
  constructor
  · intro h v hv
    obtain ⟨n, hn, rfl⟩ := List.mem_map.mp hv
    have hstatus := h n hn
    rw [← m.statut_of_mem hnodup hn] at hstatus
    rcases hstatus with hs | hs | hs
    · exact Or.inl hs
    · exact Or.inr hs
    · rcases he.connu n.nodeId hv with hc | hc | hc | hc <;> simp [hs] at hc
  · intro h n hn
    rw [← m.statut_of_mem hnodup hn]
    rcases h n.nodeId (List.mem_map.mpr ⟨n, hn, rfl⟩) with hs | hs
    · exact Or.inl hs
    · exact Or.inr (Or.inl hs)

theorem enMarche_of_pending {t : Tentative} {m : Mission} (hconstruite : m.Construite)
    (hvalide : MissionGraph.Valide m) (hpending : ∀ n ∈ m.nodes, n.status = .pending)
    (hrunning : m.status = .running) : EnMarche t m := by
  have hstatut : ∀ v, v ∈ m.nodeIds → m.statut v = .pending := fun v hv =>
    m.statut_eq_pending hpending hv
  have hexpliquee : ExpliqueePar t m :=
    DagWalk.expliquee_of_pending hstatut (precede_source_mem hvalide)
  refine ⟨hconstruite, hvalide, hexpliquee, hrunning, fun hcompte => ?_⟩
  have hsettled := (toutCompte_iff hconstruite.nodup hexpliquee).mp hcompte
  by_contra hne
  obtain ⟨n, hn⟩ := List.exists_mem_of_ne_nil _ hne
  have hmem : n.nodeId ∈ m.nodeIds := List.mem_map.mpr ⟨n, hn, rfl⟩
  have hs := hsettled n.nodeId hmem
  simp [hstatut n.nodeId hmem] at hs

theorem enMarche_pass {repli : Int} {t : Tentative} {k : Nat} {m : Mission} {e : Etape}
    (hm : EnMarche t m) (h : executeStep repli (t.passe k) m = some e) (hcount : e.count ≠ 0) :
    (EnMarche t e.mission ∧ e.mission.squelette = m.squelette ∧
        e.mission.enveloppe = m.enveloppe) ∨
      ∃ marked, Comptee t m marked ∧ e.mission = fermee t k marked := by
  obtain ⟨marked, hmarked, hmission, hlength, -⟩ := executeStep_eq_some h
  obtain ⟨hpas, hsquelette, henveloppe⟩ := etapeMarquee_spec hm.construite hmarked
  have hexpliquee : ExpliqueePar t marked := by
    have hnext := hpas.expliquee hm.expliquee
    rw [ExpliqueePar, Mission.precede_eq_of_squelette hsquelette,
      Mission.nodeIds_eq_of_squelette hsquelette]
    exact hnext
  have hpositive : 0 < e.count := Nat.pos_of_ne_zero hcount
  by_cases hcompte : toutCompte marked = true
  · refine Or.inr ⟨marked, ⟨hsquelette, henveloppe, hexpliquee, hcompte, ?_⟩, ?_⟩
    · intro hnil
      have hids := Mission.nodeIds_eq_of_squelette hsquelette
      rw [Mission.nodeIds, hnil, List.map_nil] at hids
      have hnodes : m.nodes = [] := List.map_eq_nil_iff.mp hids.symm
      rw [hlength, getReadyNodes, hnodes] at hcount
      exact hcount rfl
    · rw [hmission, if_pos ⟨hpositive, hcompte⟩, fermee]
  · have hsame : e.mission = marked := by
      rw [hmission, if_neg (fun hboth => hcompte hboth.2)]
    rw [hsame]
    refine Or.inl ⟨⟨?_, ?_, hexpliquee, ?_, ?_⟩, hsquelette, henveloppe⟩
    · exact Mission.construite_of_squelette hsquelette hm.construite
    · exact Mission.valide_of_squelette hsquelette hm.valide
    · exact (Mission.status_eq_of_enveloppe henveloppe).trans hm.running
    · exact fun hfull => absurd hfull hcompte

theorem cloturer_of_running {p : Passe} {success : Bool} {m : Mission} (h : m.status = .running) :
    cloturer p success m = suggestRetry (fermer p success m) (p.verification success) := by
  rw [cloturer, if_pos (by simp [h])]

theorem cloturer_status {p : Passe} {success : Bool} {m : Mission} (h : m.status = .running) :
    (cloturer p success m).status = if success then .completed else .failed := by
  rw [cloturer_of_running h, (suggestRetry_frame _ _).2.2.1]
  rfl

theorem estTerminal_fermee {t : Tentative} {k : Nat} {marked : Mission}
    (h : marked.status = .running) : estTerminal (fermee t k marked).status = true := by
  rw [fermee, cloturer_status h]
  split <;> rfl

theorem marcher_spec {repli : Int} {t : Tentative} {fuel : Nat} {s s' : Marche}
    (hm : EnMarche t s.mission) (h : marcher repli t fuel s = some s') :
    (EnMarche t s'.mission ∧ s'.mission.squelette = s.mission.squelette ∧
        s'.mission.enveloppe = s.mission.enveloppe ∧
        (s'.passes = s.passes + fuel ∨
          ∀ v, ¬ DagWalk.Pret s'.mission.precede s'.mission.statut v)) ∨
      ∃ k marked, Comptee t s.mission marked ∧ s'.mission = fermee t k marked := by
  induction fuel generalizing s with
  | zero =>
      cases h
      exact Or.inl ⟨hm, rfl, rfl, Or.inl rfl⟩
  | succ fuel ih =>
      rw [marcher, if_neg (by simp [hm.running, estTerminal])] at h
      split at h
      · cases h
      · next e he =>
          by_cases hcount : e.count = 0
          · rw [if_pos hcount] at h
            cases h
            have hsame := executeStep_mission_of_count_eq_zero he hcount
            obtain ⟨-, -, -, hlength, -⟩ := executeStep_eq_some he
            have hnone := (count_eq_zero_iff hm.construite).mp (hlength ▸ hcount)
            left
            rw [hsame]
            exact ⟨hm, rfl, rfl, Or.inr hnone⟩
          · rw [if_neg hcount] at h
            rcases enMarche_pass hm he hcount with ⟨hnext, hsquelette, henveloppe⟩ | hclosed
            · rcases ih (s := ⟨e.mission, s.executed + e.count, s.passes + 1⟩) hnext h with
                ⟨hlast, hsq, henv, hstop⟩ | ⟨k, marked, hmarked, heq⟩
              · refine Or.inl ⟨hlast, hsq.trans hsquelette, henv.trans henveloppe, ?_⟩
                rcases hstop with hstop | hstop
                · left
                  simp only at hstop
                  omega
                · exact Or.inr hstop
              · refine Or.inr ⟨k, marked, ?_, heq⟩
                exact ⟨hmarked.squelette.trans hsquelette, hmarked.enveloppe.trans henveloppe,
                  hmarked.expliquee, hmarked.compte, hmarked.non_vide⟩
            · obtain ⟨marked, hmarked, hmission⟩ := hclosed
              have hrunning : marked.status = .running :=
                (Mission.status_eq_of_enveloppe hmarked.enveloppe).trans hm.running
              have hterminal := estTerminal_fermee (t := t) (k := s.passes) hrunning
              have hstop : s'.mission = e.mission := by
                cases fuel with
                | zero =>
                    cases h
                    rfl
                | succ fuel =>
                    rw [marcher, if_pos (by simp [hmission, hterminal])] at h
                    cases h
                    rfl
              exact Or.inr ⟨s.passes, marked, hmarked, hstop.trans hmission⟩

/-- What the walk owes to whoever reads the mission afterwards: a terminal status,
COMPLETED exactly when every node is COMPLETED, FAILED as soon as one failed. -/
def Reglee (m : Mission) : Prop :=
  (m.status = .completed ∨ m.status = .failed) ∧
    (m.status = .completed ↔ ∀ n ∈ m.nodes, n.status = .completed) ∧
    ((∃ n ∈ m.nodes, n.status = .failed) → m.status = .failed)

/-- The mission has nodes and every node that precedes another one succeeds. -/
def SourcesReussissent (t : Tentative) (m : Mission) : Prop :=
  m.nodes ≠ [] ∧ ∀ e ∈ m.edges, t.reussit e.sourceId = true

theorem reglee_congr {m m' : Mission} (hstatus : m'.status = m.status)
    (hnodes : m'.nodes = m.nodes) : Reglee m' ↔ Reglee m := by
  rw [Reglee, Reglee, hstatus, hnodes]

theorem reglee_fermee {t : Tentative} {k : Nat} {m marked : Mission} (hm : EnMarche t m)
    (h : Comptee t m marked) : Reglee (fermee t k marked) := by
  have hrunning : marked.status = .running :=
    (Mission.status_eq_of_enveloppe h.enveloppe).trans hm.running
  have hnodup : marked.nodeIds.Nodup :=
    Mission.nodeIds_eq_of_squelette h.squelette ▸ hm.construite.nodup
  have hsettled := (toutCompte_iff hnodup h.expliquee).mp h.compte
  have hnode : ∀ n ∈ marked.nodes, n.status = .completed ∨ n.status = .failed := by
    intro n hn
    rw [← marked.statut_of_mem hnodup hn]
    exact hsettled n.nodeId (List.mem_map.mpr ⟨n, hn, rfl⟩)
  have hfailed : allSuccess marked = true ↔ ∀ n ∈ marked.nodes, n.status ≠ .failed := by
    simp [allSuccess, getProgress, List.countP_eq_zero]
  rw [Reglee, fermee, cloturer_status hrunning, (cloturer_nodes _ _ marked).1]
  by_cases hzero : allSuccess marked = true
  · have hnone := hfailed.mp hzero
    rw [if_pos hzero]
    refine ⟨Or.inl rfl, ⟨fun _ n hn => (hnode n hn).resolve_right (hnone n hn), fun _ => rfl⟩, ?_⟩
    rintro ⟨n, hn, hbad⟩
    exact absurd hbad (hnone n hn)
  · rw [if_neg hzero]
    refine ⟨Or.inr rfl, ⟨fun hne => MissionStatus.noConfusion hne, fun hall => ?_⟩, fun _ => rfl⟩
    exact absurd (hfailed.mpr fun n hn => by simp [hall n hn]) hzero

theorem sources_of_comptee {t : Tentative} {m marked : Mission} (hm : EnMarche t m)
    (h : Comptee t m marked) : SourcesReussissent t m := by
  have hids := Mission.nodeIds_eq_of_squelette h.squelette
  have hprecede := Mission.precede_eq_of_squelette h.squelette
  have hnodup : marked.nodeIds.Nodup := hids ▸ hm.construite.nodup
  have hsettled := (toutCompte_iff hnodup h.expliquee).mp h.compte
  refine ⟨fun hnil => h.non_vide ?_, fun e he => ?_⟩
  · rw [Mission.nodeIds, Mission.nodeIds, hnil, List.map_nil] at hids
    exact List.map_eq_nil_iff.mp hids
  · have harc : (e.sourceId, e.targetId) ∈ m.arcs := List.mem_map.mpr ⟨e, he, rfl⟩
    have htarget : e.targetId ∈ marked.nodeIds := hids ▸ hm.valide.target_mem _ harc
    have hends : ∀ u v, marked.precede u v → u ∈ marked.nodeIds := by
      rw [hids, hprecede]
      exact precede_source_mem hm.valide
    exact DagWalk.reussit_of_settled h.expliquee hends (u := e.sourceId) (v := e.targetId)
      (by rw [hprecede]; exact harc) htarget (hsettled _ htarget)

theorem not_sources_of_no_pret {t : Tentative} {m : Mission} (hm : EnMarche t m)
    (hnone : ∀ v, ¬ DagWalk.Pret m.precede m.statut v) : ¬ SourcesReussissent t m := by
  rintro ⟨hne, hsources⟩
  obtain ⟨rank, hrank⟩ := hm.valide.ranked
  have hprecede : ∀ u v, m.precede u v → t.reussit u = true := by
    intro u v huv
    obtain ⟨e, he, heq⟩ := List.mem_map.mp huv
    obtain ⟨rfl, -⟩ := Prod.mk.inj heq
    exact hsources e he
  have hsettled := DagWalk.settled_of_no_pret hm.expliquee (precede_source_mem hm.valide)
    (fun u v huv => hrank (u, v) huv) hprecede fun v _ => hnone v
  exact hne (hm.ouverte ((toutCompte_iff hm.construite.nodup hm.expliquee).mpr hsettled))

/-- The first attempt of a mission is retried for a brief already on it; any attempt
is retried for a verification that contradicts it, within the limit. -/
def Relance (m : Mission) (ts : Nat → Tentative) (j : Nat) : Prop :=
  (j = 0 ∧ ∃ brief, m.metadata.retryBrief = some brief ∧ brief ≠ "") ∨
    m.metadata.attempts.getD 1 + j < RetryPolicy.defaultMaxAttempts ∧
      ∃ v, (ts j).verification (m.nodeIds.all (ts j).reussit) = some v ∧ v.contradicted = true

theorem preparerReprise_eq_true {m : Mission} {now : Instant} :
    (preparerReprise m now).2 = true ↔
      ∃ brief, m.metadata.retryBrief = some brief ∧ brief ≠ "" := by
  unfold preparerReprise
  cases hbrief : m.metadata.retryBrief with
  | none => simp
  | some brief =>
      by_cases hempty : brief = ""
      · simp [hempty]
      · simp [hempty, startMission]

theorem preparerReprise_of_false {m : Mission} {now : Instant}
    (h : (preparerReprise m now).2 = false) :
    (preparerReprise m now).1.status = m.status ∧ (preparerReprise m now).1.nodes = m.nodes := by
  unfold preparerReprise at h ⊢
  cases hbrief : m.metadata.retryBrief with
  | none => exact ⟨rfl, rfl⟩
  | some brief =>
      by_cases hempty : brief = ""
      · simp [hempty]
      · simp [hbrief, hempty, startMission] at h

theorem preparerReprise_mission {m : Mission} {now : Instant} {brief : String}
    (hbrief : m.metadata.retryBrief = some brief) (hne : brief ≠ "") :
    (preparerReprise m now).1 =
      { construire (preparee m brief) (m.nodes.map remettreEnAttente) m.edges with
        status := .running
        startedAt := some now } := by
  have hbuilt := buildGraph_with_status (preparee m brief) (m.nodes.map remettreEnAttente)
    m.edges .ready
  have hstart := congrArg (fun built => (startMission built now).1) hbuilt
  have hunfold : (preparerReprise m now).1 = (startMission
      { (buildGraph (preparee m brief) (m.nodes.map remettreEnAttente) m.edges).1 with
        status := .ready } now).1 := by
    simp [preparerReprise, hbrief, hne]
  rw [hunfold]
  exact hstart

theorem preparerReprise_of_true {m : Mission} {now : Instant} {t : Tentative}
    (hvalide : MissionGraph.Valide m) (h : (preparerReprise m now).2 = true) :
    EnMarche t (preparerReprise m now).1 ∧
      (preparerReprise m now).1.nodeIds = m.nodeIds ∧
      (preparerReprise m now).1.edges = m.edges ∧
      (preparerReprise m now).1.metadata.retryBrief = none ∧
      (preparerReprise m now).1.metadata.attempts = some (m.metadata.attempts.getD 1 + 1) := by
  obtain ⟨brief, hbrief, hne⟩ := preparerReprise_eq_true.mp h
  have hids : (preparerReprise m now).1.nodeIds = m.nodeIds := by
    rw [preparerReprise_mission hbrief hne]
    refine (nodeIds_construire _ _ _).trans ?_
    simp [Mission.nodeIds, remettreEnAttente, Function.comp_def]
  have hedges : (preparerReprise m now).1.edges = m.edges := by
    rw [preparerReprise_mission hbrief hne]
    rfl
  have harcs : (preparerReprise m now).1.arcs = m.arcs := by
    rw [Mission.arcs, Mission.arcs, hedges]
  have hnext : MissionGraph.Valide (preparerReprise m now).1 :=
    ⟨hids ▸ hvalide.nodup, harcs ▸ hids ▸ hvalide.source_mem,
      harcs ▸ hids ▸ hvalide.target_mem, harcs ▸ hvalide.ranked⟩
  refine ⟨enMarche_of_pending ⟨hnext.nodup, ?_⟩ hnext ?_ ?_, hids, hedges, ?_, ?_⟩
  all_goals rw [preparerReprise_mission hbrief hne]
  · exact fun n hn => dependsOn_construire hn
  · intro n hn
    obtain ⟨n₀, hn₀, hstatus⟩ := status_construire hn
    obtain ⟨_, -, rfl⟩ := List.mem_map.mp hn₀
    exact hstatus
  · rfl
  · rfl

theorem allSuccess_of_comptee {t : Tentative} {m marked : Mission} (hm : EnMarche t m)
    (h : Comptee t m marked) :
    allSuccess marked = m.nodeIds.all t.reussit := by
  have hids := Mission.nodeIds_eq_of_squelette h.squelette
  have hnodup : marked.nodeIds.Nodup := hids ▸ hm.construite.nodup
  have hsettled := (toutCompte_iff hnodup h.expliquee).mp h.compte
  rw [Bool.eq_iff_iff, List.all_eq_true, ← hids]
  simp only [allSuccess, getProgress, beq_iff_eq, List.countP_eq_zero, decide_eq_true_eq]
  constructor
  · intro hnone v hv
    obtain ⟨n, hn, rfl⟩ := List.mem_map.mp hv
    have hcompleted := (hsettled n.nodeId hv).resolve_right
      (by rw [marked.statut_of_mem hnodup hn]; exact hnone n hn)
    exact (h.expliquee.completed n.nodeId hv hcompleted).1
  · intro hall n hn hfailed
    have hv : n.nodeId ∈ marked.nodeIds := List.mem_map.mpr ⟨n, hn, rfl⟩
    rw [← marked.statut_of_mem hnodup hn] at hfailed
    exact (h.expliquee.failed n.nodeId hv hfailed).1 (hall n.nodeId hv)

theorem suggestRetry_retryBrief (m : Mission) (verification : Option MissionVerification) :
    (∃ brief, (suggestRetry m verification).metadata.retryBrief = some brief ∧ brief ≠ "") ↔
      (∃ brief, m.metadata.retryBrief = some brief ∧ brief ≠ "") ∨
        m.metadata.attempts.getD 1 < RetryPolicy.defaultMaxAttempts ∧
          ∃ v, verification = some v ∧ v.contradicted = true := by
  rw [← RetryPolicy.decide_shouldRetry_iff verification
    (Lib.Texte.ou (Lib.Texte.ou m.objective m.description) m.title)]
  unfold suggestRetry
  simp only
  split
  · next hretry =>
      exact ⟨fun _ => Or.inr hretry, fun _ => RetryPolicy.decide_brief hretry⟩
  · next hretry =>
      exact ⟨Or.inl, fun h => h.resolve_right hretry⟩

theorem preparerReprise_fermee {t : Tentative} {k : Nat} {m marked : Mission} (now : Instant)
    (hm : EnMarche t m) (h : Comptee t m marked) :
    ((preparerReprise (fermee t k marked) now).2 = true ↔ Relance m (fun _ => t) 0) ∧
      (fermee t k marked).metadata.attempts = m.metadata.attempts := by
  have hmetadata : marked.metadata = m.metadata := Mission.metadata_eq_of_enveloppe h.enveloppe
  have hrunning : marked.status = .running :=
    (Mission.status_eq_of_enveloppe h.enveloppe).trans hm.running
  rw [preparerReprise_eq_true, fermee, cloturer_of_running hrunning, suggestRetry_retryBrief,
    (suggestRetry_frame _ _).2.2.2, allSuccess_of_comptee hm h, Relance]
  simp [fermer, hmetadata, Tentative.passe]

/-- In every attempt that is reached, the mission has nodes and every node that
precedes another one succeeds. -/
def ToutesReussissent (m : Mission) (ts : Nat → Tentative) : Prop :=
  ∀ j, (∀ i, i < j → Relance m ts i) → SourcesReussissent (ts j) m

theorem toutesReussissent_succ {m : Mission} {ts : Nat → Tentative} :
    ToutesReussissent m ts ↔ SourcesReussissent (ts 0) m ∧
      (Relance m ts 0 →
        ∀ j, (∀ i, i < j → Relance m ts (i + 1)) → SourcesReussissent (ts (j + 1)) m) := by
  constructor
  · intro h
    refine ⟨h 0 (by simp), fun hfirst j hj => h (j + 1) fun i hi => ?_⟩
    cases i with
    | zero => exact hfirst
    | succ i => exact hj i (by omega)
  · rintro ⟨hfirst, hrest⟩ j hj
    cases j with
    | zero => exact hfirst
    | succ j => exact hrest (hj 0 (by omega)) j fun i hi => hj (i + 1) (by omega)

theorem toutesReussissent_reprise {m m' : Mission} (ts : Nat → Tentative)
    (hids : m'.nodeIds = m.nodeIds) (hedges : m'.edges = m.edges)
    (hbrief : m'.metadata.retryBrief = none)
    (hattempts : m'.metadata.attempts = some (m.metadata.attempts.getD 1 + 1)) :
    ToutesReussissent m' (fun k => ts (k + 1)) ↔
      ∀ j, (∀ i, i < j → Relance m ts (i + 1)) → SourcesReussissent (ts (j + 1)) m := by
  have hrelance : ∀ i, Relance m' (fun k => ts (k + 1)) i ↔ Relance m ts (i + 1) := by
    intro i
    have hcount : m.metadata.attempts.getD 1 + 1 + (i : Int)
        = m.metadata.attempts.getD 1 + ((i + 1 : Nat) : Int) := by
      push_cast
      omega
    simp only [Relance, hbrief, hattempts, hids, Option.getD_some, hcount]
    simp
  have hnodes : m'.nodes ≠ [] ↔ m.nodes ≠ [] := by
    have hlength := congrArg List.length hids
    simp only [Mission.nodeIds, List.length_map] at hlength
    rw [← List.length_pos_iff, ← List.length_pos_iff, hlength]
  simp only [ToutesReussissent, hrelance, SourcesReussissent, hnodes, hedges]

theorem runMissionSteps_reglee {repli : Int} {fuel : Nat} {ts : Nat → Tentative} {m : Mission}
    {b : Bilan} (hm : EnMarche (ts 0) m) (h : runMissionSteps repli fuel ts m = some b)
    (hpasses : b.passes < maxExecutionPasses) :
    Reglee b.mission ↔ ToutesReussissent m ts := by
  induction fuel generalizing ts m b with
  | zero => cases h
  | succ fuel ih =>
      rw [runMissionSteps] at h
      split at h
      · cases h
      · next s hs =>
          rcases marcher_spec (s := ⟨m, 0, 0⟩) hm hs with
            ⟨hlast, hsquelette, henveloppe, hstop⟩ | ⟨k, marked, hmarked, hmission⟩
          · -- Still under way: nothing was ready.
            rw [if_neg (by simp [hlast.running, estTerminal])] at h
            cases h
            have hnone := hstop.resolve_left (by
              simp only at hpasses ⊢
              omega)
            have hopen := not_sources_of_no_pret hlast hnone
            constructor
            · rintro ⟨hstatus, -⟩
              simp [hlast.running] at hstatus
            · intro hall
              refine absurd ?_ hopen
              obtain ⟨hne, hsources⟩ := hall 0 (by simp)
              have hedges : s.mission.edges = m.edges := congrArg Prod.snd hsquelette
              refine ⟨fun hnil => hne ?_, hedges ▸ hsources⟩
              have hids := Mission.nodeIds_eq_of_squelette hsquelette
              rw [Mission.nodeIds, Mission.nodeIds, hnil, List.map_nil] at hids
              exact List.map_eq_nil_iff.mp hids.symm
          · have hrunning : marked.status = .running :=
              (Mission.status_eq_of_enveloppe hmarked.enveloppe).trans hm.running
            have hsources := sources_of_comptee hm hmarked
            have hreglee := reglee_fermee (k := k) hm hmarked
            obtain ⟨hrelance, hattempts⟩ :=
              preparerReprise_fermee (k := k) (ts 0).reprise hm hmarked
            rw [hmission, if_pos (estTerminal_fermee hrunning)] at h
            have hframe := cloturer_nodes ((ts 0).passe k) (allSuccess marked) marked
            have hsquelette : (fermee (ts 0) k marked).squelette = m.squelette :=
              (Mission.squelette_eq_of_nodes hframe.1 hframe.2).trans hmarked.squelette
            rw [toutesReussissent_succ]
            split at h
            · next m' hprepare =>
                have htrue : (preparerReprise (fermee (ts 0) k marked)
                    (ts 0).reprise).2 = true := by rw [hprepare]
                have hnext := preparerReprise_of_true (t := ts 1)
                  (Mission.valide_of_squelette hsquelette hm.valide) htrue
                rw [hprepare] at hnext
                obtain ⟨hmarche, hids, hedges, hbrief, hcount⟩ := hnext
                obtain ⟨b', hb', rfl⟩ := Option.map_eq_some_iff.mp h
                have hrest : Reglee b'.mission ↔ ToutesReussissent m' (fun k => ts (k + 1)) :=
                  ih hmarche hb' hpasses
                have hedges' : (fermee (ts 0) k marked).edges = m.edges :=
                  congrArg Prod.snd hsquelette
                rw [toutesReussissent_reprise ts
                  (hids.trans (Mission.nodeIds_eq_of_squelette hsquelette))
                  (hedges.trans hedges') hbrief (hattempts ▸ hcount)] at hrest
                refine hrest.trans ⟨fun hall => ⟨hsources, fun _ => hall⟩, fun hall => ?_⟩
                exact hall.2 (hrelance.mp htrue)
            · next m' hprepare =>
                cases h
                have hfalse : (preparerReprise (fermee (ts 0) k marked)
                    (ts 0).reprise).2 = false := by rw [hprepare]
                obtain ⟨hstatus, hnodes⟩ := preparerReprise_of_false hfalse
                rw [hprepare] at hstatus hnodes
                have hdone : Reglee m' := (reglee_congr hstatus hnodes).mpr hreglee
                refine ⟨fun _ => ⟨hsources, fun hfirst => ?_⟩, fun _ => hdone⟩
                have htrue := hrelance.mpr hfirst
                rw [hfalse] at htrue
                cases htrue

/-- For an accepted and started mission whose walk ends below the pass ceiling: the
mission is settled if and only if, in every attempt reached, it has nodes and every
node that precedes another one succeeds. -/
theorem reglee_iff_toutesReussissent {repli : Int} {m₀ : Mission} {nodes : List MissionNode}
    {edges : List MissionEdge} {now : Instant} {started : Mission} {ts : Nat → Tentative}
    {fuel : Nat} {b : Bilan} (haccepted : (buildGraph m₀ nodes edges).2 = [])
    (hpending : ∀ n ∈ nodes, n.status = .pending)
    (hstarted : startMission (buildGraph m₀ nodes edges).1 now = (started, true))
    (hrun : runMissionSteps repli fuel ts started = some b)
    (hpasses : b.passes < maxExecutionPasses) :
    Reglee b.mission ↔ ToutesReussissent started ts := by
  have hmission := startMission_accepted haccepted hstarted
  have hvalide := valide_construire haccepted
  refine runMissionSteps_reglee (enMarche_of_pending ?_ ?_ ?_ ?_) hrun hpasses
  all_goals rw [hmission]
  · exact ⟨hvalide.nodup, fun n hn => dependsOn_construire hn⟩
  · exact ⟨hvalide.nodup, hvalide.source_mem, hvalide.target_mem, hvalide.ranked⟩
  · intro n hn
    obtain ⟨n₀, hn₀, hstatus⟩ := status_construire hn
    rw [hstatus]
    exact hpending n₀ hn₀

/-- One attempt in which the nodes of a list fail and the others succeed. -/
def echecDe (echecs : List String) : Tentative where
  place := fun _ => true
  executeNode := fun nodeId => .rend (!echecs.contains nodeId)
  capacite := fun _ => .places 1
  horloge := fun k => k
  verification := fun _ => none
  reprise := 0

theorem reglee_iff_chaine :
    ∃ b, runMissionSteps 1 1 (fun _ => echecDe []) chaineDemarree = some b ∧
      (Reglee b.mission ↔ ToutesReussissent chaineDemarree fun _ => echecDe []) := by
  have haccepted : (buildGraph (Mission.neuve "m1" "chaîne") chaineNoeuds chaineAretes).2 = [] := by
    decide
  have hstarted : startMission
      (buildGraph (Mission.neuve "m1" "chaîne") chaineNoeuds chaineAretes).1 0
        = (chaineDemarree, true) := rfl
  have hrun : ∃ b, runMissionSteps 1 1 (fun _ => echecDe []) chaineDemarree = some b ∧
      b.passes < maxExecutionPasses := ⟨_, rfl, by decide⟩
  obtain ⟨b, hb, hpasses⟩ := hrun
  exact ⟨b, hb, reglee_iff_toutesReussissent haccepted (by decide) hstarted hb hpasses⟩

/-- When `a` fails, `b` is blocked, nothing is ready and the mission stays RUNNING. -/
theorem chaine_reste_running :
    (buildGraph (Mission.neuve "m1" "chaîne") chaineNoeuds chaineAretes).2 = [] ∧
      ∃ b, runMissionSteps 1 1 (fun _ => echecDe ["a"]) chaineDemarree = some b ∧
        b.passes < maxExecutionPasses ∧ b.mission.status = .running ∧
        getReadyNodes b.mission = [] ∧ ¬ Reglee b.mission := by
  refine ⟨by decide, _, rfl, by decide, by decide, by decide, ?_⟩
  rintro ⟨hstatus, -⟩
  revert hstatus
  decide

end Hermes
