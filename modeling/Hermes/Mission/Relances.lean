import Hermes.Mission.Routes

/-! # How often a start walks a mission again

A walk that ends on a terminal mission asks `preparer_reprise` for another attempt, and the walk
of that attempt may ask again.
-/

namespace Hermes.Routes

open GraphExecutor

/-- The mission a walk ends on, and the date of that end, when the event ends a walk. -/
def finDeMarche (repli : Int) (s : Etat) : Evenement → Option (Mission × Instant)
  | .passe i p =>
      match s.marcheurs[i]? with
      | none => none
      | some w =>
          if estTerminal s.mission.status ∨ s.mission.status = .paused
              ∨ maxExecutionPasses ≤ w.passes then
            some (s.mission, p.maintenant)
          else
            match executeStep repli p s.mission with
            | none => none
            | some e => if e.count = 0 then some (e.mission, p.maintenant) else none
  | _ => none

/-- The event is a call of `_run_retry_if_suggested` that walks the mission again. -/
def estRelance (repli : Int) (s : Etat) (ev : Evenement) : Bool :=
  match finDeMarche repli s ev with
  | none => false
  | some (m, now) => estTerminal m.status && (preparerReprise m now).2

/-- A mission walked again: the brief is consumed and becomes the objective, the nodes start over,
the date is new and the objective of the first attempt is kept. -/
structure Repartie (finie : Mission) (now : Instant) (m : Mission) : Prop where
  brief : ∃ brief, finie.metadata.retryBrief = some brief ∧ brief ≠ "" ∧ m.objective = brief
  consomme : m.metadata.retryBrief = none
  pending : ∀ n ∈ m.nodes, n.status = .pending
  running : m.status = .running
  date : m.startedAt = some now
  attempts : m.metadata.attempts = some (finie.metadata.attempts.getD 1 + 1)
  original : m.metadata.originalObjective =
    some (finie.metadata.originalObjective.getD (Lib.Texte.ou finie.objective finie.description))
  description : m.description = finie.description

theorem repartie_of_preparerReprise {m : Mission} {now : Instant}
    (h : (preparerReprise m now).2 = true) : Repartie m now (preparerReprise m now).1 := by
  obtain ⟨brief, hbrief, hne⟩ := preparerReprise_eq_true.mp h
  rw [preparerReprise_mission hbrief hne]
  constructor
  · exact ⟨brief, hbrief, hne, rfl⟩
  · rfl
  · intro n hn
    obtain ⟨n₀, hn₀, hstatus⟩ := status_construire hn
    obtain ⟨_, -, rfl⟩ := List.mem_map.mp hn₀
    exact hstatus
  · rfl
  · rfl
  · rfl
  · rfl
  · rfl

def briefLaisse (metadata : MissionMetadata) : Bool := metadata.retryBrief.any (· ≠ "")

theorem briefLaisse_eq_true {metadata : MissionMetadata} :
    briefLaisse metadata = true ↔ ∃ brief, metadata.retryBrief = some brief ∧ brief ≠ "" := by
  simp [briefLaisse, Option.any_eq_true]

/-- The attempts that the metadata still allow: one for a brief that is left, and one for each
number below the limit. -/
def restantes (metadata : MissionMetadata) : Nat :=
  if briefLaisse metadata then
    1 + (RetryPolicy.defaultMaxAttempts - (metadata.attempts.getD 1 + 1)).toNat
  else (RetryPolicy.defaultMaxAttempts - metadata.attempts.getD 1).toNat

/-- Nothing of what bounds and explains the attempts has moved. -/
structure Garde (m m' : Mission) : Prop where
  objective : m'.objective = m.objective
  description : m'.description = m.description
  attempts : m'.metadata.attempts = m.metadata.attempts
  original : m'.metadata.originalObjective = m.metadata.originalObjective
  restantes : restantes m'.metadata ≤ restantes m.metadata

theorem garde_of_metadata {m m' : Mission} (hobjective : m'.objective = m.objective)
    (hdescription : m'.description = m.description) (hmetadata : m'.metadata = m.metadata) :
    Garde m m' := by
  constructor
  · exact hobjective
  · exact hdescription
  · rw [hmetadata]
  · rw [hmetadata]
  · rw [hmetadata]

theorem Garde.trans {m m' m'' : Mission} (h : Garde m m') (h' : Garde m' m'') : Garde m m'' where
  objective := h'.objective.trans h.objective
  description := h'.description.trans h.description
  attempts := h'.attempts.trans h.attempts
  original := h'.original.trans h.original
  restantes := h'.restantes.trans h.restantes

theorem garde_suggestRetry (m : Mission) (verification : Option MissionVerification) :
    Garde m (suggestRetry m verification) := by
  have hattempts := (suggestRetry_frame m verification).2.2.2
  constructor
  · unfold suggestRetry
    simp only
    split <;> rfl
  · unfold suggestRetry
    simp only
    split <;> rfl
  · exact hattempts
  · unfold suggestRetry
    simp only
    split <;> rfl
  · have hbrief := suggestRetry_retryBrief m verification
    rw [← briefLaisse_eq_true, ← briefLaisse_eq_true] at hbrief
    unfold restantes
    rw [hattempts]
    by_cases havant : briefLaisse m.metadata = true
    · rw [if_pos havant, if_pos (hbrief.mpr (Or.inl havant))]
    · rw [if_neg havant]
      by_cases hapres : briefLaisse (suggestRetry m verification).metadata = true
      · -- a brief appears below the limit only
        have hlimite := ((hbrief.mp hapres).resolve_left havant).1
        rw [if_pos hapres]
        omega
      · rw [if_neg hapres]

theorem garde_executeStep {repli : Int} {p : Passe} {m : Mission} {e : Etape}
    (h : executeStep repli p m = some e) : Garde m e.mission := by
  obtain ⟨marked, hmarked, hmission, -, -⟩ := executeStep_eq_some h
  have henveloppe : marked.enveloppe = m.enveloppe := by
    unfold etapeMarquee at hmarked
    simp only at hmarked
    split at hmarked
    · cases hmarked
    · cases hmarked
      exact marquer_enveloppe _ _ _ _
  have hmarque : Garde m marked :=
    garde_of_metadata (congrArg Mission.objective henveloppe :)
      (congrArg Mission.description henveloppe :) (Mission.metadata_eq_of_enveloppe henveloppe)
  rw [hmission]
  split
  · unfold cloturer
    split
    · have hferme : Garde marked (fermer p (allSuccess marked) marked) :=
        ⟨rfl, rfl, rfl, rfl, le_rfl⟩
      exact hmarque.trans (hferme.trans (garde_suggestRetry _ _))
    · exact hmarque
  · exact hmarque

theorem garde_preparerReprise {m : Mission} {now : Instant}
    (h : (preparerReprise m now).2 = false) : Garde m (preparerReprise m now).1 := by
  have hsans : briefLaisse m.metadata = false := by
    rw [Bool.eq_false_iff]
    intro hbrief
    rw [preparerReprise_eq_true.mpr (briefLaisse_eq_true.mp hbrief)] at h
    cases h
  have hmission : (preparerReprise m now).1
      = { m with metadata := { m.metadata with retryBrief := none } } := by
    unfold preparerReprise
    cases hbrief : m.metadata.retryBrief with
    | none => rfl
    | some brief =>
        have hvide : brief = "" := by simpa [briefLaisse, hbrief] using hsans
        simp [hvide]
  rw [hmission]
  have havant : restantes m.metadata
      = (RetryPolicy.defaultMaxAttempts - m.metadata.attempts.getD 1).toNat := by
    simp [restantes, hsans]
  exact ⟨rfl, rfl, rfl, rfl, havant.ge⟩

theorem garde_checkMissionSecurity (m : Mission) (porte : Porte) :
    Garde m (checkMissionSecurity m porte).1 := by
  unfold checkMissionSecurity
  split
  · exact garde_of_metadata rfl rfl rfl
  · split
    · exact garde_of_metadata rfl rfl rfl
    · split <;> exact garde_of_metadata rfl rfl rfl

theorem garde_startMission (m : Mission) (now : Instant) : Garde m (startMission m now).1 := by
  unfold startMission
  split <;> exact garde_of_metadata rfl rfl rfl

theorem garde_start (m : Mission) (porte : Porte) (now : Instant) :
    Garde m (start m porte now).1 := by
  have hcheck := garde_checkMissionSecurity m porte
  unfold start
  cases h : checkMissionSecurity m porte with
  | mk m' reponse =>
      rw [h] at hcheck
      cases reponse with
      | some reponse => exact hcheck
      | none =>
          have hstart := garde_startMission m' now
          cases h' : startMission m' now with
          | mk m'' demarree =>
              rw [h'] at hstart
              cases demarree <;> simpa [h'] using hcheck.trans hstart

theorem garde_resume (m : Mission) (now : Instant) : Garde m (resume m now).1 := by
  unfold resume
  split <;> exact garde_of_metadata rfl rfl rfl

theorem garde_pause (m : Mission) : Garde m (pause m).1 := by
  unfold pause
  split <;> exact garde_of_metadata rfl rfl rfl

theorem garde_cancel (m : Mission) (now : Instant) : Garde m (cancel m now).1 := by
  unfold cancel cancelMission
  dsimp only
  split <;> exact garde_of_metadata rfl rfl rfl

theorem finDeMarche_mission {repli : Int} {s : Etat} {ev : Evenement} {m : Mission}
    {now : Instant} (h : finDeMarche repli s ev = some (m, now)) : m = s.mission := by
  unfold finDeMarche at h
  split at h
  · next i p =>
      split at h
      · cases h
      · split at h
        · cases h
          rfl
        · split at h
          · cases h
          · next e he =>
              split at h
              · next hcount =>
                  cases h
                  exact executeStep_mission_of_count_eq_zero he hcount
              · cases h
  · cases h

theorem pas_fin {repli : Int} {s s' : Etat} {ev : Evenement} {m : Mission} {now : Instant}
    (hfin : finDeMarche repli s ev = some (m, now)) (h : pas repli s ev = some s') :
    ∃ i w, s' = finir s i w m now := by
  unfold finDeMarche at hfin
  split at hfin
  · next i p =>
      simp only [pas] at h
      split at hfin
      · cases hfin
      · next w hw =>
          simp only [hw] at h
          split at hfin
          · next hstop =>
              cases hfin
              rw [if_pos hstop] at h
              cases h
              exact ⟨i, w, rfl⟩
          · next hstop =>
              rw [if_neg hstop] at h
              split at hfin
              · cases hfin
              · next e he =>
                  simp only [he] at h
                  split at hfin
                  · next hcount =>
                      cases hfin
                      rw [if_pos hcount] at h
                      cases h
                      exact ⟨i, _, rfl⟩
                  · cases hfin
  · cases hfin

theorem finir_mission (s : Etat) (i : Nat) (w : Marcheur) (m : Mission) (now : Instant) :
    (finir s i w m now).mission
      = if estTerminal m.status then (preparerReprise m now).1 else m := by
  unfold finir
  cases hterminal : estTerminal m.status with
  | false => rfl
  | true =>
      cases hprepare : preparerReprise m now with
      | mk m' relance => cases relance <;> simp

theorem garde_pas_sans_fin {repli : Int} {s s' : Etat} {ev : Evenement}
    (hfin : finDeMarche repli s ev = none) (h : pas repli s ev = some s') :
    Garde s.mission s'.mission := by
  cases ev with
  | start porte now =>
      cases h
      rw [lancer_mission]
      exact garde_start _ _ _
  | pause =>
      cases h
      exact garde_pause _
  | resume now =>
      cases h
      rw [lancer_mission]
      exact garde_resume _ _
  | cancel now =>
      cases h
      exact garde_cancel _ _
  | passe i p =>
      simp only [finDeMarche] at hfin
      simp only [pas] at h
      split at h
      · cases h
      · next w hw =>
          simp only [hw] at hfin
          split at h
          · next hstop =>
              rw [if_pos hstop] at hfin
              cases hfin
          · next hstop =>
              rw [if_neg hstop] at hfin
              split at h
              · cases h
              · next e he =>
                  simp only [he] at hfin
                  split at h
                  · next hcount =>
                      rw [if_pos hcount] at hfin
                      cases hfin
                  · cases h
                    exact garde_executeStep he

theorem garde_or_repartie {repli : Int} {s s' : Etat} {ev : Evenement}
    (h : pas repli s ev = some s') :
    (estRelance repli s ev = false ∧ Garde s.mission s'.mission) ∨
      (estRelance repli s ev = true ∧ ∃ now, finDeMarche repli s ev = some (s.mission, now) ∧
        Repartie s.mission now s'.mission) := by
  cases hfin : finDeMarche repli s ev with
  | none => exact Or.inl ⟨by simp [estRelance, hfin], garde_pas_sans_fin hfin h⟩
  | some fin =>
      obtain ⟨m, now⟩ := fin
      have hmission := finDeMarche_mission hfin
      subst hmission
      obtain ⟨i, w, rfl⟩ := pas_fin hfin h
      rw [finir_mission]
      cases hterminal : estTerminal s.mission.status with
      | false =>
          refine Or.inl ⟨by simp [estRelance, hfin, hterminal], ?_⟩
          exact garde_of_metadata rfl rfl rfl
      | true =>
          cases hrelance : (preparerReprise s.mission now).2 with
          | false =>
              exact Or.inl ⟨by simp [estRelance, hfin, hrelance], garde_preparerReprise hrelance⟩
          | true =>
              exact Or.inr ⟨by simp [estRelance, hfin, hterminal, hrelance], now, rfl,
                repartie_of_preparerReprise hrelance⟩

theorem restantes_of_repartie {finie m : Mission} {now : Instant} (h : Repartie finie now m) :
    1 + restantes m.metadata = restantes finie.metadata := by
  obtain ⟨brief, hbrief, hne, -⟩ := h.brief
  have havant : briefLaisse finie.metadata = true :=
    briefLaisse_eq_true.mpr ⟨brief, hbrief, hne⟩
  have hapres : briefLaisse m.metadata = false := by
    rw [briefLaisse, h.consomme]
    rfl
  rw [restantes, restantes, havant, hapres, h.attempts]
  rfl

/-- `mission.objective or mission.description`, unless an earlier attempt kept it already. -/
def premierObjectif (m : Mission) : String :=
  m.metadata.originalObjective.getD (Lib.Texte.ou m.objective m.description)

/-- The first objective is where it was, or in the metadata. -/
def ObjectifGarde (origine m : Mission) : Prop :=
  premierObjectif m = premierObjectif origine

theorem objectifGarde_of_garde {origine m m' : Mission} (hm : ObjectifGarde origine m)
    (h : Garde m m') : ObjectifGarde origine m' := by
  unfold ObjectifGarde premierObjectif
  rw [h.original, h.objective, h.description]
  exact hm

theorem objectifGarde_of_repartie {origine finie m : Mission} {now : Instant}
    (hfinie : ObjectifGarde origine finie) (h : Repartie finie now m) :
    ObjectifGarde origine m := by
  unfold ObjectifGarde premierObjectif
  rw [h.original, Option.getD_some]
  exact hfinie

/-- What a re-run owes: a mission that starts over, with the objective of the first attempt
in its metadata. -/
def RelanceFidele (repli : Int) (origine : Mission) (s : Etat) (ev : Evenement) : Prop :=
  estRelance repli s ev = true → ∃ s' now, pas repli s ev = some s' ∧
    finDeMarche repli s ev = some (s.mission, now) ∧ Repartie s.mission now s'.mission ∧
    s'.mission.metadata.originalObjective = some (premierObjectif origine)

/-- Whatever the verdicts and the interleaving of the routes, a mission is walked again once at
most, from its start and under its first objective. The number of attempts of a mission is absent
or at least one: `preparer_reprise` alone writes it. -/
theorem relances_bornees (repli : Int) (m : Mission) (hattempts : 1 ≤ m.metadata.attempts.getD 1)
    (evs : List Evenement) :
    Lib.compter (pas repli) (estRelance repli) (etatInitial m) evs
        ≤ (RetryPolicy.defaultMaxAttempts - 1).toNat ∧
      Lib.Along (pas repli) (RelanceFidele repli m) (etatInitial m) evs := by
  constructor
  · have hborne : restantes m.metadata ≤ (RetryPolicy.defaultMaxAttempts - 1).toNat := by
      unfold restantes RetryPolicy.defaultMaxAttempts
      split <;> omega
    have hcompte : Lib.compter (pas repli) (estRelance repli) (etatInitial m) evs
        ≤ restantes m.metadata := by
      have hstep : ∀ (s : Etat) (ev : Evenement) (s' : Etat), True → pas repli s ev = some s' →
          True ∧ (if estRelance repli s ev then 1 else 0) + restantes s'.mission.metadata
            ≤ restantes s.mission.metadata := by
        intro s ev s' _ h
        refine ⟨trivial, ?_⟩
        rcases garde_or_repartie h with ⟨hfaux, hgarde⟩ | ⟨hvrai, now, -, hrepartie⟩
        · have hle := hgarde.restantes
          simpa [hfaux] using hle
        · rw [hvrai]
          exact (restantes_of_repartie hrepartie).le
      exact Lib.compter_le hstep trivial evs
    exact hcompte.trans hborne
  · have hstep : ∀ (s : Etat) (ev : Evenement) (s' : Etat), ObjectifGarde m s.mission →
        pas repli s ev = some s' → ObjectifGarde m s'.mission ∧ RelanceFidele repli m s ev := by
      intro s ev s' hs h
      rcases garde_or_repartie h with ⟨hfaux, hgarde⟩ | ⟨hvrai, now, hfin, hrepartie⟩
      · refine ⟨objectifGarde_of_garde hs hgarde, fun hrelance => ?_⟩
        rw [hfaux] at hrelance
        cases hrelance
      · refine ⟨objectifGarde_of_repartie hs hrepartie, fun _ => ?_⟩
        have horiginal : s'.mission.metadata.originalObjective = some (premierObjectif s.mission) :=
          hrepartie.original
        exact ⟨s', now, h, hfin, hrepartie, by rw [horiginal, hs]⟩
    have hdebut : ObjectifGarde m (etatInitial m).mission := rfl
    exact Lib.along_of_invariant hstep hdebut evs

/-- Every attempt reports success over a workspace it did not touch. -/
def passeContredite : Passe :=
  { passeReussie with
    verification := fun _ => some
      { missionId := "m1", reportedSuccess := true, workspace := some "/projet",
        changes := { created := [], modified := [], deleted := [], indetermines := [] },
        measured := true, tests := none, manifeste := none, imports := none,
        importsRemontent := none, fauxPaquet := none, testTautologique := none,
        livrableVide := none, sqlCasse := none } }

def deuxTentatives : List Evenement :=
  [.start porteOuverte 0, .passe 0 passeContredite, .passe 0 passeContredite,
    .passe 0 passeContredite, .passe 0 passeContredite]

example : Lib.compter (pas 1) (estRelance 1) (etatInitial missionLiee) deuxTentatives = 1 := by
  decide

theorem relances_bornees_missionLiee :
    Lib.compter (pas 1) (estRelance 1) (etatInitial missionLiee) deuxTentatives
        ≤ (RetryPolicy.defaultMaxAttempts - 1).toNat ∧
      Lib.Along (pas 1) (RelanceFidele 1 missionLiee) (etatInitial missionLiee) deuxTentatives :=
  relances_bornees 1 missionLiee (by decide) deuxTentatives

end Hermes.Routes
