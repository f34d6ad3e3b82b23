import Hermes.Lib.Runs
import Hermes.Mission.Walk

/-! # The mission routes

`/start`, `/pause`, `/resume` and `/cancel` on one mission, and the walks that start and resume
launch.
-/

namespace Hermes

open DependencyResolver GraphExecutor

inductive VerdictAegis where
  | allow
  | deny
  | requireHumanValidation
  deriving DecidableEq

structure DecisionAegis where
  verdict : VerdictAegis
  reason : String
  deriving DecidableEq

/-- What the engine answers for the mission's path and for its execution. -/
structure Porte where
  localPath : DecisionAegis
  execution : DecisionAegis
  deriving DecidableEq

inductive Reponse where
  | error (message : String)
  | statut (missionId : String) (status : MissionStatus)
  | refus (missionId : String) (status : MissionStatus) (error : String)
  | enAttente (missionId : String) (status : MissionStatus) (reason : String)
  | marche (missionId : String) (status : MissionStatus) (nodesExecuted : Nat)
      (progress : Progress)
  deriving DecidableEq

namespace Routes

/-- `_check_mission_security`: no answer lets the caller proceed. -/
def checkMissionSecurity (m : Mission) (porte : Porte) : Mission × Option Reponse :=
  if m.context.localPath = "" ∧ m.context.repository = "" then (m, none)
  else if m.context.localPath ≠ "" ∧ porte.localPath.verdict ≠ .allow then
    ({ m with status := .failed }, some (.refus m.missionId .failed
      ("local_path denied by Aegis: " ++ porte.localPath.reason)))
  else
    match porte.execution.verdict with
    | .deny =>
        ({ m with status := .failed }, some (.refus m.missionId .failed
          ("blocked by Aegis: " ++ porte.execution.reason)))
    | .requireHumanValidation =>
        ({ m with status := .paused },
          some (.enAttente m.missionId .paused porte.execution.reason))
    | .allow => (m, none)

/-- `/start` up to the walk: the answer, or none when the walk begins. -/
def start (m : Mission) (porte : Porte) (now : Instant) : Mission × Option Reponse :=
  match checkMissionSecurity m porte with
  | (m', some reponse) => (m', some reponse)
  | (m', none) =>
      match startMission m' now with
      | (m'', true) => (m'', none)
      | (m'', false) =>
          (m'', some (.error ("Cannot start mission in status " ++ m''.status.value)))

def pause (m : Mission) : Mission × Reponse :=
  if m.status ≠ .running then
    (m, .error ("Cannot pause mission in status " ++ m.status.value))
  else ({ m with status := .paused }, .statut m.missionId .paused)

/-- `/resume` up to the walk. -/
def resume (m : Mission) (now : Instant) : Mission × Option Reponse :=
  if m.status ≠ .paused then
    (m, some (.error ("Cannot resume mission in status " ++ m.status.value)))
  else ({ m with status := .running, startedAt := some (m.startedAt.getD now) }, none)

def cancel (m : Mission) (now : Instant) : Mission × Reponse :=
  let m' := (cancelMission m now).1
  (m', .statut m'.missionId m'.status)

structure Marcheur where
  executed : Nat
  passes : Nat
  deriving DecidableEq

structure Etat where
  mission : Mission
  marcheurs : List Marcheur
  reponses : List Reponse
  deriving DecidableEq

inductive Evenement where
  | start (porte : Porte) (now : Instant)
  | pause
  | resume (now : Instant)
  | cancel (now : Instant)
  | passe (i : Nat) (p : Passe)

def lancer (s : Etat) : Mission × Option Reponse → Etat
  | (m, some reponse) => { s with mission := m, reponses := s.reponses ++ [reponse] }
  | (m, none) =>
      { s with mission := m, marcheurs := s.marcheurs ++ [{ executed := 0, passes := 0 }] }

/-- The end of a walk: its answer, or another attempt. -/
def finir (s : Etat) (i : Nat) (w : Marcheur) (m : Mission) (now : Instant) : Etat :=
  let (m', relance) := if estTerminal m.status then preparerReprise m now else (m, false)
  if relance then
    { s with
      mission := m'
      marcheurs := s.marcheurs.set i { executed := w.executed, passes := 0 } }
  else
    { mission := m'
      marcheurs := s.marcheurs.eraseIdx i
      reponses := s.reponses ++ [.marche m'.missionId m'.status w.executed (getProgress m')] }

def pas (repli : Int) (s : Etat) : Evenement → Option Etat
  | .start porte now => some (lancer s (start s.mission porte now))
  | .pause =>
      some
        { s with
          mission := (pause s.mission).1
          reponses := s.reponses ++ [(pause s.mission).2] }
  | .resume now => some (lancer s (resume s.mission now))
  | .cancel now =>
      some
        { s with
          mission := (cancel s.mission now).1
          reponses := s.reponses ++ [(cancel s.mission now).2] }
  | .passe i p =>
      match s.marcheurs[i]? with
      | none => none
      | some w =>
          if estTerminal s.mission.status ∨ s.mission.status = .paused
              ∨ maxExecutionPasses ≤ w.passes then
            some (finir s i w s.mission p.maintenant)
          else
            match executeStep repli p s.mission with
            | none => none
            | some e =>
                if e.count = 0 then
                  some (finir s i { w with passes := w.passes + 1 } e.mission p.maintenant)
                else
                  some
                    { s with
                      mission := e.mission
                      marcheurs := s.marcheurs.set i
                        { executed := w.executed + e.count, passes := w.passes + 1 } }

def EstFinal (status : MissionStatus) : Prop := status = .completed ∨ status = .cancelled

/-- The step is the end of a walk that prepares another attempt. -/
def ParReprise (s : Etat) (ev : Evenement) (s' : Etat) : Prop :=
  ∃ i p, ev = .passe i p ∧ preparerReprise s.mission p.maintenant = (s'.mission, true)

/-- From COMPLETED or CANCELLED the event changes the status by a retry only. -/
def StatutFige (repli : Int) (s : Etat) (ev : Evenement) : Prop :=
  ∀ s', pas repli s ev = some s' → EstFinal s.mission.status →
    s'.mission.status = s.mission.status ∨ ParReprise s ev s'

/-- The gate lets the mission start: it is bound to no project, or its path and its
execution are allowed. -/
def LaissePasser (m : Mission) (porte : Porte) : Prop :=
  (m.context.localPath = "" ∧ m.context.repository = "") ∨
    (m.context.localPath = "" ∨ porte.localPath.verdict = .allow) ∧
      porte.execution.verdict = .allow

/-- Starts requested on a COMPLETED or CANCELLED mission pass the gate. -/
def PorteOuverte (s : Etat) (ev : Evenement) : Prop :=
  ∀ porte now, ev = .start porte now → EstFinal s.mission.status → LaissePasser s.mission porte

theorem checkMissionSecurity_of_laissePasser {m : Mission} {porte : Porte}
    (h : LaissePasser m porte) : checkMissionSecurity m porte = (m, none) := by
  unfold checkMissionSecurity
  rcases h with hunbound | ⟨hpath, hexec⟩
  · rw [if_pos hunbound]
  · split
    · rfl
    · rw [if_neg (fun hboth => hpath.elim hboth.1 hboth.2)]
      simp [hexec]

theorem checkMissionSecurity_of_not_laissePasser {m : Mission} {porte : Porte}
    (h : ¬ LaissePasser m porte) :
    ∃ m' reponse, checkMissionSecurity m porte = (m', some reponse) ∧
      (m'.status = .failed ∨ m'.status = .paused) := by
  have hunbound : ¬ (m.context.localPath = "" ∧ m.context.repository = "") :=
    fun hboth => h (Or.inl hboth)
  unfold checkMissionSecurity
  rw [if_neg hunbound]
  by_cases hpath : m.context.localPath ≠ "" ∧ porte.localPath.verdict ≠ .allow
  · rw [if_pos hpath]
    exact ⟨_, _, rfl, Or.inl rfl⟩
  · rw [if_neg hpath]
    have hallowed : m.context.localPath = "" ∨ porte.localPath.verdict = .allow := by
      by_contra hnot
      rw [not_or] at hnot
      exact hpath hnot
    cases hexec : porte.execution.verdict with
    | allow => exact absurd (Or.inr ⟨hallowed, hexec⟩) h
    | deny => exact ⟨_, _, rfl, Or.inl rfl⟩
    | requireHumanValidation => exact ⟨_, _, rfl, Or.inr rfl⟩

theorem start_of_final {m : Mission} {porte : Porte} {now : Instant} (hm : EstFinal m.status)
    (h : LaissePasser m porte) : (start m porte now).1 = m := by
  have hstart : startMission m now = (m, false) := by
    rw [startMission, if_neg]
    rcases hm with hm | hm <;> simp [hm]
  simp [start, checkMissionSecurity_of_laissePasser h, hstart]

theorem start_of_refus {m : Mission} {porte : Porte} {now : Instant} (hm : EstFinal m.status)
    (h : ¬ LaissePasser m porte) : (start m porte now).1.status ≠ m.status := by
  obtain ⟨m', reponse, hcheck, hstatus⟩ := checkMissionSecurity_of_not_laissePasser h
  have hmission : (start m porte now).1 = m' := by simp [start, hcheck]
  rw [hmission]
  rcases hm with hm | hm <;> rcases hstatus with hs | hs <;> simp [hm, hs]

theorem pause_of_final {m : Mission} (hm : EstFinal m.status) : (pause m).1 = m := by
  unfold pause
  rcases hm with hm | hm <;> rw [if_pos (by simp [hm])]

theorem resume_of_final {m : Mission} {now : Instant} (hm : EstFinal m.status) :
    (resume m now).1 = m := by
  unfold resume
  rcases hm with hm | hm <;> rw [if_pos (by simp [hm])]

theorem cancel_of_final {m : Mission} {now : Instant} (hm : EstFinal m.status) :
    (cancel m now).1.status = m.status := by
  rcases hm with hm | hm <;> simp [cancel, cancelMission, hm]

@[simp] theorem lancer_mission (s : Etat) (r : Mission × Option Reponse) :
    (lancer s r).mission = r.1 := by
  obtain ⟨m, reponse⟩ := r
  cases reponse <;> rfl

theorem passe_of_final {repli : Int} {s s' : Etat} {i : Nat} {p : Passe}
    (hs : EstFinal s.mission.status) (h : pas repli s (.passe i p) = some s') :
    s'.mission.status = s.mission.status ∨ ParReprise s (.passe i p) s' := by
  have hterminal : estTerminal s.mission.status = true := by
    rcases hs with hs | hs <;> simp [hs, estTerminal]
  simp only [pas] at h
  split at h
  · cases h
  · next w hw =>
      rw [if_pos (Or.inl hterminal)] at h
      cases h
      cases hprepare : preparerReprise s.mission p.maintenant with
      | mk m' relance =>
          cases relance with
          | true =>
              right
              exact ⟨i, p, rfl, by simp [finir, hterminal, hprepare]⟩
          | false =>
              left
              have hfalse : (preparerReprise s.mission p.maintenant).2 = false := by
                rw [hprepare]
              have hstatus := (preparerReprise_of_false hfalse).1
              rw [hprepare] at hstatus
              simpa [finir, hterminal, hprepare] using hstatus

theorem statutFige_iff {repli : Int} {s s' : Etat} {ev : Evenement}
    (h : pas repli s ev = some s') : StatutFige repli s ev ↔ PorteOuverte s ev := by
  cases ev with
  | start porte now =>
      constructor
      · intro hfige porte' now' heq hs
        cases heq
        by_contra hrefus
        have hnext : pas repli s (.start porte now)
            = some (lancer s (start s.mission porte now)) := rfl
        rcases hfige _ hnext hs with hsame | ⟨i, p, hev, -⟩
        · rw [lancer_mission] at hsame
          exact start_of_refus hs hrefus hsame
        · cases hev
      · intro hporte s'' hs'' hs
        cases hs''
        left
        rw [lancer_mission, start_of_final hs (hporte porte now rfl hs)]
  | pause =>
      refine ⟨fun _ _ _ heq => Evenement.noConfusion heq, fun _ s'' hs'' hs => ?_⟩
      cases hs''
      exact Or.inl (congrArg Mission.status (pause_of_final hs))
  | resume now =>
      refine ⟨fun _ _ _ heq => Evenement.noConfusion heq, fun _ s'' hs'' hs => ?_⟩
      cases hs''
      left
      rw [lancer_mission, resume_of_final hs]
  | cancel now =>
      refine ⟨fun _ _ _ heq => Evenement.noConfusion heq, fun _ s'' hs'' hs => ?_⟩
      cases hs''
      exact Or.inl (cancel_of_final hs)
  | passe i p =>
      refine ⟨fun _ _ _ heq => Evenement.noConfusion heq, fun _ s'' hs'' hs => ?_⟩
      exact passe_of_final hs hs''

/-- Over any run, COMPLETED and CANCELLED are left by retries only if and only if every
start requested on such a mission passes the security gate. -/
theorem along_statutFige_iff (repli : Int) (s : Etat) (evs : List Evenement) :
    Lib.Along (pas repli) (StatutFige repli) s evs ↔
      Lib.Along (pas repli) PorteOuverte s evs :=
  Lib.along_congr (fun _ _ _ h => statutFige_iff h) s evs

/-- A mission of one node bound to a project directory, built but not started. -/
def missionLiee : Mission :=
  (buildGraph
    { Mission.neuve "m1" "tâche" with context := { repository := "", localPath := "/projet" } }
    [MissionNode.neuf "a" "A"] []).1

def etatInitial (m : Mission) : Etat := { mission := m, marcheurs := [], reponses := [] }

def porteOuverte : Porte where
  localPath := { verdict := .allow, reason := "" }
  execution := { verdict := .allow, reason := "" }

def porteFermee : Porte where
  localPath := { verdict := .deny, reason := "hors liste" }
  execution := { verdict := .allow, reason := "" }

def passeReussie : Passe where
  place := fun _ => true
  executeNode := fun _ => .rend true
  capacite := .places 1
  maintenant := 1
  verification := fun _ => none

/-- The mission runs to COMPLETED, then a second start is refused by the gate. -/
def secondDepart : List Evenement :=
  [.start porteOuverte 0, .passe 0 passeReussie, .passe 0 passeReussie, .start porteFermee 2]

theorem secondDepart_failed :
    ∃ s, Lib.run (pas 1) (etatInitial missionLiee) (secondDepart.take 3) = some s ∧
      s.mission.status = .completed ∧
      (∃ s', pas 1 s (.start porteFermee 2) = some s' ∧ s'.mission.status = .failed) ∧
      ¬ Lib.Along (pas 1) (StatutFige 1) (etatInitial missionLiee) secondDepart := by
  have hrun : ∃ s, Lib.run (pas 1) (etatInitial missionLiee) (secondDepart.take 3) = some s ∧
      s.mission.status = .completed ∧
      ∃ s', pas 1 s (.start porteFermee 2) = some s' ∧ s'.mission.status = .failed :=
    ⟨_, rfl, by decide, _, rfl, by decide⟩
  obtain ⟨s, hs, hcompleted, s', hs', hfailed⟩ := hrun
  refine ⟨s, hs, hcompleted, ⟨s', hs', hfailed⟩, fun halong => ?_⟩
  have hsplit : Lib.Along (pas 1) (StatutFige 1) (etatInitial missionLiee)
      (secondDepart.take 3 ++ .start porteFermee 2 :: []) := halong
  have hfige := hsplit.after hs hs'
  rcases hfige s' hs' (Or.inl hcompleted) with hsame | ⟨i, p, hev, -⟩
  · rw [hfailed, hcompleted] at hsame
    cases hsame
  · cases hev

end Routes

end Hermes
