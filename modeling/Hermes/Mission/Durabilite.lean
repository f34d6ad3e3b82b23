import Hermes.Mission.Persisteur
import Hermes.Mission.Routes

/-! # What the cache may let go of

A terminal mission of the cache is stored with its status: the writes are followed through the
routes, the walks and the other holders of a mission.
-/

namespace Hermes

open DependencyResolver Lib

namespace Memoire

inductive Appel where
  | buildGraph (nodes : List MissionNode) (edges : List MissionEdge)
  | startMission (now : Instant)
  | executeStep (p : Passe)
  | cancelMission (now : Instant)
  | preparerReprise (now : Instant)

/-- `create_mission`, from the mission the request describes. -/
def creer (s : Memoire) (m : Mission) (nodes : List MissionNode) (edges : List MissionEdge)
    (accepte : Mission → Bool) : Memoire :=
  ((s.allouer { m with status := .created }).buildGraph s.prochain nodes edges).setItem
    s.prochain accepte

/-- `register_mission`, of a mission built elsewhere. -/
def inscrire (s : Memoire) (m : Mission) (accepte : Mission → Bool) : Memoire :=
  (s.allouer m).setItem s.prochain accepte

def appeler (repli : Int) (s : Memoire) (r : Ref) (accepte : Mission → Bool) :
    Appel → Option Memoire
  | .buildGraph nodes edges => some (s.buildGraph r nodes edges)
  | .startMission now => some (s.startMission accepte r now).1
  | .executeStep p => (executeStep accepte r repli p s).map Prod.fst
  | .cancelMission now => some (s.cancelMission accepte r now).1
  | .preparerReprise now => some (s.preparerReprise accepte r now).1

/-- The walks hold the object they were launched on; nothing stands for the answer of a call
that raised. -/
structure Etat where
  memoire : Memoire
  marcheurs : List (Ref × Routes.Marcheur)
  reponses : List (Option Reponse)

inductive Evenement where
  /-- `POST /missions`: a mission built from the request. -/
  | creer (m : Mission) (nodes : List MissionNode) (edges : List MissionEdge)
      (accepte : Mission → Bool)
  /-- `register_mission`. -/
  | inscrire (m : Mission) (accepte : Mission → Bool)
  | consulter (id : String)
  /-- `GET /missions`, with the rows of the store in the order of the query. -/
  | lister (ordre : List String)
  | start (id : String) (porte : Porte) (now : Instant) (accepte : Mission → Bool)
  | pause (id : String)
  | resume (id : String) (now : Instant)
  | cancel (id : String) (now : Instant) (accepte : Mission → Bool)
  | passe (i : Nat) (p : Passe) (accepte : Mission → Bool)
  | executeur (r : Ref) (appel : Appel) (accepte : Mission → Bool)

namespace Etat

def repondre (s : Etat) (memoire : Memoire) (reponse : Option Reponse) : Etat :=
  { s with memoire := memoire, reponses := s.reponses ++ [reponse] }

def lancer (s : Etat) (memoire : Memoire) (r : Ref) : Etat :=
  { s with
    memoire := memoire
    marcheurs := s.marcheurs ++ [(r, { executed := 0, passes := 0 })] }

def poursuivre (s : Etat) (memoire : Memoire) (i : Nat) (r : Ref) (w : Routes.Marcheur) : Etat :=
  { s with memoire := memoire, marcheurs := s.marcheurs.set i (r, w) }

def terminer (s : Etat) (memoire : Memoire) (i : Nat) (reponse : Option Reponse) : Etat where
  memoire := memoire
  marcheurs := s.marcheurs.eraseIdx i
  reponses := s.reponses ++ [reponse]

def start (s : Etat) (id : String) (porte : Porte) (now : Instant)
    (accepte : Mission → Bool) : Etat :=
  match s.memoire.getItem id with
  | (none, memoire) => s.repondre memoire (some (.error "Mission or executor not found"))
  | (some r, memoire) =>
      match Routes.start (memoire.objets r) porte now with
      | (m, some reponse) => s.repondre (memoire.muter r m) (some reponse)
      | (m, none) =>
          match memoire.transition r m accepte with
          | (memoire', true) => s.lancer memoire' r
          | (memoire', false) => s.repondre memoire' none

def pause (s : Etat) (id : String) : Etat :=
  match s.memoire.getItem id with
  | (none, memoire) => s.repondre memoire (some (.error "Mission not found"))
  | (some r, memoire) =>
      match Routes.pause (memoire.objets r) with
      | (m, reponse) => s.repondre (memoire.muter r m) (some reponse)

def resume (s : Etat) (id : String) (now : Instant) : Etat :=
  match s.memoire.getItem id with
  | (none, memoire) => s.repondre memoire (some (.error "Mission or executor not found"))
  | (some r, memoire) =>
      match Routes.resume (memoire.objets r) now with
      | (m, some reponse) => s.repondre (memoire.muter r m) (some reponse)
      | (m, none) => s.lancer (memoire.muter r m) r

def cancel (s : Etat) (id : String) (now : Instant) (accepte : Mission → Bool) : Etat :=
  match s.memoire.getItem id with
  | (none, memoire) => s.repondre memoire (some (.error "Mission or executor not found"))
  | (some r, memoire) =>
      match memoire.cancelMission accepte r now with
      | (memoire', some _) =>
          s.repondre memoire'
            (some (.statut (memoire'.objets r).missionId (memoire'.objets r).status))
      | (memoire', none) => s.repondre memoire' none

def bilan (w : Routes.Marcheur) (m : Mission) : Reponse :=
  .marche m.missionId m.status w.executed (getProgress m)

/-- The loop of a walk is over: its answer, or another attempt. -/
def finir (s : Etat) (memoire : Memoire) (i : Nat) (r : Ref) (w : Routes.Marcheur) (now : Instant)
    (accepte : Mission → Bool) : Etat :=
  if estTerminal (memoire.objets r).status then
    match memoire.preparerReprise accepte r now with
    | (memoire', some true) =>
        s.poursuivre memoire' i r { executed := w.executed, passes := 0 }
    | (memoire', some false) => s.terminer memoire' i (some (bilan w (memoire'.objets r)))
    | (memoire', none) => s.terminer memoire' i none
  else s.terminer memoire i (some (bilan w (memoire.objets r)))

def passe (repli : Int) (s : Etat) (i : Nat) (p : Passe) (accepte : Mission → Bool) :
    Option Etat :=
  match s.marcheurs[i]? with
  | none => none
  | some (r, w) =>
      if estTerminal (s.memoire.objets r).status ∨ (s.memoire.objets r).status = .paused
          ∨ maxExecutionPasses ≤ w.passes then
        some (s.finir s.memoire i r w p.maintenant accepte)
      else
        match executeStep accepte r repli p s.memoire with
        | none => none
        | some (memoire, none) => some (s.terminer memoire i none)
        | some (memoire, some count) =>
            if count = 0 then
              some (s.finir memoire i r { w with passes := w.passes + 1 } p.maintenant accepte)
            else
              some (s.poursuivre memoire i r
                { executed := w.executed + count, passes := w.passes + 1 })

def pas (repli : Int) (s : Etat) : Evenement → Option Etat
  | .creer m nodes edges accepte => some { s with memoire := s.memoire.creer m nodes edges accepte }
  | .inscrire m accepte => some { s with memoire := s.memoire.inscrire m accepte }
  | .consulter id => some { s with memoire := (s.memoire.getItem id).2 }
  | .lister ordre => some { s with memoire := s.memoire.hydrater ordre }
  | .start id porte now accepte => some (s.start id porte now accepte)
  | .pause id => some (s.pause id)
  | .resume id now => some (s.resume id now)
  | .cancel id now accepte => some (s.cancel id now accepte)
  | .passe i p accepte => passe repli s i p accepte
  | .executeur r appel accepte =>
      if r < s.memoire.prochain then
        (s.memoire.appeler repli r accepte appel).map fun memoire => { s with memoire := memoire }
      else none

end Etat

def lu (s : Memoire) (id : String) : Option Mission :=
  match s.missions.get? id with
  | some r => some (s.objets r)
  | none => s.magasin.lire id

theorem lu_cache {s : Memoire} {id : String} (h : s.missions.get? id = some r) :
    s.lu id = some (s.objets r) := by
  unfold lu
  rw [h]

theorem lu_absent {s : Memoire} {id : String} (h : s.missions.get? id = none) :
    s.lu id = s.magasin.lire id := by
  unfold lu
  rw [h]

/-- The gate refuses the mission for good: it is bound to a project, and its path is not allowed
or its execution is denied. -/
def Refuse (m : Mission) (porte : Porte) : Prop :=
  (m.context.localPath ≠ "" ∨ m.context.repository ≠ "") ∧
    (m.context.localPath ≠ "" ∧ porte.localPath.verdict ≠ .allow ∨
      porte.execution.verdict = .deny)

/-- The gate refuses no mission that is not FAILED already, in memory or in the store; and the
store accepts each mission whose status becomes terminal. -/
def Conservateur (s : Etat) : Evenement → Prop
  | .inscrire m accepte => estTerminal m.status = true → accepte m = true
  | .start id porte _ _ => ∀ m, s.memoire.lu id = some m → Refuse m porte →
      m.status = .failed ∨ Conserve s.memoire.magasin { m with status := .failed }
  | .cancel id _ accepte => ∀ m, s.memoire.lu id = some m → AccepteFins accepte m
  | .passe i _ accepte => ∀ w, s.marcheurs[i]? = some w →
      AccepteFins accepte (s.memoire.objets w.1)
  | .executeur r (.executeStep _) accepte | .executeur r (.cancelMission _) accepte =>
      AccepteFins accepte (s.memoire.objets r)
  | _ => True

structure Sain (s : Etat) : Prop where
  durable : Durable s.memoire
  alloues : ∀ w ∈ s.marcheurs, w.1 < s.memoire.prochain

section Pas

variable {s s' : Etat} {memoire : Memoire} {r : Ref} {id : String} {i : Nat}
  {accepte : Mission → Bool} {now : Instant}

theorem Sain.suite (hs : Sain s) (h : Suite s.memoire memoire) :
    Sain { s with memoire := memoire } :=
  ⟨h.durable, fun w hw => Nat.lt_of_lt_of_le (hs.alloues w hw) h.croit⟩

theorem Sain.repondre (hs : Sain s) (h : Suite s.memoire memoire) (reponse : Option Reponse) :
    Sain (s.repondre memoire reponse) :=
  ⟨h.durable, (hs.suite h).alloues⟩

theorem Sain.lancer (hs : Sain s) (h : Suite s.memoire memoire) (hr : r < memoire.prochain) :
    Sain (s.lancer memoire r) := by
  refine ⟨h.durable, fun w hw => ?_⟩
  rcases List.mem_append.mp hw with hw | hw
  · exact (hs.suite h).alloues w hw
  · cases List.mem_singleton.mp hw
    exact hr

theorem Sain.poursuivre (hs : Sain s) (h : Suite s.memoire memoire) (hr : r < memoire.prochain)
    (w : Routes.Marcheur) : Sain (s.poursuivre memoire i r w) := by
  refine ⟨h.durable, fun w' hw' => ?_⟩
  rcases List.mem_or_eq_of_mem_set hw' with hw' | rfl
  · exact (hs.suite h).alloues w' hw'
  · exact hr

theorem Sain.terminer (hs : Sain s) (h : Suite s.memoire memoire) (reponse : Option Reponse) :
    Sain (s.terminer memoire i reponse) :=
  ⟨h.durable, fun w hw => (hs.suite h).alloues w (List.mem_of_mem_eraseIdx hw)⟩

theorem getItem_some (h : Durable s.memoire) (hget : s.memoire.getItem id = (some r, memoire)) :
    Suite s.memoire memoire ∧ r < memoire.prochain ∧
      s.memoire.lu id = some (memoire.objets r) ∧ memoire.magasin = s.memoire.magasin := by
  have hsuite := suite_getItem h id
  have halloue := getItem_alloue (r := r) h (by rw [hget])
  rw [hget] at hsuite halloue
  refine ⟨hsuite, halloue, ?_⟩
  cases hcache : s.memoire.missions.get? id with
  | some w =>
      rw [getItem_cache hcache] at hget
      cases hget
      exact ⟨lu_cache hcache, rfl⟩
  | none =>
      rw [getItem_absent hcache] at hget
      rw [lu_absent hcache]
      unfold relire at hget
      split at hget
      · cases hget
      · next m hlu =>
          cases hget
          exact ⟨hlu.trans (congrArg some (allouer_self s.memoire m).symm), rfl⟩

theorem getItem_none (h : Durable s.memoire) (hget : s.memoire.getItem id = (none, memoire)) :
    Suite s.memoire memoire := by
  have hsuite := suite_getItem h id
  rwa [hget] at hsuite

theorem checkMissionSecurity_cases (m : Mission) (porte : Porte) :
    Routes.checkMissionSecurity m porte = (m, none) ∨
      ∃ reponse, Routes.checkMissionSecurity m porte =
          ({ m with status := .failed }, some reponse) ∧ Refuse m porte ∨
        Routes.checkMissionSecurity m porte = ({ m with status := .paused }, some reponse) := by
  unfold Routes.checkMissionSecurity Refuse
  by_cases hlibre : m.context.localPath = "" ∧ m.context.repository = ""
  · rw [if_pos hlibre]
    exact .inl rfl
  · rw [if_neg hlibre]
    have hlie : m.context.localPath ≠ "" ∨ m.context.repository ≠ "" := by
      by_contra hnot
      push Not at hnot
      exact hlibre hnot
    by_cases hchemin : m.context.localPath ≠ "" ∧ porte.localPath.verdict ≠ .allow
    · rw [if_pos hchemin]
      exact .inr ⟨_, .inl ⟨rfl, hlie, .inl hchemin⟩⟩
    · rw [if_neg hchemin]
      cases hexecution : porte.execution.verdict with
      | allow => exact .inl rfl
      | deny => exact .inr ⟨_, .inl ⟨rfl, hlie, .inr rfl⟩⟩
      | requireHumanValidation => exact .inr ⟨_, .inr rfl⟩

theorem startMission_cases (m : Mission) (now : Instant) :
    GraphExecutor.startMission m now = (m, false) ∨ GraphExecutor.startMission m now =
      ({ m with status := .running, startedAt := some now }, true) := by
  unfold GraphExecutor.startMission
  split
  · exact .inr rfl
  · exact .inl rfl

theorem start_none {m m' : Mission} {porte : Porte}
    (h : Routes.start m porte now = (m', none)) :
    m'.missionId = m.missionId ∧ m'.status = .running := by
  unfold Routes.start at h
  rcases checkMissionSecurity_cases m porte with hgate | ⟨reponse, ⟨hgate, -⟩ | hgate⟩
  · rcases startMission_cases m now with hstart | hstart
    all_goals
      simp only [hgate, hstart] at h
      cases h
    exact ⟨rfl, rfl⟩
  · simp only [hgate] at h
    cases h
  · simp only [hgate] at h
    cases h

theorem start_some {m m' : Mission} {porte : Porte} {reponse : Reponse}
    (h : Routes.start m porte now = (m', some reponse)) :
    m'.missionId = m.missionId ∧ (estTerminal m'.status = true → m'.status = m.status ∨
      Refuse m porte ∧ m' = { m with status := .failed }) := by
  unfold Routes.start at h
  rcases checkMissionSecurity_cases m porte with hgate | ⟨reponse, ⟨hgate, hrefus⟩ | hgate⟩
  · rcases startMission_cases m now with hstart | hstart
    all_goals
      simp only [hgate, hstart] at h
      cases h
    exact ⟨rfl, fun _ => .inl rfl⟩
  · simp only [hgate] at h
    cases h
    exact ⟨rfl, fun _ => .inr ⟨hrefus, rfl⟩⟩
  · simp only [hgate] at h
    cases h
    exact ⟨rfl, fun hterminal => by cases hterminal⟩

theorem pause_spec (m : Mission) : (Routes.pause m).1.missionId = m.missionId ∧
    (estTerminal (Routes.pause m).1.status = true → (Routes.pause m).1.status = m.status) := by
  unfold Routes.pause
  split
  · exact ⟨rfl, fun _ => rfl⟩
  · exact ⟨rfl, fun hterminal => by cases hterminal⟩

theorem resume_spec (m : Mission) (now : Instant) :
    (Routes.resume m now).1.missionId = m.missionId ∧
      (estTerminal (Routes.resume m now).1.status = true →
        (Routes.resume m now).1.status = m.status) := by
  unfold Routes.resume
  split
  · exact ⟨rfl, fun _ => rfl⟩
  · exact ⟨rfl, fun hterminal => by cases hterminal⟩

theorem sain_start {porte : Porte} (hs : Sain s)
    (hporte : Conservateur s (.start id porte now accepte)) :
    Sain (s.start id porte now accepte) := by
  unfold Etat.start
  split
  · next memoire hget => exact hs.repondre (getItem_none hs.durable hget) _
  · next r memoire hget =>
      obtain ⟨hsuite, hr, hlu, hmagasin⟩ := getItem_some hs.durable hget
      split
      · next m reponse hstart =>
          obtain ⟨hid, hstatus⟩ := start_some hstart
          refine hs.repondre (hsuite.trans ⟨hsuite.durable.muter hid fun hterminal => ?_, ?_⟩) _
          · rcases hstatus hterminal with hsame | ⟨hrefus, rfl⟩
            · exact .inl hsame
            · rw [hmagasin]
              exact (hporte _ hlu hrefus).imp_left Eq.symm
          · exact le_refl _
      · next m hstart =>
          obtain ⟨hid, hrunning⟩ := start_none hstart
          have htransition := suite_transition accepte (m := m) hsuite.durable hr hid
            fun hterminal => by rw [hrunning] at hterminal; cases hterminal
          split
          all_goals
            next heq =>
              rw [heq] at htransition
              have htotal := hsuite.trans htransition
              first
                | exact hs.lancer htotal (Nat.lt_of_lt_of_le hr htransition.croit)
                | exact hs.repondre htotal _

theorem sain_pause (hs : Sain s) (id : String) : Sain (s.pause id) := by
  unfold Etat.pause
  split
  · next memoire hget => exact hs.repondre (getItem_none hs.durable hget) _
  · next r memoire hget =>
      obtain ⟨hsuite, -, -, -⟩ := getItem_some hs.durable hget
      obtain ⟨hid, hstatus⟩ := pause_spec (memoire.objets r)
      refine hs.repondre (hsuite.trans ⟨hsuite.durable.muter hid fun hterminal => ?_, le_refl _⟩) _
      exact .inl (hstatus hterminal)

theorem sain_resume (hs : Sain s) (id : String) (now : Instant) : Sain (s.resume id now) := by
  unfold Etat.resume
  split
  · next memoire hget => exact hs.repondre (getItem_none hs.durable hget) _
  · next r memoire hget =>
      obtain ⟨hsuite, hr, -, -⟩ := getItem_some hs.durable hget
      obtain ⟨hid, hstatus⟩ := resume_spec (memoire.objets r) now
      have hresume : Suite s.memoire (memoire.muter r (Routes.resume (memoire.objets r) now).1) :=
        hsuite.trans ⟨hsuite.durable.muter hid fun hterminal => .inl (hstatus hterminal), le_refl _⟩
      split
      · next heq =>
          rw [heq] at hresume
          exact hs.repondre hresume _
      · next heq =>
          rw [heq] at hresume
          exact hs.lancer hresume hr

theorem sain_cancel (hs : Sain s) (haccepte : Conservateur s (.cancel id now accepte)) :
    Sain (s.cancel id now accepte) := by
  unfold Etat.cancel
  split
  · next memoire hget => exact hs.repondre (getItem_none hs.durable hget) _
  · next r memoire hget =>
      obtain ⟨hsuite, hr, hlu, -⟩ := getItem_some hs.durable hget
      have hcancel := suite_cancelMission now hsuite.durable hr (haccepte _ hlu)
      split <;> next heq =>
        rw [heq] at hcancel
        exact hs.repondre (hsuite.trans hcancel) _

theorem sain_finir (hs : Sain s) (hsuite : Suite s.memoire memoire) (hr : r < memoire.prochain)
    (w : Routes.Marcheur) (now : Instant) (accepte : Mission → Bool) :
    Sain (s.finir memoire i r w now accepte) := by
  unfold Etat.finir
  split
  · have hreprise := suite_preparerReprise accepte now hsuite.durable hr
    split
    all_goals
      next heq =>
        rw [heq] at hreprise
        have htotal := hsuite.trans hreprise
        first
          | exact hs.poursuivre htotal (Nat.lt_of_lt_of_le hr hreprise.croit) _
          | exact hs.terminer htotal _
  · exact hs.terminer hsuite _

theorem sain_passe {repli : Int} {p : Passe} (hs : Sain s)
    (haccepte : Conservateur s (.passe i p accepte))
    (h : Etat.passe repli s i p accepte = some s') : Sain s' := by
  unfold Etat.passe at h
  split at h
  · cases h
  · next r w hw =>
      have hr : r < s.memoire.prochain := hs.alloues (r, w) (List.mem_of_getElem? hw)
      split at h
      · cases h
        exact sain_finir hs (.refl hs.durable) hr _ _ _
      · split at h
        · cases h
        · next memoire hetape =>
            cases h
            exact hs.terminer (suite_executeStep hs.durable hr (haccepte _ hw) hetape) _
        · next memoire count hetape =>
            have hsuite := suite_executeStep hs.durable hr (haccepte _ hw) hetape
            have hr' : r < memoire.prochain := Nat.lt_of_lt_of_le hr hsuite.croit
            split at h
            · cases h
              exact sain_finir hs hsuite hr' _ _ _
            · cases h
              exact hs.poursuivre hsuite hr' _

theorem suite_creer {s : Memoire} (h : Durable s) (m : Mission) (nodes : List MissionNode)
    (edges : List MissionEdge) (accepte : Mission → Bool) :
    Suite s (s.creer m nodes edges accepte) := by
  have hbuilt : Suite s ((s.allouer { m with status := .created }).buildGraph s.prochain
      nodes edges) :=
    Suite.trans ⟨h.allouer _, Nat.le_succ _⟩ (suite_buildGraph (h.allouer _) _ _)
  refine hbuilt.trans (suite_setItem hbuilt.durable (Nat.lt_succ_self _) fun hterminal => ?_)
  exfalso
  unfold buildGraph at hterminal
  rw [muter_self, allouer_self] at hterminal
  have hstatus := buildGraph_status _ _ _ hterminal
  rw [hstatus] at hterminal
  cases hterminal

theorem suite_inscrire {s : Memoire} {m : Mission} (h : Durable s)
    (hm : estTerminal m.status = true → accepte m = true) : Suite s (s.inscrire m accepte) := by
  have halloue : Suite s (s.allouer m) := ⟨h.allouer m, Nat.le_succ _⟩
  refine halloue.trans (suite_setItem halloue.durable (Nat.lt_succ_self _) fun hterminal => ?_)
  rw [allouer_self] at hterminal ⊢
  exact .inl (hm hterminal)

theorem sain_pas {repli : Int} {ev : Evenement} (hs : Sain s) (hev : Conservateur s ev)
    (h : Etat.pas repli s ev = some s') : Sain s' := by
  cases ev with
  | creer m nodes edges accepte =>
      cases h
      exact hs.suite (suite_creer hs.durable m nodes edges accepte)
  | inscrire m accepte =>
      cases h
      exact hs.suite (suite_inscrire hs.durable hev)
  | consulter id =>
      cases h
      exact hs.suite (suite_getItem hs.durable id)
  | lister ordre =>
      cases h
      exact hs.suite (suite_hydrater hs.durable ordre)
  | start id porte now accepte =>
      cases h
      exact sain_start hs hev
  | pause id =>
      cases h
      exact sain_pause hs id
  | resume id now =>
      cases h
      exact sain_resume hs id now
  | cancel id now accepte =>
      cases h
      exact sain_cancel hs hev
  | passe i p accepte => exact sain_passe hs hev h
  | executeur r appel accepte =>
      simp only [Etat.pas] at h
      split at h
      · next hr =>
          obtain ⟨memoire, happel, rfl⟩ := Option.map_eq_some_iff.mp h
          apply hs.suite
          cases appel with
          | buildGraph nodes edges =>
              cases happel
              exact suite_buildGraph hs.durable nodes edges
          | startMission now =>
              cases happel
              exact suite_startMission hs.durable hr
          | executeStep p =>
              obtain ⟨⟨memoire', issue⟩, hetape, rfl⟩ := Option.map_eq_some_iff.mp happel
              exact suite_executeStep hs.durable hr hev hetape
          | cancelMission now =>
              cases happel
              exact suite_cancelMission now hs.durable hr hev
          | preparerReprise now =>
              cases happel
              exact suite_preparerReprise accepte now hs.durable hr
      · cases h

end Pas

def demarrage (maximum : Int) (magasin : Table Mission.missionId) : Etat where
  memoire := ouvrir maximum magasin
  marcheurs := []
  reponses := []

/-- Over any run from any store: while the gate refuses no mission and the store accepts the
missions that end, each terminal mission of the cache can be let go and read again. -/
theorem toujours_relisible (repli maximum : Int) (magasin : Table Mission.missionId)
    (evenements : List Evenement)
    (h : Lib.Along (Etat.pas repli) Conservateur (demarrage maximum magasin) evenements) :
    Lib.Always (Etat.pas repli) (fun s => Relisible s.memoire) (demarrage maximum magasin)
      evenements := by
  have hdepart : Sain (demarrage maximum magasin) :=
    ⟨durable_ouvrir maximum magasin, fun w hw => by cases hw⟩
  have hsain : Lib.Always (Etat.pas repli) Sain (demarrage maximum magasin) evenements :=
    Lib.always_of_along (fun s ev s' hs hev hpas => sain_pas hs hev hpas) hdepart h
  exact hsain.mono fun s hs => hs.durable.relisible

/-- A mission is created, started and run to its end, through a gate that lets it pass. -/
def missionMenee : List Evenement :=
  [.creer Routes.missionLiee [MissionNode.neuf "a" "A"] [] fun _ => true,
    .start "m1" Routes.porteOuverte 0 fun _ => true, .passe 0 Routes.passeReussie fun _ => true]

theorem toujours_relisible_missionMenee :
    ∃ s, Lib.run (Etat.pas 1) (demarrage 200 Table.vide) missionMenee = some s ∧
      s.memoire.missions.get? "m1" = some 0 ∧ (s.memoire.objets 0).status = .completed ∧
      Relisible s.memoire := by
  have hrun : ∃ s, Lib.run (Etat.pas 1) (demarrage 200 Table.vide) missionMenee = some s ∧
      s.memoire.missions.get? "m1" = some 0 ∧ (s.memoire.objets 0).status = .completed :=
    ⟨_, rfl, rfl, rfl⟩
  obtain ⟨s, hs, hcache, hstatus⟩ := hrun
  refine ⟨s, hs, hcache, hstatus, ?_⟩
  have htoujours := toujours_relisible 1 200 Table.vide missionMenee ?_
  · exact htoujours.run hs
  · intro s₁ _
    refine ⟨trivial, fun s₂ _ => ⟨?_, fun s₃ _ => ⟨?_, trivial⟩⟩⟩
    · rintro m - ⟨-, ⟨-, hchemin⟩ | hexecution⟩
      · exact absurd rfl hchemin
      · cases hexecution
    · exact fun _ _ _ _ => .inr rfl

/-- The same mission, whose start the gate refuses. -/
def refusAuDepart : List Evenement :=
  [.creer Routes.missionLiee [MissionNode.neuf "a" "A"] [] fun _ => true,
    .start "m1" Routes.porteFermee 0 fun _ => true]

/-- The gate marks the mission FAILED in memory only: once let go, it is read READY. -/
theorem refus_non_persiste :
    ∃ s, Lib.run (Etat.pas 1) (demarrage 200 Table.vide) refusAuDepart = some s ∧
      s.memoire.missions.get? "m1" = some 0 ∧ (s.memoire.objets 0).status = .failed ∧
      (s.memoire.magasin.lire "m1").map Mission.status = some .ready ∧
      ¬ Lib.Always (Etat.pas 1) (fun s => Relisible s.memoire) (demarrage 200 Table.vide)
        refusAuDepart := by
  have hrun : ∃ s, Lib.run (Etat.pas 1) (demarrage 200 Table.vide) refusAuDepart = some s ∧
      s.memoire.missions.get? "m1" = some 0 ∧ (s.memoire.objets 0).status = .failed ∧
      (s.memoire.magasin.lire "m1").map Mission.status = some .ready :=
    ⟨_, rfl, rfl, rfl, rfl⟩
  obtain ⟨s, hs, hcache, hstatus, hmagasin⟩ := hrun
  refine ⟨s, hs, hcache, hstatus, hmagasin, fun htoujours => ?_⟩
  obtain ⟨⟨m, hlu, hmeme⟩, -⟩ := htoujours.run hs "m1" 0 hcache (by rw [hstatus]; rfl)
  rw [hlu, Option.map_some, hmeme, hstatus] at hmagasin
  cases hmagasin

end Memoire

end Hermes
