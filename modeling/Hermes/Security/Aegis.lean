import Hermes.Lib.Dict
import Hermes.Security.Approvals

/-! # The gate of the actions

`AegisEngine` gives a verdict from the permission matrix, the static whitelist and the paths that
the caller adds or imposes.
-/

namespace Hermes.Aegis

open Lib Empreinte Approvals

inductive Verdict where
  | allow
  | deny
  | requireHumanValidation
  deriving DecidableEq

structure CategoryPolicy where
  name : String
  mutating : Bool := true
  pathBased : Bool := false
  mandatoryValidation : Bool := false
  minAutonomyForAutoAllow : Option String := none
  deriving DecidableEq

structure PermissionMatrix where
  autonomyLevel : String
  categories : Dict String CategoryPolicy

def PermissionMatrix.getCategory (m : PermissionMatrix) (actionType : String) :
    Option CategoryPolicy :=
  m.categories.get? actionType

structure ActionRequest where
  actionType : String
  description : String
  targetPath : Option String := none
  requestingAgent : String := "unknown"
  taskId : Option String := none
  projectId : Option String := none
  discriminants : List (String × String) := []
  deriving DecidableEq

structure AegisDecision where
  verdict : Verdict
  reason : String
  actionType : String
  deriving DecidableEq

/-- What makes a call raise instead of answering. -/
inductive Panne where
  | resolution
  | magasin
  | dateAbsente
  | file (e : Approvals.Erreur)
  deriving DecidableEq

def AUTONOMY_ORDER : Dict String Nat := [("low", 0), ("medium", 1), ("high", 2)]

/-- `Path(chemin).resolve()`. -/
def resolu (p : Plateforme) (chemin : String) : Option Chemin :=
  (p.resoudre chemin).map Chemin.lire

structure AegisEngine where
  matrix : PermissionMatrix
  allowedPaths : List Chemin

def AegisEngine.racines (e : AegisEngine) (p : Plateforme) (extra : List String) : List Chemin :=
  e.allowedPaths ++ extra.filterMap (resolu p)

def AegisEngine.isWithinWhitelist (e : AegisEngine) (p : Plateforme) (targetPath : String)
    (extra : List String) : Except Panne Bool :=
  match e.racines p extra with
  | [] => .ok false
  | racine :: racines =>
      match resolu p targetPath with
      | none => .error .resolution
      | some cible => .ok ((racine :: racines).any fun r => Chemin.sous r cible)

def isWithinPath (p : Plateforme) (targetPath root : String) : Except Panne Bool :=
  match resolu p targetPath, resolu p root with
  | some cible, some racine => .ok (Chemin.sous racine cible)
  | _, _ => .error .resolution

section Evaluation

-- the text of a string between quotes
variable (repr : String → String)

/-- The verdict of a category whose path is in scope. -/
def AegisEngine.juger (e : AegisEngine) (action : ActionRequest) (c : CategoryPolicy) :
    AegisDecision :=
  if c.mandatoryValidation then
    { verdict := .requireHumanValidation
      reason := action.actionType ++ " always requires human validation (§17.3)."
      actionType := action.actionType }
  else if ¬ c.mutating then
    { verdict := .allow
      reason := action.actionType ++ " is read-only and in scope."
      actionType := action.actionType }
  else
    let required := Texte.ou (c.minAutonomyForAutoAllow.getD "") "high"
    let currentRank := AUTONOMY_ORDER.getD e.matrix.autonomyLevel 0
    let requiredRank := AUTONOMY_ORDER.getD required 2
    if requiredRank ≤ currentRank then
      { verdict := .allow
        reason := action.actionType ++ " auto-allowed at autonomy level " ++
          repr e.matrix.autonomyLevel ++ "."
        actionType := action.actionType }
    else
      { verdict := .requireHumanValidation
        reason := action.actionType ++ " needs autonomy level " ++ repr required ++
          " to auto-allow; current level is " ++ repr e.matrix.autonomyLevel ++ "."
        actionType := action.actionType }

def refus (action : ActionRequest) (reason : String) : AegisDecision where
  verdict := .deny
  reason := reason
  actionType := action.actionType

/-- The refusal of the path checks, if there is one: outside the whitelist, then outside the
root that narrows it. -/
def AegisEngine.refusDuChemin (e : AegisEngine) (p : Plateforme) (action : ActionRequest)
    (projectRoot : Option String) (extra : List String) : Except Panne (Option AegisDecision) :=
  let cible := action.targetPath.getD ""
  if cible = "" then
    .ok (some (refus action (action.actionType ++ " requires target_path but none was given.")))
  else
    match e.isWithinWhitelist p cible extra with
    | .error err => .error err
    | .ok false =>
        .ok (some (refus action (repr cible ++ " is outside ALLOWED_PATHS and outside the " ++
          "workspace this action names — a hard boundary, not negotiable by autonomy level " ++
          "(§17.1). A validated project grants its root only to actions that name it (A-4).")))
    | .ok true =>
        match projectRoot with
        | none => .ok none
        | some racine =>
            match isWithinPath p cible racine with
            | .error err => .error err
            | .ok false =>
                .ok (some (refus action (repr cible ++ " is inside the whitelist but outside the " ++
                  "project's root " ++ repr racine ++ " — project scoping only narrows access, " ++
                  "it never widens it.")))
            | .ok true => .ok none

def AegisEngine.evaluate (e : AegisEngine) (p : Plateforme) (action : ActionRequest)
    (projectRoot : Option String) (extra : List String) : Except Panne AegisDecision :=
  match e.matrix.getCategory action.actionType with
  | none =>
      .ok
        { verdict := .requireHumanValidation
          reason := "Unknown action category " ++ repr action.actionType ++
            " — treated as out of scope (§17.3)."
          actionType := action.actionType }
  | some c =>
      if c.pathBased then
        match e.refusDuChemin repr p action projectRoot extra with
        | .error err => .error err
        | .ok (some decision) => .ok decision
        | .ok none => .ok (e.juger repr action c)
      else .ok (e.juger repr action c)

end Evaluation

inductive ProjectStatus where
  | active
  | archived
  deriving DecidableEq

inductive ValidationStatus where
  | unvalidated
  | valid
  | invalid
  deriving DecidableEq

structure Project where
  id : String
  rootPath : Option String
  status : ProjectStatus
  validationStatus : Option ValidationStatus
  deriving DecidableEq

structure ProjectStore where
  projets : Table Project.id
  enPanne : Nat → Bool := fun _ => false

def ProjectStore.get (s : ProjectStore) (n : Nat) (projectId : String) :
    Except Panne (Option Project) :=
  if s.enPanne n then .error .magasin else .ok (s.projets.lire projectId)

def estValide (projet : Option Project) : Bool :=
  projet.any fun q => q.validationStatus = some .valid

def autorise (projet : Option Project) : Bool :=
  projet.any fun q =>
    q.rootPath.getD "" ≠ "" ∧ q.status = .active ∧ estValide (some q)

def authorizedRoot (s : ProjectStore) (projectId : Option String) : Option String :=
  let id := projectId.getD ""
  if id = "" then none
  else
    match s.get 1 id with
    | .error _ => none
    | .ok projet => if autorise projet then projet.bind Project.rootPath else none

structure Contexte where
  engine : AegisEngine
  store : ProjectStore
  plateforme : Plateforme
  hacher : String → String
  repr : String → String
  isoformat : Date → String
  /-- The clock of `consume_approval`, then the one of `record_pending`. -/
  horloge : Horloge
  horlogeDepot : Horloge
  uuid : String

def workspaceGrant (s : ProjectStore) (projectId : Option String) : List String :=
  (authorizedRoot s projectId).toList.filter fun racine => racine ≠ ""

def resolveDecision (k : Contexte) (action : ActionRequest) : Except Panne AegisDecision :=
  let id := action.projectId.getD ""
  if id = "" then k.engine.evaluate k.repr k.plateforme action none []
  else
    match k.store.get 0 id with
    | .error err => .error err
    | .ok none =>
        -- the boundary first: a refusal of the engine stays a refusal
        match k.engine.evaluate k.repr k.plateforme action none [] with
        | .error err => .error err
        | .ok base =>
            if base.verdict = .deny then .ok base
            else
              .ok
                { verdict := .requireHumanValidation
                  reason := "project_id " ++ k.repr id ++ " does not resolve to a known project " ++
                    "— treated as suspicious rather than silently skipping project-level " ++
                    "restriction (§17.3)."
                  actionType := action.actionType }
    | .ok (some project) =>
        let extra := workspaceGrant k.store action.projectId
        if project.rootPath.getD "" = "" then
          k.engine.evaluate k.repr k.plateforme action none extra
        else k.engine.evaluate k.repr k.plateforme action project.rootPath extra

def ActionRequest.demandee (a : ActionRequest) : Action where
  actionType := a.actionType
  targetPath := a.targetPath
  description := a.description
  discriminants := some ((Dict.update [] a.discriminants).map fun d => (d.1, Json.texte d.2))

def applyHumanConsent (k : Contexte) (t : File) (action : ActionRequest)
    (decision : AegisDecision) : File × Except Panne AegisDecision :=
  if decision.verdict ≠ .requireHumanValidation then (t, .ok decision)
  else
    match consumeApproval k.hacher k.plateforme k.horloge t action.demandee with
    | (t, .erreur e) => (t, .error (.file e))
    | (t, .entree (some consumed)) =>
        match consumed.decidedAt with
        | none => (t, .error .dateAbsente)
        | some date =>
            (t, .ok
              { verdict := .allow
                reason := "Human approval " ++ consumed.id ++ " accepted for this exact action " ++
                  "(single use, granted " ++ k.isoformat date ++ ")."
                actionType := decision.actionType })
    | (t, .entree none) =>
        let demande : Demande :=
          { action := action.demandee
            reason := decision.reason
            requestingAgent := action.requestingAgent
            taskId := action.taskId
            projectId := action.projectId }
        match recordPending k.hacher k.plateforme k.horlogeDepot k.uuid t demande with
        | (t, .erreur e) => (t, .error (.file e))
        | (t, .entree _) => (t, .ok decision)

def evaluate (k : Contexte) (t : File) (action : ActionRequest) :
    File × Except Panne AegisDecision :=
  match resolveDecision k action with
  | .error e => (t, .error e)
  | .ok decision => applyHumanConsent k t action decision

theorem isWithinWhitelist_spec {e : AegisEngine} {p : Plateforme} {cible : String}
    {extra : List String} (h : e.isWithinWhitelist p cible extra = .ok true) :
    ∃ q, resolu p cible = some q ∧ ∃ r ∈ e.racines p extra, Chemin.sous r q = true := by
  unfold AegisEngine.isWithinWhitelist at h
  split at h
  · cases h
  · next racine racines hracines =>
      split at h
      · cases h
      · next q hq =>
          have hany := Except.ok.inj h
          rw [List.any_eq_true] at hany
          exact ⟨q, hq, hracines ▸ hany⟩

theorem isWithinPath_spec {p : Plateforme} {cible racine : String}
    (h : isWithinPath p cible racine = .ok true) :
    ∃ q r, resolu p cible = some q ∧ resolu p racine = some r ∧ Chemin.sous r q = true := by
  unfold isWithinPath at h
  split at h
  · next q r hq hr => exact ⟨q, r, hq, hr, Except.ok.inj h⟩
  · cases h

/-- A target that the engine does not deny: it lies under a path of the whitelist, and under
the root that narrows it. -/
structure Permis (e : AegisEngine) (p : Plateforme) (action : ActionRequest)
    (projectRoot : Option String) (extra : List String) (q : Chemin) : Prop where
  cible : ∃ texte, action.targetPath = some texte ∧ resolu p texte = some q
  liste : ∃ r ∈ e.racines p extra, Chemin.sous r q = true
  borne : ∀ racine, projectRoot = some racine →
    ∃ r, resolu p racine = some r ∧ Chemin.sous r q = true

theorem refusDuChemin_verdict {e : AegisEngine} {repr : String → String} {p : Plateforme}
    {action : ActionRequest} {projectRoot : Option String} {extra : List String}
    {d : AegisDecision} (h : e.refusDuChemin repr p action projectRoot extra = .ok (some d)) :
    d.verdict = .deny := by
  unfold AegisEngine.refusDuChemin at h
  dsimp only at h
  repeat' split at h
  all_goals first | cases h; rfl | cases h

theorem permis_of_refusDuChemin {e : AegisEngine} {repr : String → String} {p : Plateforme}
    {action : ActionRequest} {projectRoot : Option String} {extra : List String}
    (h : e.refusDuChemin repr p action projectRoot extra = .ok none) :
    ∃ q, Permis e p action projectRoot extra q := by
  unfold AegisEngine.refusDuChemin at h
  dsimp only at h
  split at h
  · cases h
  · next hcible =>
      have htarget : action.targetPath = some (action.targetPath.getD "") := by
        cases hnone : action.targetPath with
        | none => simp [hnone] at hcible
        | some texte => rfl
      split at h
      · cases h
      · cases h
      · next hliste =>
          have hwhite := isWithinWhitelist_spec hliste
          cases hwhite with
          | intro q hq =>
              refine ⟨q, ⟨_, htarget, hq.1⟩, hq.2, fun racine hroot => ?_⟩
              rw [hroot] at h
              dsimp only at h
              split at h
              · cases h
              · cases h
              · next hborne =>
                  obtain ⟨q', r, hq', hr, hsous⟩ := isWithinPath_spec hborne
                  have hsame : q = q' := Option.some.inj (hq.1.symm.trans hq')
                  exact ⟨r, hr, hsame ▸ hsous⟩

theorem engine_permis {e : AegisEngine} {p : Plateforme} {repr : String → String}
    {action : ActionRequest} {projectRoot : Option String} {extra : List String}
    {c : CategoryPolicy} {d : AegisDecision}
    (hcat : e.matrix.getCategory action.actionType = some c) (hpath : c.pathBased = true)
    (h : e.evaluate repr p action projectRoot extra = .ok d) (hdeny : d.verdict ≠ .deny) :
    ∃ q, Permis e p action projectRoot extra q := by
  unfold AegisEngine.evaluate at h
  simp only [hcat, hpath, if_true] at h
  split at h
  · cases h
  · next hrefus =>
      cases h
      exact absurd (refusDuChemin_verdict hrefus) hdeny
  · next hrefus => exact permis_of_refusDuChemin hrefus

/-- The project that an action names. An empty identifier names none. -/
def ActionRequest.projetNomme (a : ActionRequest) : Option String :=
  a.projectId.filter fun id => id ≠ ""

/-- Where an action may reach: under a static path or under the root of the project it names,
active and validated; and, whenever that project exists and has a root, under that root. -/
structure Perimetre (k : Contexte) (action : ActionRequest) (q : Chemin) : Prop where
  accorde : (∃ r ∈ k.engine.allowedPaths, Chemin.sous r q = true) ∨
    ∃ id projet racine r, action.projetNomme = some id ∧ k.store.projets.lire id = some projet ∧
      projet.status = .active ∧ projet.validationStatus = some .valid ∧
      projet.rootPath = some racine ∧ resolu k.plateforme racine = some r ∧
      Chemin.sous r q = true
  borne : ∀ id projet racine, action.projetNomme = some id →
    k.store.projets.lire id = some projet → projet.rootPath = some racine → racine ≠ "" →
      ∃ r, resolu k.plateforme racine = some r ∧ Chemin.sous r q = true

theorem mem_workspaceGrant {s : ProjectStore} {projectId : Option String} {racine : String}
    (h : racine ∈ workspaceGrant s projectId) :
    ∃ projet, projectId.getD "" ≠ "" ∧ s.projets.lire (projectId.getD "") = some projet ∧
      projet.status = .active ∧ projet.validationStatus = some .valid ∧
      projet.rootPath = some racine := by
  unfold workspaceGrant authorizedRoot at h
  have hmem := (List.mem_filter.mp h).1
  rw [Option.mem_toList] at hmem
  dsimp only at hmem
  split at hmem
  · cases hmem
  · next hid =>
      split at hmem
      · cases hmem
      · next projet hget =>
          unfold ProjectStore.get at hget
          split at hget
          · cases hget
          · cases hget
            cases hlu : s.projets.lire (projectId.getD "") with
            | none =>
                rw [hlu] at hmem
                cases hmem
            | some q =>
                rw [hlu] at hmem
                simp only [autorise, estValide, Option.any_some, Option.bind_some, ne_eq,
                  decide_eq_true_eq] at hmem
                split at hmem
                · next hauto => exact ⟨q, hid, rfl, hauto.2.1, hauto.2.2, hmem⟩
                · cases hmem

theorem projetNomme_eq {a : ActionRequest} {id : String} (h : a.projetNomme = some id) :
    a.projectId.getD "" = id ∧ id ≠ "" := by
  unfold ActionRequest.projetNomme at h
  have hfilter := Option.filter_eq_some_iff.mp h
  exact ⟨by simp [hfilter.1], by simpa using hfilter.2⟩

theorem projetNomme_of_ne {a : ActionRequest} (h : a.projectId.getD "" ≠ "") :
    a.projetNomme = some (a.projectId.getD "") := by
  unfold ActionRequest.projetNomme
  cases hid : a.projectId with
  | none => simp [hid] at h
  | some id =>
      have hne : id ≠ "" := by simpa [hid] using h
      simp [Option.filter, hne]

section Perimetre

variable {k : Contexte} {action : ActionRequest} {q : Chemin}

theorem accorde_of_permis {projectRoot : Option String} {extra : List String}
    (h : Permis k.engine k.plateforme action projectRoot extra q)
    (hextra : ∀ racine ∈ extra, racine ∈ workspaceGrant k.store action.projectId) :
    (∃ r ∈ k.engine.allowedPaths, Chemin.sous r q = true) ∨
      ∃ id projet racine r, action.projetNomme = some id ∧
        k.store.projets.lire id = some projet ∧ projet.status = .active ∧
        projet.validationStatus = some .valid ∧ projet.rootPath = some racine ∧
        resolu k.plateforme racine = some r ∧ Chemin.sous r q = true := by
  obtain ⟨r, hr, hsous⟩ := h.liste
  rcases List.mem_append.mp hr with hstatic | hadded
  · exact Or.inl ⟨r, hstatic, hsous⟩
  · obtain ⟨racine, hmem, hresolu⟩ := List.mem_filterMap.mp hadded
    obtain ⟨projet, hid, hlu, hactive, hvalid, hroot⟩ := mem_workspaceGrant (hextra racine hmem)
    exact Or.inr ⟨_, projet, racine, r, projetNomme_of_ne hid, hlu, hactive, hvalid, hroot,
      hresolu, hsous⟩

theorem resolveDecision_perimetre {c : CategoryPolicy} {d : AegisDecision}
    (hcat : k.engine.matrix.getCategory action.actionType = some c) (hpath : c.pathBased = true)
    (h : resolveDecision k action = .ok d) (hdeny : d.verdict ≠ .deny) :
    ∃ texte q, action.targetPath = some texte ∧ resolu k.plateforme texte = some q ∧
      Perimetre k action q := by
  unfold resolveDecision at h
  dsimp only at h
  split at h
  · next hid =>
      obtain ⟨q, hpermis⟩ := engine_permis hcat hpath h hdeny
      obtain ⟨texte, htarget, hresolu⟩ := hpermis.cible
      refine ⟨texte, q, htarget, hresolu, accorde_of_permis hpermis (by simp), ?_⟩
      intro id projet racine hnomme
      have hne := projetNomme_eq hnomme
      exact absurd (hne.1.symm.trans hid) hne.2
  · next hid =>
      split at h
      · cases h
      · next hget =>
          have hlu : k.store.projets.lire (action.projectId.getD "") = none := by
            unfold ProjectStore.get at hget
            split at hget
            · cases hget
            · exact Except.ok.inj hget
          split at h
          · cases h
          · next base hbase =>
              have hne : base.verdict ≠ .deny := by
                split at h
                · cases h
                  exact hdeny
                · next hne => exact hne
              obtain ⟨q, hpermis⟩ := engine_permis hcat hpath hbase hne
              obtain ⟨texte, htarget, hresolu⟩ := hpermis.cible
              refine ⟨texte, q, htarget, hresolu, accorde_of_permis hpermis (by simp), ?_⟩
              intro id projet racine hnomme hprojet
              rw [← (projetNomme_eq hnomme).1, hlu] at hprojet
              cases hprojet
      · next project hget =>
          have hlu : k.store.projets.lire (action.projectId.getD "") = some project := by
            unfold ProjectStore.get at hget
            split at hget
            · cases hget
            · exact Except.ok.inj hget
          have hmeme : ∀ id projet, action.projetNomme = some id →
              k.store.projets.lire id = some projet → projet = project := by
            intro id projet hnomme hprojet
            rw [← (projetNomme_eq hnomme).1, hlu] at hprojet
            exact (Option.some.inj hprojet).symm
          split at h
          · next hroot =>
              obtain ⟨q, hpermis⟩ := engine_permis hcat hpath h hdeny
              obtain ⟨texte, htarget, hresolu⟩ := hpermis.cible
              refine ⟨texte, q, htarget, hresolu, accorde_of_permis hpermis fun _ hr => hr, ?_⟩
              intro id projet racine hnomme hprojet hracine hne
              rw [hmeme id projet hnomme hprojet] at hracine
              rw [hracine] at hroot
              exact absurd hroot hne
          · obtain ⟨q, hpermis⟩ := engine_permis hcat hpath h hdeny
            obtain ⟨texte, htarget, hresolu⟩ := hpermis.cible
            refine ⟨texte, q, htarget, hresolu, accorde_of_permis hpermis fun _ hr => hr, ?_⟩
            intro id projet racine hnomme hprojet hracine _
            rw [hmeme id projet hnomme hprojet] at hracine
            exact hpermis.borne racine hracine

theorem applyHumanConsent_cases (k : Contexte) (t : File) (action : ActionRequest)
    (decision : AegisDecision) :
    (applyHumanConsent k t action decision = (t, .ok decision)) ∨
      (decision.verdict = .requireHumanValidation ∧
        ∀ d, (applyHumanConsent k t action decision).2 = .ok d → d.verdict ≠ .deny) := by
  unfold applyHumanConsent
  split
  · exact Or.inl rfl
  · next hverdict =>
      have hverdict : decision.verdict = .requireHumanValidation := not_not.mp hverdict
      refine Or.inr ⟨hverdict, ?_⟩
      intro d hd
      split at hd
      · cases hd
      · split at hd
        · cases hd
        · cases hd
          exact Verdict.noConfusion
      · dsimp only at hd
        split at hd
        · cases hd
        · cases hd
          rw [hverdict]
          exact Verdict.noConfusion

end Perimetre

inductive Evenement where
  | evaluer (k : Contexte) (action : ActionRequest)
  | decider (p : Plateforme) (horloge : Horloge) (approvalId : String) (d : Decision)

def suivre (t : File) : Evenement → File
  | .evaluer k action => (evaluate k t action).1
  | .decider p horloge approvalId d => (decide p horloge t approvalId d).1

def histoire (t : File) (evenements : List Evenement) : File := evenements.foldl suivre t

/-- Whatever was asked and consented to before, an action on a path is authorised only inside
its perimeter, and a refusal leaves the queue as it is. -/
theorem allow_dans_le_perimetre (t : File) (passe : List Evenement) (k : Contexte)
    (action : ActionRequest) (c : CategoryPolicy)
    (hcat : k.engine.matrix.getCategory action.actionType = some c)
    (hpath : c.pathBased = true) :
    (∀ d, (evaluate k (histoire t passe) action).2 = .ok d → d.verdict = .allow →
      ∃ texte q, action.targetPath = some texte ∧ resolu k.plateforme texte = some q ∧
        Perimetre k action q) ∧
      ∀ d, (evaluate k (histoire t passe) action).2 = .ok d → d.verdict = .deny →
        (evaluate k (histoire t passe) action).1 = histoire t passe := by
  generalize histoire t passe = file
  unfold evaluate
  cases hresolve : resolveDecision k action with
  | error e =>
      constructor
      · intro d h
        cases h
      · intro d h
        cases h
  | ok decision =>
      dsimp only
      have hcases := applyHumanConsent_cases k file action decision
      constructor
      · intro d hd hallow
        have hdeny : decision.verdict ≠ .deny := by
          rcases hcases with hsame | ⟨hverdict, _⟩
          · rw [hsame] at hd
            cases hd
            rw [hallow]
            exact Verdict.noConfusion
          · rw [hverdict]
            exact Verdict.noConfusion
        exact resolveDecision_perimetre hcat hpath hresolve hdeny
      · intro d hd hdenied
        rcases hcases with hsame | ⟨_, hnever⟩
        · rw [hsame]
        · exact absurd hdenied (hnever d hd)

/-- A write that the autonomy level leaves to a human, with `/projet` as the whitelist. -/
def contexteProjet : Contexte where
  engine :=
    { matrix :=
        { autonomyLevel := "low"
          categories := [("file_write",
            { name := "file_write"
              pathBased := true
              minAutonomyForAutoAllow := some "medium" })] }
      allowedPaths := [Chemin.lire "/projet"] }
  store := { projets := Table.vide }
  plateforme := .posix
  hacher := id
  repr := id
  isoformat := fun _ => ""
  horloge := Horloge.figee 20
  horlogeDepot := Horloge.figee 20
  uuid := "a1"

def ecritureProjet : ActionRequest where
  actionType := "file_write"
  description := "Write to /projet/a.txt"
  targetPath := some "/projet/a.txt"

def accordProjet : List Evenement :=
  [.evaluer contexteProjet ecritureProjet,
    .decider .posix (Horloge.figee 20) "a1" { approved := true }]

theorem allow_dans_le_perimetre_accord :
    ∃ texte q, ecritureProjet.targetPath = some texte ∧
      resolu contexteProjet.plateforme texte = some q ∧
      Perimetre contexteProjet ecritureProjet q := by
  have hallow : ((evaluate contexteProjet (histoire Table.vide accordProjet)
      ecritureProjet).2.toOption.map AegisDecision.verdict) = some .allow := by
    decide +kernel
  have hspec := allow_dans_le_perimetre Table.vide accordProjet contexteProjet ecritureProjet
    { name := "file_write", pathBased := true, minAutonomyForAutoAllow := some "medium" } rfl rfl
  cases hout : (evaluate contexteProjet (histoire Table.vide accordProjet) ecritureProjet).2 with
  | error e =>
      rw [hout] at hallow
      cases hallow
  | ok d =>
      rw [hout] at hallow
      exact hspec.1 d hout (Option.some.inj hallow)

end Hermes.Aegis
