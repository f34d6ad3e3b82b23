import Hermes.Execution.TaskExecutor
import Hermes.Lib.Nombre
import Hermes.Runs.Taxonomie

/-! # The exits of an execution

An execution ends with an outcome or with an exception.
-/

namespace Hermes.TaskExecutor.Sorties

open Lib Lib.Flottant Lib.Nombre Arbitrage Registre Taxonomie

/-- `RuntimeUnavailableError`, the timeout of a call, and the other exceptions. -/
inductive Genre where
  | indisponible
  | delai
  | autre
  deriving DecidableEq

structure Erreur where
  genre : Genre
  nom : String
  texte : Option String
  deriving DecidableEq

def indisponible (texte : String) : Erreur := ⟨.indisponible, "RuntimeUnavailableError", some texte⟩

/-- What raises when the text of an exception does. -/
def sansTexte : Erreur := ⟨.autre, "Exception", none⟩

inductive Valeur where
  | rien
  | entier (n : Int)
  | flottant (x : Binaire)
  | texte (s : String)
  | liste (items : List String)
  deriving DecidableEq

def Valeur.vrai : Valeur → Bool
  | .rien => false
  | .entier n => n ≠ 0
  | .flottant x => x ≠ .fini 0
  | .texte s => s ≠ ""
  | .liste items => items ≠ []

/-- `int(value)`, nothing when it raises. -/
def Valeur.int (u : Chiffres) : Valeur → Option Int
  | .entier n => some n
  | .flottant (.fini q) => some (if 0 ≤ q then ⌊q⌋ else ⌈q⌉)
  | .texte s => lireEntier u s
  | _ => none

/-- `list(value)`, nothing when it raises. -/
def Valeur.list : Valeur → Option (List String)
  | .texte s => some (s.toList.map fun c => String.ofList [c])
  | .liste items => some items
  | _ => none

/-- `int(value or defaut)`. -/
def Valeur.compte (u : Chiffres) (v : Valeur) (defaut : Int) : Option Int :=
  if v.vrai then v.int u else some defaut

/-- `list(value or [])`. -/
def Valeur.outils (v : Valeur) : Option (List String) := if v.vrai then v.list else some []

structure Meta where
  provider : String := ""
  fournisseur : String := ""
  model : String := ""
  promptTokens : Valeur := .rien
  completionTokens : Valeur := .rien
  toolCallsMade : Valeur := .rien
  toolsInvoked : Valeur := .rien
  deriving DecidableEq

/-- What a runtime returns: a text, or an object with its content and its metadata, if these are a
dictionary. -/
inductive Rendu where
  | texte (s : String)
  | objet (content : String) (metadata : Option Meta)
  deriving DecidableEq

/-- One answer of `can_allocate`. -/
inductive Sonde where
  | accorde
  | refuse (raison : String)
  | leve (e : Erreur)
  deriving DecidableEq

/-- The answer of `reserve_resources`. -/
inductive Reservation where
  | accorde (allocationId : String)
  | refuse (raison : String)
  | leve (e : Erreur)
  deriving DecidableEq

structure Monde where
  taskId : String
  prompt : List String
  timeoutS : Rat
  agenticTimeoutS : Rat
  vramWaitS : Rat
  /-- A manager of resources and `vram_gb_for` are both wired. -/
  gestionnaire : Bool
  /-- `vram_gb_for` at the admission and at the reservation, nothing when it raises. -/
  besoinAdmission : String → Option Binaire
  besoinReservation : String → Option Binaire
  /-- The answers of `can_allocate` until the time is over. -/
  sonde : Sonde
  sondes : List Sonde
  reservation : Reservation
  chatLocal : Except Erreur Rendu
  chatCloud : Except Erreur Rendu
  chatRepli : Except Erreur Rendu

structure Rapport where
  model : String
  tokensUsed : Int
  success : Bool
  runtimeId : String
  cause : Option Cause
  deriving DecidableEq

inductive Evenement where
  | reserver (allocationId : String)
  | liberer (allocationId : String)
  | inference
  /-- `_record_failure`. -/
  | echec
  | rapport (r : Rapport)
  | compter (tokens : Int)
  | emettre (topic : String)
  deriving DecidableEq

def rapports (journal : List Evenement) : List Rapport :=
  journal.filterMap fun
    | .rapport r => some r
    | _ => none

structure Outcome where
  result : String
  runtimeId : String
  model : String
  promptChars : Nat
  completionChars : Nat
  promptTokens : Int
  completionTokens : Int
  fournisseur : String
  toolCallsMade : Int
  toolsInvoked : List String
  deriving DecidableEq

/-- `f"{x:.1f}"` of a number that is not negative. -/
def uneDecimale (x : Rat) : String :=
  toString (pair (10 * x) / 10) ++ "." ++ toString (pair (10 * x) % 10)

/-- The positive footprint that `vram_gb_for` answers, if any; no other has a number of bytes. -/
def empreinte : Option Binaire → Except Erreur (Option Rat)
  | none => .ok none
  | some (.fini q) => .ok (if 0 < q then some q else none)
  | some (.infini true) => .ok none
  | some (.infini false) =>
      .error ⟨.autre, "OverflowError", some "cannot convert float infinity to integer"⟩
  | some .nan => .error ⟨.autre, "ValueError", some "cannot convert float NaN to integer"⟩

def attendre (epuise : String → Erreur) : String → Sonde → List Sonde → Option Erreur
  | _, .accorde, _ => none
  | _, .leve e, _ => some e
  | raison, .refuse autre, [] => some (epuise (Texte.ou autre raison))
  | raison, .refuse autre, sonde :: sondes => attendre epuise (Texte.ou autre raison) sonde sondes

namespace Monde

variable (w : Monde)

def checkVramAdmission (model : String) : Option Erreur :=
  if !w.gestionnaire then none
  else
    match empreinte (w.besoinAdmission model) with
    | .error e => some e
    | .ok none => none
    | .ok (some vramGb) =>
        attendre (fun raison => indisponible ("no VRAM admission for '" ++ model ++ "' ("
          ++ uneDecimale vramGb ++ "GB requested) after " ++ sansDecimale w.vramWaitS ++ "s: "
          ++ raison)) "insufficient VRAM" w.sonde w.sondes

def admettreEtReserver (model : String) : List Evenement × Except Erreur (Option String) :=
  if !w.gestionnaire then ([], .ok none)
  else
    match w.checkVramAdmission model with
    | some e => ([], .error e)
    | none =>
        match empreinte (w.besoinReservation model) with
        | .error e => ([], .error e)
        | .ok none => ([], .ok none)
        | .ok (some vramGb) =>
            match w.reservation with
            | .leve e => ([], .error e)
            | .refuse raison =>
                ([], .error (indisponible ("réservation refusée pour '" ++ model ++ "' ("
                  ++ uneDecimale vramGb ++ " Gio) : " ++ Texte.ou raison "capacité insuffisante")))
            | .accorde allocationId => ([.reserver allocationId], .ok (some allocationId))

end Monde

def liberer : Option String → List Evenement
  | none => []
  | some allocationId => [.liberer allocationId]

section Execute

variable (u : Chiffres) (mot : Char → Bool)

def causeDe (e : Erreur) : Option Cause := e.texte.map fun texte => (classer mot texte {}).cause

def echouer (model runtimeId : String) (cause : Option Cause) : List Evenement :=
  [.echec, .rapport ⟨model, 0, false, runtimeId, cause⟩]

namespace Monde

variable (w : Monde)

def budgetDAppel (runtimeId : String) (boucleDOutils : Bool) : Rat :=
  if runtimeId = "hermes-agent" ∨ boucleDOutils then w.agenticTimeoutS else w.timeoutS

/-- The exception that a failure of the local chat ends in. -/
def traduire (runtimeId : String) (boucleDOutils : Bool) (e : Erreur) : Erreur :=
  match e.genre, e.texte with
  | .indisponible, _ => e
  | .delai, _ => indisponible ("runtime '" ++ runtimeId ++ "' timed out after "
      ++ sansDecimale (w.budgetDAppel runtimeId boucleDOutils) ++ "s")
  | .autre, some texte => indisponible ("runtime '" ++ runtimeId ++ "' could not execute task "
      ++ w.taskId ++ ": " ++ e.nom ++ ": " ++ texte)
  | .autre, none => sansTexte

end Monde

/-- The exception after the cloud and the local fallback have both failed. -/
def deuxEchecs (e e' : Erreur) : Erreur :=
  match e.texte, e'.texte with
  | some texte, some texte' => indisponible ("cloud runtime failed (" ++ e.nom ++ ": " ++ texte
      ++ ") and the local fallback also failed: " ++ e'.nom ++ ": " ++ texte')
  | _, _ => sansTexte

/-- A response, with the model and the runtime that served it. -/
structure Servi where
  rendu : Rendu
  model : String
  runtimeId : String

def boucleDOutils (x : RealTaskExecutor) (t : Task) (d : Decision) : Bool :=
  !(d.runtime = "hermes-agent" ∧ x.chat = false) && t.workspace.isSome

def tenterLocal (x : RealTaskExecutor) (t : Task) (a : Avis) (w : Monde) (d : Decision) :
    List Evenement × Except Erreur Servi :=
  let (reserve, admis) := w.admettreEtReserver (x.modeleAdmis a d)
  let finir (e : Erreur) := w.traduire d.runtime (boucleDOutils x t d) e
  match admis with
  | .error e => (reserve ++ echouer d.modele d.runtime (causeDe mot e), .error (finir e))
  | .ok allocation =>
      match w.chatLocal with
      | .ok rendu => (reserve ++ .inference :: liberer allocation, .ok ⟨rendu, d.modele, d.runtime⟩)
      | .error e =>
          (reserve ++ .inference :: echouer d.modele d.runtime (causeDe mot e) ++ liberer allocation,
            .error (finir e))

def tenterCloud (x : RealTaskExecutor) (a : Avis) (w : Monde) (d : Decision) :
    List Evenement × Except Erreur Servi :=
  match w.chatCloud with
  | .ok rendu => ([.inference], .ok ⟨rendu, d.modele, d.runtime⟩)
  | .error e =>
      let modele := x.modeleDeRepli a
      match w.checkVramAdmission modele with
      | some e' =>
          (.inference :: echouer modele "ollama" (causeDe mot e'), .error (deuxEchecs e e'))
      | none =>
          match w.chatRepli with
          | .ok rendu => ([.inference, .inference], .ok ⟨rendu, modele, "ollama"⟩)
          | .error e' =>
              (.inference :: .inference :: echouer modele "ollama" (causeDe mot e'),
                .error (deuxEchecs e e'))

def readResponse : Rendu → String × Meta
  | .texte s => (s, {})
  | .objet content metadata => (content, metadata.getD {})

def estimateTokens (texte : String) : Int := if texte = "" then 0 else max 1 (texte.length / 4 : Nat)

def Monde.outcome (w : Monde) (s : Servi) (content : String) (metadata : Meta) : Option Outcome := do
  let promptTokens ← metadata.promptTokens.compte u (estimateTokens (String.join w.prompt))
  let completionTokens ← metadata.completionTokens.compte u (estimateTokens content)
  let toolCallsMade ← metadata.toolCallsMade.compte u 0
  let toolsInvoked ← metadata.toolsInvoked.outils
  return { result := content
           runtimeId := Texte.ou (Texte.strip metadata.provider) s.runtimeId
           model := Texte.ou metadata.model s.model
           promptChars := (w.prompt.map String.length).sum
           completionChars := content.length
           promptTokens := promptTokens
           completionTokens := completionTokens
           fournisseur := Texte.strip metadata.fournisseur
           toolCallsMade := toolCallsMade
           toolsInvoked := toolsInvoked }

def conclure (w : Monde) (s : Servi) : List Evenement × Except Erreur Outcome :=
  let (content, metadata) := readResponse s.rendu
  if Texte.strip content = "" then
    (echouer s.model s.runtimeId (some .modele),
      .error (indisponible ("runtime '" ++ s.runtimeId ++ "' returned an empty completion")))
  else
    match w.outcome u s content metadata with
    | none => ([], .error sansTexte)
    | some outcome =>
        let tokens := outcome.promptTokens + outcome.completionTokens
        ([.rapport ⟨outcome.model, tokens, true, outcome.runtimeId, none⟩, .compter tokens,
          .emettre "execution.task_completed"], .ok outcome)

def poursuivre (w : Monde) : List Evenement × Except Erreur Servi →
    List Evenement × Except Erreur Outcome
  | (journal, .error e) => (journal, .error e)
  | (journal, .ok s) => (journal ++ (conclure u w s).1, (conclure u w s).2)

def execute (x : RealTaskExecutor) (t : Task) (a : Avis) (w : Monde) :
    List Evenement × Except Erreur Outcome :=
  let d := x.decider t a
  if d.impossible ≠ "" then ([], .error (indisponible d.impossible))
  else if d.runtime = MONTEE_AUTORISEE then poursuivre u w (tenterCloud mot x a w d)
  else poursuivre u w (tenterLocal mot x t a w d)

end Execute

def Liberees : List Evenement → Prop
  | [] => True
  | .reserver allocationId :: suite => .liberer allocationId ∈ suite ∧ Liberees suite
  | _ :: suite => Liberees suite

structure Tenue (execution : List Evenement × Except Erreur Outcome) : Prop where
  rendue : ∀ o, execution.2 = .ok o → Texte.strip o.result ≠ ""
  levee : ∀ e, execution.2 = .error e → e.genre = .indisponible
  liberees : Liberees execution.1
  /-- An inference that has been attempted is reported once, as a success if it is returned. -/
  rapportee : .inference ∈ execution.1 →
    ∃ r, rapports execution.1 = [r] ∧ (r.success = true ↔ ∃ o, execution.2 = .ok o)

variable (u : Chiffres) (mot : Char → Bool)

/-- The counts are absent or numbers that `int` takes, and the tools absent or a list. -/
structure Meta.Lisible (metadata : Meta) : Prop where
  promptTokens : metadata.promptTokens.vrai = true → (metadata.promptTokens.int u).isSome
  completionTokens : metadata.completionTokens.vrai = true →
    (metadata.completionTokens.int u).isSome
  toolCallsMade : metadata.toolCallsMade.vrai = true → (metadata.toolCallsMade.int u).isSome
  toolsInvoked : metadata.toolsInvoked.vrai = true → metadata.toolsInvoked.list.isSome

/-- A response is blank, or its metadata can be read. -/
def Rendu.Sain (r : Rendu) : Prop :=
  Texte.strip (readResponse r).1 ≠ "" → (readResponse r).2.Lisible u

/-- The text of an exception is needed, and can be had. -/
def Erreur.Dicible (e : Erreur) : Prop := e.genre = .autre → e.texte.isSome

/-- What the runtimes answer once the execution has been decided. -/
def Regulier (x : RealTaskExecutor) (t : Task) (a : Avis) (w : Monde) : Prop :=
  (x.decider t a).impossible = "" →
    if (x.decider t a).runtime = MONTEE_AUTORISEE then
      match w.chatCloud, w.checkVramAdmission (x.modeleDeRepli a), w.chatRepli with
      | .ok r, _, _ => r.Sain u
      | .error e, some e', _ => e.texte.isSome ∧ e'.texte.isSome
      | .error _, none, .ok r => r.Sain u
      | .error e, none, .error e' => e.texte.isSome ∧ e'.texte.isSome
    else
      match (w.admettreEtReserver (x.modeleAdmis a (x.decider t a))).2, w.chatLocal with
      | .error e, _ => e.Dicible
      | .ok _, .ok r => r.Sain u
      | .ok _, .error e => e.Dicible

section Parts

variable {u mot} {w : Monde} {journal journal' : List Evenement} {e : Erreur}

theorem liberees_append (h : Liberees journal) (h' : Liberees journal') :
    Liberees (journal ++ journal') := by
  induction journal with
  | nil => exact h'
  | cons ev journal ih =>
      cases ev with
      | reserver allocationId =>
          exact ⟨List.mem_append_left _ h.1, ih h.2⟩
      | liberer => exact ih h
      | inference => exact ih h
      | echec => exact ih h
      | rapport => exact ih h
      | compter => exact ih h
      | emettre => exact ih h

theorem rapports_append (journal journal' : List Evenement) :
    rapports (journal ++ journal') = rapports journal ++ rapports journal' :=
  List.filterMap_append

theorem tenue_error (hliberees : Liberees journal) {r : Rapport} (hrapports : rapports journal = [r])
    (hechec : r.success = false) :
    Tenue (journal, .error e) ↔ e.genre = .indisponible := by
  constructor
  · intro h
    exact h.levee e rfl
  · intro hgenre
    refine ⟨nofun, ?_, hliberees, fun _ => ⟨r, hrapports, ?_⟩⟩
    · intro e' he
      cases he
      exact hgenre
    · rw [hechec]
      exact ⟨nofun, nofun⟩

theorem Valeur.compte_isSome (v : Valeur) (defaut : Int) :
    (v.compte u defaut).isSome ↔ (v.vrai = true → (v.int u).isSome) := by
  unfold Valeur.compte
  split_ifs with hvrai
  · exact ⟨fun h _ => h, fun h => h hvrai⟩
  · exact ⟨fun _ h => absurd h hvrai, fun _ => rfl⟩

theorem Valeur.outils_isSome (v : Valeur) :
    v.outils.isSome ↔ (v.vrai = true → v.list.isSome) := by
  unfold Valeur.outils
  split_ifs with hvrai
  · exact ⟨fun h _ => h, fun h => h hvrai⟩
  · exact ⟨fun _ h => absurd h hvrai, fun _ => rfl⟩

theorem outcome_isSome (s : Servi) (content : String) (metadata : Meta) :
    (w.outcome u s content metadata).isSome ↔ metadata.Lisible u := by
  have hlisible : metadata.Lisible u ↔
      (metadata.promptTokens.compte u (estimateTokens (String.join w.prompt))).isSome ∧
        (metadata.completionTokens.compte u (estimateTokens content)).isSome ∧
          (metadata.toolCallsMade.compte u 0).isSome ∧ metadata.toolsInvoked.outils.isSome := by
    rw [Valeur.compte_isSome, Valeur.compte_isSome, Valeur.compte_isSome, Valeur.outils_isSome]
    exact ⟨fun h => ⟨h.1, h.2, h.3, h.4⟩, fun ⟨h₁, h₂, h₃, h₄⟩ => ⟨h₁, h₂, h₃, h₄⟩⟩
  rw [hlisible, Monde.outcome]
  simp only [Option.isSome_iff_exists, Option.bind_eq_bind, Option.bind_eq_some_iff]
  constructor
  · rintro ⟨o, p, hp, c, hc, n, hn, l, hl, -⟩
    exact ⟨⟨p, hp⟩, ⟨c, hc⟩, ⟨n, hn⟩, l, hl⟩
  · rintro ⟨⟨p, hp⟩, ⟨c, hc⟩, ⟨n, hn⟩, l, hl⟩
    exact ⟨_, p, hp, c, hc, n, hn, l, hl, rfl⟩

theorem result_of_outcome {s : Servi} {content : String} {metadata : Meta} {o : Outcome}
    (h : w.outcome u s content metadata = some o) : o.result = content := by
  rw [Monde.outcome] at h
  simp only [Option.bind_eq_bind, Option.bind_eq_some_iff] at h
  obtain ⟨p, _, c, _, n, _, l, _, h⟩ := h
  cases h
  rfl

theorem tenue_conclure (hliberees : Liberees journal) (hrapports : rapports journal = [])
    (s : Servi) : Tenue (poursuivre u w (journal, .ok s)) ↔ s.rendu.Sain u := by
  unfold poursuivre conclure Rendu.Sain
  dsimp only
  split_ifs with hvide
  · have hechec : Liberees (journal ++ echouer s.model s.runtimeId (some .modele)) :=
      liberees_append hliberees trivial
    rw [tenue_error hechec (by rw [rapports_append, hrapports]; rfl) rfl]
    exact ⟨fun _ h => absurd hvide h, fun _ => rfl⟩
  · rw [← outcome_isSome (w := w) s (readResponse s.rendu).1]
    cases houtcome : w.outcome u s (readResponse s.rendu).1 (readResponse s.rendu).2 with
    | none =>
        constructor
        · intro h
          have hgenre : Genre.autre = .indisponible := h.levee sansTexte rfl
          cases hgenre
        · intro h
          exact absurd (h hvide) nofun
    | some o =>
        refine ⟨fun _ _ => rfl, fun _ => ⟨?_, nofun, liberees_append hliberees trivial, ?_⟩⟩
        · intro o' ho'
          cases ho'
          rw [result_of_outcome houtcome]
          exact hvide
        · intro _
          refine ⟨_, by rw [rapports_append, hrapports]; rfl, ?_⟩
          exact ⟨fun _ => ⟨o, rfl⟩, fun _ => rfl⟩

theorem traduire_indisponible (runtimeId : String) (outils : Bool) (e : Erreur) :
    (w.traduire runtimeId outils e).genre = .indisponible ↔ e.Dicible := by
  obtain ⟨genre, nom, texte⟩ := e
  cases genre with
  | indisponible => exact ⟨nofun, fun _ => rfl⟩
  | delai => exact ⟨nofun, fun _ => rfl⟩
  | autre =>
      cases texte with
      | none => exact ⟨nofun, fun h => absurd (h rfl) nofun⟩
      | some texte => exact ⟨fun _ _ => rfl, fun _ => rfl⟩

theorem deuxEchecs_indisponible (e e' : Erreur) :
    (deuxEchecs e e').genre = .indisponible ↔ e.texte.isSome ∧ e'.texte.isSome := by
  obtain ⟨genre, nom, texte⟩ := e
  obtain ⟨genre', nom', texte'⟩ := e'
  cases texte with
  | none => exact ⟨nofun, fun h => absurd h.1 nofun⟩
  | some texte =>
      cases texte' with
      | none => exact ⟨nofun, fun h => absurd h.2 nofun⟩
      | some texte' => exact ⟨fun _ => ⟨rfl, rfl⟩, fun _ => rfl⟩

theorem admettre_cas (model : String) :
    (∃ e, w.admettreEtReserver model = ([], .error e)) ∨
      w.admettreEtReserver model = ([], .ok none) ∨
        ∃ allocationId, w.admettreEtReserver model =
          ([.reserver allocationId], .ok (some allocationId)) := by
  unfold Monde.admettreEtReserver
  split_ifs
  · exact .inr (.inl rfl)
  · split
    · exact .inl ⟨_, rfl⟩
    · split
      · exact .inl ⟨_, rfl⟩
      · exact .inr (.inl rfl)
      · split
        · exact .inl ⟨_, rfl⟩
        · exact .inl ⟨_, rfl⟩
        · exact .inr (.inr ⟨_, rfl⟩)

theorem tenue_admis (x : RealTaskExecutor) (t : Task) (a : Avis) (d : Decision)
    {reserve : List Evenement} {allocation : Option String}
    (hadmis : w.admettreEtReserver (x.modeleAdmis a d) = (reserve, .ok allocation))
    (hliberees : ∀ suite, Liberees suite → Liberees (reserve ++ suite ++ liberer allocation))
    (hrapports : rapports reserve = []) :
    Tenue (poursuivre u w (tenterLocal mot x t a w d)) ↔
      match w.chatLocal with
      | .ok r => r.Sain u
      | .error e => e.Dicible := by
  have hliberer : rapports (liberer allocation) = [] := by
    cases allocation <;> rfl
  unfold tenterLocal
  rw [hadmis]
  dsimp only
  cases w.chatLocal with
  | ok rendu =>
      apply tenue_conclure
      · have h := hliberees [.inference] trivial
        rwa [List.append_assoc] at h
      · rw [rapports_append, hrapports]
        exact hliberer
  | error e =>
      dsimp only
      rw [← traduire_indisponible (w := w) d.runtime (boucleDOutils x t d)]
      let r : Rapport := ⟨d.modele, 0, false, d.runtime, causeDe mot e⟩
      have hr : rapports (reserve ++ .inference :: echouer d.modele d.runtime (causeDe mot e)
          ++ liberer allocation) = [r] := by
        rw [rapports_append, rapports_append, hrapports, hliberer]
        rfl
      exact tenue_error (hliberees _ trivial) hr rfl

theorem tenue_local (x : RealTaskExecutor) (t : Task) (a : Avis) (d : Decision) :
    Tenue (poursuivre u w (tenterLocal mot x t a w d)) ↔
      match (w.admettreEtReserver (x.modeleAdmis a d)).2, w.chatLocal with
      | .error e, _ => e.Dicible
      | .ok _, .ok r => r.Sain u
      | .ok _, .error e => e.Dicible := by
  rcases admettre_cas (w := w) (x.modeleAdmis a d) with ⟨e, hadmis⟩ | hadmis | ⟨id, hadmis⟩
  · unfold tenterLocal
    rw [hadmis]
    dsimp only
    rw [← traduire_indisponible (w := w) d.runtime (boucleDOutils x t d)]
    exact tenue_error (by trivial) rfl rfl
  · rw [tenue_admis x t a d hadmis (fun suite h => by simpa [liberer] using h) rfl, hadmis]
    cases w.chatLocal <;> rfl
  · rw [tenue_admis x t a d hadmis ?_ rfl, hadmis]
    · cases w.chatLocal <;> rfl
    · intro suite h
      exact ⟨List.mem_append_right _ List.mem_cons_self, liberees_append h trivial⟩

theorem tenue_cloud (x : RealTaskExecutor) (a : Avis) (d : Decision) :
    Tenue (poursuivre u w (tenterCloud mot x a w d)) ↔
      match w.chatCloud, w.checkVramAdmission (x.modeleDeRepli a), w.chatRepli with
      | .ok r, _, _ => r.Sain u
      | .error e, some e', _ => e.texte.isSome ∧ e'.texte.isSome
      | .error _, none, .ok r => r.Sain u
      | .error e, none, .error e' => e.texte.isSome ∧ e'.texte.isSome := by
  unfold tenterCloud
  cases w.chatCloud with
  | ok rendu => exact tenue_conclure (by trivial) rfl _
  | error e =>
      dsimp only
      cases w.checkVramAdmission (x.modeleDeRepli a) with
      | some e' =>
          dsimp only
          rw [← deuxEchecs_indisponible]
          exact tenue_error (by trivial) rfl rfl
      | none =>
          dsimp only
          cases w.chatRepli with
          | ok rendu => exact tenue_conclure (by trivial) rfl _
          | error e' =>
              dsimp only
              rw [← deuxEchecs_indisponible]
              exact tenue_error (by trivial) rfl rfl

end Parts

/-- An execution owes nothing more exactly when the texts and the counts that it reads can be
had. -/
theorem tenue_iff (x : RealTaskExecutor) (t : Task) (a : Avis) (w : Monde) :
    Tenue (execute u mot x t a w) ↔ Regulier u x t a w := by
  unfold execute Regulier
  dsimp only
  by_cases himpossible : (x.decider t a).impossible = ""
  · rw [if_neg (not_not.mpr himpossible)]
    split_ifs with hcloud
    · exact (tenue_cloud x a (x.decider t a)).trans ⟨fun h _ => h, fun h => h himpossible⟩
    · exact (tenue_local x t a (x.decider t a)).trans ⟨fun h _ => h, fun h => h himpossible⟩
  · rw [if_pos himpossible]
    refine ⟨fun _ h => absurd h himpossible, fun _ => ⟨nofun, ?_, trivial, nofun⟩⟩
    intro e he
    cases he
    rfl

/-- An injected chat answers a text, with a number of calls of tools that is not one: what `int`
raises goes through, and nothing is reported. -/
theorem tenue_outils_illisibles :
    ¬Tenue (execute .usuels Char.isAlphanum
      { chat := true
        cloudChat := false
        defaultModel := "qwen3.5:4b"
        fallbackModel := "lfm2.5-2.6b-125k"
        harnaisActif := false
        missionMaxToolRounds := 12
        vramGbFor := fun _ => none }
      { missionId := "m1", retries := 0, workspace := none }
      { runtimeBrut := "ollama"
        runtimeFor := none
        reprise := none
        modelFor := none
        repliLocal := none
        impose := ""
        secours := ""
        capableAdmission := fun _ => none
        capableChat := fun _ => none }
      { taskId := "t1"
        prompt := ["Task: un titre"]
        timeoutS := 180
        agenticTimeoutS := 900
        vramWaitS := 20
        gestionnaire := false
        besoinAdmission := fun _ => none
        besoinReservation := fun _ => none
        sonde := .accorde
        sondes := []
        reservation := .accorde "a1"
        chatLocal := .ok (.objet "fait" (some { toolCallsMade := .texte "deux" }))
        chatCloud := .ok (.texte "")
        chatRepli := .ok (.texte "") }) := by
  intro h
  obtain ⟨r, hr, -⟩ := h.rapportee (by decide +kernel)
  have hlong : _ = 1 := congrArg List.length hr
  exact absurd hlong (by decide +kernel)

end Hermes.TaskExecutor.Sorties
