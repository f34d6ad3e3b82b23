import Hermes.Lib.Motif
import Hermes.Lib.Texte
import Hermes.Runs.Registre

/-! # Why a run failed, and what that changes

A failure is classified on clues that can be named: the reason the runtime gave for stopping, an
HTTP code, then the patterns of the message in their order.
-/

namespace Hermes.Taxonomie

open Lib Registre

structure Classement where
  cause : Cause
  indice : String := ""
  deriving DecidableEq

structure Remede where
  reessayer : Bool
  changerDeModele : Bool := false
  reduireLeModele : Bool := false
  elargirLeContexte : Bool := false
  changerDeFournisseur : Bool := false
  attendreS : Nat := 0
  deriving DecidableEq

/-- The patterns in the order they are tried, the cause each one shows and its name. -/
def MOTIFS : List (Motif × Cause × String) :=
  [(⟨false, ["budget de mission atteint"]⟩, .budget, "budget de mission atteint"),
    (⟨false, ["no vram admission"]⟩, .ressource, "message d'admission VRAM"),
    (⟨true, ["out of memory", "oom", "cuda out of memory", "insufficient memory"]⟩, .ressource,
      "message de mémoire"),
    (⟨true, ["rate limit", "too many requests", "quota exceeded", "insufficient_quota",
        "insufficient quota", "credit"]⟩, .quota, "message de quota"),
    (⟨true, ["context length", "maximum context", "context window", "token limit",
        "prompt is too long", "reduce the length"]⟩, .contexte, "message de fenêtre de contexte"),
    (⟨true, ["outside allowed_paths", "permission denied", "not authorised", "not authorized",
        "refusé", "refuse", "requires human validation", "protected branch"]⟩, .politique,
      "message de refus de politique"),
    (⟨true, ["canary", "secret leak", "fuite de secret", "derive de workspace",
        "dérive de workspace"]⟩, .securite, "message de sécurité"),
    (⟨false, ["the local fallback also failed"]⟩, .fournisseur,
      "cloud et repli local tous deux en échec"),
    (⟨true, ["connection refused", "connection error", "connection reset", "unavailable",
        "unreachable", "service unavailable", "bad gateway", "name or service not known"]⟩,
      .fournisseur, "message d'indisponibilité du fournisseur"),
    (⟨true, ["timed out", "timedout", "time out", "timeout"]⟩, .fournisseur,
      "délai de runtime dépassé"),
    (⟨true, ["returned an empty completion", "empty response"]⟩, .modele, "réponse vide"),
    (⟨true, ["no such tool", "unknown tool", "tool call failed",
        "could not start the executor event loop"]⟩, .outil, "message d'outil")]

def CODES : List (Int × Cause × String) :=
  [(400, .outil, "HTTP 400 — la requête est malformée, pas le modèle"),
    (401, .politique, "HTTP 401"),
    (403, .politique, "HTTP 403"),
    (404, .outil, "HTTP 404"),
    (408, .fournisseur, "HTTP 408"),
    (413, .contexte, "HTTP 413 — charge trop grosse"),
    (429, .quota, "HTTP 429"),
    (500, .fournisseur, "HTTP 500"),
    (502, .fournisseur, "HTTP 502"),
    (503, .fournisseur, "HTTP 503"),
    (504, .fournisseur, "HTTP 504")]

structure Indices where
  statutHttp : Option Int := none
  doneReason : Option String := none
  exception : Option String := none
  deriving DecidableEq

def fenetreFermee (doneReason : Option String) : Bool :=
  match doneReason with
  | none => false
  | some raison => (Texte.strip raison).toList.map Motif.minuscule = "length".toList

/-- `mot` tells the characters of words. -/
def classer (mot : Char → Bool) (message : String) (indices : Indices) : Classement :=
  if fenetreFermee indices.doneReason then
    { cause := .contexte, indice := "done_reason=length — la fenêtre s'est fermée" }
  else
    match indices.statutHttp.bind fun code => CODES.lookup code with
    | some (cause, indice) => { cause := cause, indice := indice }
    | none =>
        let texte := " ".intercalate
          ([message, indices.exception.getD ""].filter fun t => t ≠ "")
        if Texte.strip texte = "" then { cause := .inconnue }
        else
          let trouve := MOTIFS.findSome? fun (motif, cause, indice) =>
            (motif.chercher mot texte).map fun extrait =>
              ({ cause := cause, indice := indice ++ " : « " ++ extrait ++ " »" } : Classement)
          trouve.getD { cause := .inconnue }

def remede : Cause → Remede
  | .ressource => { reessayer := true, reduireLeModele := true, attendreS := 15 }
  | .contexte => { reessayer := true, elargirLeContexte := true }
  | .quota => { reessayer := true, changerDeFournisseur := true, attendreS := 60 }
  | .fournisseur => { reessayer := true, changerDeFournisseur := true, attendreS := 10 }
  | .modele => { reessayer := true, changerDeModele := true }
  | .outil | .semantique | .verification => { reessayer := true }
  | .politique | .securite | .budget => { reessayer := false }
  | .inconnue | .processus => { reessayer := true }

def explication : Cause → String
  | .ressource => "la VRAM manque : un autre modèle de même taille échouera pareil, il en faut "
      ++ "un plus petit — ou laisser un modèle résident se libérer"
  | .contexte => "la fenêtre s'est fermée sur le modèle : changer de modèle ne répare rien, il "
      ++ "faut plus de contexte servi ou moins de prompt"
  | .quota => "le quota est dépassé : réessayer tout de suite chez le même fournisseur échoue "
      ++ "par construction"
  | .fournisseur => "le service n'a pas répondu ; le modèle n'est pas en cause"
  | .modele => "le modèle a produit une sortie inutilisable — le seul cas où changer de modèle "
      ++ "est le bon remède"
  | .outil => "un outil ou une requête est malformé : c'est un défaut d'ici, pas du modèle, et "
      ++ "il ne se répare pas en réessayant plus fort"
  | .semantique => "le travail est faux : la reprise doit porter les preuves, pas relancer le "
      ++ "même prompt"
  | .verification => "la vérification a démenti le résultat annoncé"
  | .politique => "l'action a été refusée ou attend un accord humain : la reprise viendra de cet "
      ++ "accord, pas de la boucle — qui ne ferait qu'inonder la file"
  | .securite => "un contrôle de sécurité s'est déclenché : réessayer reviendrait à contourner ce "
      ++ "qui vient de protéger"
  | .budget => "le budget de temps de la mission est atteint : reprendre le consommerait "
      ++ "immédiatement une seconde fois. La suite vient d'un budget révisé par l'opérateur, pas "
      ++ "de la boucle"
  | .inconnue | .processus => "aucun indice ne dit pourquoi : on reprend une fois, sans rien "
      ++ "changer qu'on ne saurait justifier"

/-- What the message of a refused task is classified as. -/
example : (classer Char.isAlphanum "permission denied" {}).cause = .politique := by decide

end Hermes.Taxonomie
