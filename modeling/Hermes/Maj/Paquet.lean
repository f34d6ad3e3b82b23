import Hermes.Lib.Arborescence
import Hermes.Lib.Chemin
import Hermes.Lib.Json
import Hermes.Maj.Version

/-! # Packages

A package is a directory with a manifest that names its version and the roots it replaces. A root
is checked once resolved, and kept as it is spelled.
-/

namespace Hermes.Maj

open Lib Lib.Arborescence

/-- The host: the interpreter, `json.loads` on the bytes of a file, and the text of an array or of
an object. -/
structure Hote (ω : Type*) extends Interprete where
  loads : ω → Option Json
  repr : Json → String

variable {ω : Type*}

def str (h : Hote ω) : Json → String
  | .null => "None"
  | .bool b => if b then "True" else "False"
  | .entier n => toString n
  | .flottant chiffres => chiffres
  | .texte s => s
  | valeur => h.repr valeur

/-- `bool(valeur)`. -/
def vrai : Json → Bool
  | .null => false
  | .bool b => b
  | .entier n => n ≠ 0
  | .flottant chiffres => chiffres ≠ "0.0" ∧ chiffres ≠ "-0.0"
  | .texte s => s ≠ ""
  | .tableau valeurs => !valeurs.isEmpty
  | .objet items => !items.isEmpty

/-- `str(donnees.get(cle) or "")`. -/
def texteDe (h : Hote ω) (donnees : List (String × Json)) (cle : String) : String :=
  match Dict.get? donnees cle with
  | none => ""
  | some valeur => if vrai valeur then str h valeur else ""

def nomManifeste : String := "hermes.json"

def racinesParDefaut : List String := ["backend", "frontend", "config", "data", "scripts"]

structure Paquet where
  chemin : Lieu
  version : String
  racines : List String
  depuisAuMoins : String := ""
  notes : String := ""
  deriving DecidableEq

inductive PaquetInvalide where
  | pasUnRepertoire
  | pasDeManifeste
  | illisible
  | pasUnObjet
  | sansVersion
  | versionIllisible (version : String)
  | racinesInvalides
  | racineInvalide (nom : String)
  | sortDuPaquet (nom : String)
  | nePasContenir (nom : String)
  | valueError
  deriving DecidableEq

/-- `racine / nom`. -/
def sousRacine (racine : Lieu) (nom : String) : Brut :=
  let c := Chemin.lire nom
  if c.racine = "" then ⟨racine, c.parts⟩ else ⟨[], c.parts⟩

def sous (racine : Lieu) (nom : String) : Except PaquetInvalide Lieu :=
  if nom = "" ∨ Texte.strip nom ∈ [".", "..", "/", "\\"] then .error (.racineInvalide nom)
  else if nom.toList.contains (Char.ofNat 0) then .error .valueError
  else
    let cible := (sousRacine racine nom).lieu
    if racine <+: cible then .ok cible else .error (.sortDuPaquet nom)

/-- Each announced root is in the package, and contained in it. -/
def verifierLesRacines (t : Noeud ω) (racine : Lieu) :
    List String → Except PaquetInvalide (List String)
  | [] => .ok []
  | nom :: noms =>
      match sous racine nom with
      | .error e => .error e
      | .ok cible =>
          if (voir t cible).isSome then
            match verifierLesRacines t racine noms with
            | .error e => .error e
            | .ok racines => .ok (nom :: racines)
          else .error (.nePasContenir nom)

/-- The roots that the manifest announces, as texts. -/
def brutes (h : Hote ω) (donnees : List (String × Json)) : Except PaquetInvalide (List String) :=
  match Dict.get? donnees "racines" with
  | none => .ok racinesParDefaut
  | some valeur =>
      if vrai valeur then
        match valeur with
        | .tableau valeurs => .ok (valeurs.map (str h))
        | _ => .error .racinesInvalides
      else .ok racinesParDefaut

def lire (h : Hote ω) (t : Noeud ω) (racine : Lieu) : Except PaquetInvalide Paquet :=
  match voir t racine, voir t (racine ++ [nomManifeste]) with
  | some .dossier, some (.fichier octets) =>
      match h.loads octets with
      | none => .error .illisible
      | some (.objet donnees) =>
          let version := Texte.strip (texteDe h donnees "version")
          if version = "" then .error .sansVersion
          else if rang h.toInterprete version = (0, 0, 0) then .error (.versionIllisible version)
          else
            match brutes h donnees with
            | .error e => .error e
            | .ok noms =>
                match verifierLesRacines t racine noms with
                | .error e => .error e
                | .ok racines =>
                    .ok { chemin := racine, version, racines,
                          depuisAuMoins := texteDe h donnees "depuis_au_moins",
                          notes := texteDe h donnees "notes" }
      | some _ => .error .pasUnObjet
  | some .dossier, _ => .error .pasDeManifeste
  | _, _ => .error .pasUnRepertoire

end Hermes.Maj
