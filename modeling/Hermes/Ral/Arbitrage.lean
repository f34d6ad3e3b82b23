import Hermes.Lib.Texte

/-! # Who decides between several proposals

The proposals come in their order of precedence, and the first one that proposes something wins.
-/

namespace Hermes.Arbitrage

open Lib

def NON_CHOISI : List String := ["", "default", "auto", "any", "none", "null"]

def MONTEE_AUTORISEE : String := "openrouter"

/-- A choice, or the empty text. The words of `NON_CHOISI` are ASCII texts. -/
def propre (valeur : Option String) : String :=
  let texte := Texte.strip (valeur.getD "")
  if texte.toLower ∈ NON_CHOISI then "" else texte

structure Proposition where
  source : String
  runtime : Option String := none
  modele : Option String := none
  peutMonter : Bool := false
  deriving DecidableEq

def Proposition.proposeUnRuntime (p : Proposition) : Bool := propre p.runtime ≠ ""

def Proposition.proposeUnModele (p : Proposition) : Bool := propre p.modele ≠ ""

structure Decision where
  runtime : String
  modele : String
  sourceRuntime : String
  sourceModele : String
  repli : String := ""
  impossible : String := ""
  propositions : List Proposition := []
  deriving DecidableEq

/-- The first proposal that proposes a runtime, or the default. -/
def runtimePropose (propositions : List Proposition) (defautRuntime : String) : String × String :=
  match propositions.find? Proposition.proposeUnRuntime with
  | some p => (propre p.runtime, p.source)
  | none => (defautRuntime, "défaut de l'exécuteur")

def modelePropose (propositions : List Proposition) (defautModele : String) : String × String :=
  match propositions.find? Proposition.proposeUnModele with
  | some p => (propre p.modele, p.source)
  | none => (defautModele, "défaut de l'exécuteur")

/-- The runtime, its source and the fallback, once a raise to the cloud has been looked for. -/
def monter (propositions : List Proposition) (choisi : String × String) (cloudJoignable : Bool) :
    (String × String) × String :=
  match propositions.find? fun p => p.peutMonter && propre p.runtime = MONTEE_AUTORISEE with
  | none => (choisi, "")
  | some monte =>
      if choisi.1 = MONTEE_AUTORISEE then (choisi, "")
      else if cloudJoignable then ((MONTEE_AUTORISEE, monte.source), "")
      else
        (choisi, MONTEE_AUTORISEE ++ " demandé par " ++ monte.source
          ++ " mais injoignable — exécuté sur " ++ choisi.1)

def arbitrer (propositions : List Proposition) (defautRuntime defautModele : String)
    (cloudJoignable : Bool) : Decision :=
  let ((runtime, sourceRuntime), repli) :=
    monter propositions (runtimePropose propositions defautRuntime) cloudJoignable
  let (modele, sourceModele) := modelePropose propositions defautModele
  { runtime := runtime
    modele := modele
    sourceRuntime := sourceRuntime
    sourceModele := sourceModele
    repli := repli
    impossible :=
      if runtime = MONTEE_AUTORISEE && !cloudJoignable then
        "runtime '" ++ runtime ++ "' was explicitly assigned by " ++ sourceRuntime
          ++ " but is unavailable: no cloud provider is configured"
      else ""
    propositions := propositions }

end Hermes.Arbitrage
