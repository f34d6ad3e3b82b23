import Hermes.Lib.Texte

/-! # Where a memory comes from, and how far it is believed

A memory is judged by its origin and not by its text: what is not written by a human or observed
by the system arrives in quarantine, and leaves it by a promotion that names its actor.
-/

namespace Hermes.Memory

open Lib

inductive Origine where
  | humain
  | systeme
  | agent
  | web
  | depot
  | outil
  | document
  | inconnue
  deriving DecidableEq

def Origine.value : Origine → String
  | .humain => "humain"
  | .systeme => "systeme"
  | .agent => "agent"
  | .web => "web"
  | .depot => "depot"
  | .outil => "outil"
  | .document => "document"
  | .inconnue => "inconnue"

def ORIGINES : List Origine :=
  [.humain, .systeme, .agent, .web, .depot, .outil, .document, .inconnue]

/-- `Origine(texte)`, which raises for any other text. -/
def Origine.lire (texte : String) : Option Origine := ORIGINES.find? fun o => o.value = texte

inductive Confiance where
  | quarantaine
  | fiable
  deriving DecidableEq

def ORIGINES_DE_CONFIANCE : List Origine := [.humain, .systeme]

structure Provenance where
  origine : Origine := .inconnue
  confiance : Confiance := .quarantaine
  source : String := ""
  promuPar : Option String := none
  verifieLe : Option Int := none
  deriving DecidableEq

namespace Provenance

def depuis (maintenant : Int) (o : Origine) (source : String) : Provenance :=
  let fiable := o ∈ ORIGINES_DE_CONFIANCE
  { origine := o
    confiance := if fiable then .fiable else .quarantaine
    source := source
    promuPar := if fiable then some o.value else none
    verifieLe := if fiable then some maintenant else none }

def enQuarantaine (p : Provenance) : Bool := p.confiance = .quarantaine

def sansActeur (par : String) : Bool := Texte.strip par = ""

/-- `none` where `PromotionRefusee` is raised. -/
def promouvoir (maintenant : Int) (p : Provenance) (par : String) : Option Provenance :=
  if sansActeur par then none
  else
    some
      { origine := p.origine
        confiance := .fiable
        source := p.source
        promuPar := some (Texte.strip par)
        verifieLe := some maintenant }

theorem depuis_enQuarantaine (maintenant : Int) (o : Origine) (source : String) :
    (depuis maintenant o source).enQuarantaine = decide (o ∉ ORIGINES_DE_CONFIANCE) := by
  cases o <;> rfl

theorem promouvoir_origine {maintenant : Int} {p p' : Provenance} {par : String}
    (h : p.promouvoir maintenant par = some p') :
    p'.origine = p.origine ∧ p'.enQuarantaine = false ∧ Texte.strip par ≠ "" := by
  unfold promouvoir at h
  split at h
  · cases h
  · next hpar =>
      cases h
      exact ⟨rfl, rfl, by simpa [sansActeur] using hpar⟩

end Provenance

section Filtre

variable {β : Type*}

/-- `filtrer`, by what `provenance_de` answers of each result. -/
def filtrerQuarantaine (provenanceDe : β → Provenance) (inclureQuarantaine : Bool)
    (resultats : List β) : List β :=
  if inclureQuarantaine then resultats
  else resultats.filter fun r => !(provenanceDe r).enQuarantaine

theorem mem_filtrerQuarantaine {provenanceDe : β → Provenance} {resultats : List β} {r : β} :
    r ∈ filtrerQuarantaine provenanceDe false resultats ↔
      r ∈ resultats ∧ (provenanceDe r).enQuarantaine = false := by
  simp [filtrerQuarantaine]

end Filtre

end Hermes.Memory
