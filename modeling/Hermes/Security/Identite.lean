import Hermes.Lib.Champs
import Hermes.Lib.JsonTrie
import Hermes.Security.Empreinte

/-! # When two actions have one identity

What is hashed is three texts around two separators.
-/

namespace Hermes.Empreinte

open Lib

/-- What distinguishes an action otherwise: JSON values under distinct keys. -/
structure Distinctions where
  items : Discriminants
  valide : (Json.objet items).Valide

/-- What `empreinte` is called with. -/
structure Acte where
  actionType : String
  targetPath : Option String := none
  discriminants : Option Distinctions := none

namespace Acte

variable (p : Plateforme) (a : Acte)

def typeCanonique : String := p.minuscules (Texte.strip a.actionType)

def cheminCanonique : String := canoniserChemin p a.targetPath

def discriminantsCanoniques : String :=
  canoniserDiscriminants (a.discriminants.map Distinctions.items)

def hache : String := identite p a.actionType a.targetPath (a.discriminants.map Distinctions.items)

end Acte

/-- `SEPARATEUR` as a character. -/
def separateur : Char := Char.ofNat 31

section Identite

variable {p q : Plateforme} {a b : Acte}

theorem toList_hache (p : Plateforme) (a : Acte) :
    (a.hache p).toList = ((a.typeCanonique p).toList ++ separateur :: (a.cheminCanonique p).toList) ++
      separateur :: a.discriminantsCanoniques.toList := by
  rw [Acte.hache, identite, String.toList_intercalate]
  simp [SEPARATEUR, separateur, Acte.typeCanonique, Acte.cheminCanonique,
    Acte.discriminantsCanoniques]

theorem separateur_notMem_discriminants (a : Acte) :
    separateur ∉ a.discriminantsCanoniques.toList := by
  intro hmem
  have hsans : Json.SansControle a.discriminantsCanoniques.toList := by
    unfold Acte.discriminantsCanoniques canoniserDiscriminants
    cases hd : a.discriminants with
    | none => nofun
    | some d =>
        have hvalide := d.valide
        cases hitems : d.items with
        | nil => simp [hitems, Json.SansControle]
        | cons item items =>
            rw [hitems] at hvalide
            simp only [Option.map_some, Option.getD_some, hitems]
            exact Json.sansControle_dumps (by decide) (by decide) _ hvalide
  exact absurd (hsans separateur hmem) (by decide)

/-- The type of the second action continues the one of the first through a separator, and the path
of the first ends with the path of the second after one: `x` is read on either side of the
separator between them. -/
def Chevauche (p q : Plateforme) (a b : Acte) : Prop :=
  ∃ x, (b.typeCanonique q).toList = (a.typeCanonique p).toList ++ separateur :: x ∧
    (a.cheminCanonique p).toList = x ++ separateur :: (b.cheminCanonique q).toList

/-- What is hashed tells the two actions apart exactly when one of the three parts does. -/
def Distinguees (p q : Plateforme) (a b : Acte) : Prop :=
  a.hache p = b.hache q ↔
    a.typeCanonique p = b.typeCanonique q ∧ a.cheminCanonique p = b.cheminCanonique q ∧
      a.discriminantsCanoniques = b.discriminantsCanoniques

theorem hache_eq_iff :
    a.hache p = b.hache q ↔
      a.discriminantsCanoniques = b.discriminantsCanoniques ∧
        ((a.typeCanonique p = b.typeCanonique q ∧ a.cheminCanonique p = b.cheminCanonique q) ∨
          Chevauche p q a b ∨ Chevauche q p b a) := by
  rw [← String.toList_inj, toList_hache, toList_hache,
    Champs.dernier_eq_iff (separateur_notMem_discriminants a) (separateur_notMem_discriminants b),
    Champs.champs_eq_iff, String.toList_inj, String.toList_inj, String.toList_inj, and_comm]
  rfl

/-- Exactly when the identity does what it is for; and the order in which the keys of the
discriminants were inserted plays no part in it. -/
theorem distinguees_iff (p q : Plateforme) (a b : Acte) :
    (Distinguees p q a b ↔
      ¬ (a.discriminantsCanoniques = b.discriminantsCanoniques ∧
        (Chevauche p q a b ∨ Chevauche q p b a))) ∧
      ∀ d d' : Distinctions, d.items.Perm d'.items →
        canoniserDiscriminants (some d.items) = canoniserDiscriminants (some d'.items) := by
  constructor
  · rw [Distinguees, hache_eq_iff]
    have hne : Chevauche p q a b ∨ Chevauche q p b a → a.typeCanonique p ≠ b.typeCanonique q := by
      rintro (h | h) heq
      · exact Champs.Deborde.ne h (congrArg String.toList heq)
      · exact Champs.Deborde.ne h (congrArg String.toList heq.symm)
    constructor
    · rintro hiff ⟨hd, hchevauche⟩
      exact hne hchevauche (hiff.mp ⟨hd, .inr hchevauche⟩).1
    · intro hnon
      constructor
      · rintro ⟨hd, ⟨ht, hc⟩ | hchevauche⟩
        · exact ⟨ht, hc, hd⟩
        · exact absurd ⟨hd, hchevauche⟩ hnon
      · rintro ⟨ht, hc, hd⟩
        exact ⟨hd, .inl ⟨ht, hc⟩⟩
  · intro d d' hperm
    have hnodup : (d.items.map Prod.fst).Nodup := by
      have hvalide := d.valide
      rw [Json.Valide] at hvalide
      exact hvalide.1
    have hdumps : (Json.objet d.items).dumpsCompact = (Json.objet d'.items).dumpsCompact :=
      Json.dumps_perm hperm hnodup
    unfold canoniserDiscriminants
    cases hitems : d.items with
    | nil =>
        rw [hitems] at hperm
        rw [List.nil_perm.mp hperm]
    | cons item items =>
        cases hitems' : d'.items with
        | nil =>
            rw [hitems, hitems'] at hperm
            cases List.perm_nil.mp hperm
        | cons item' items' =>
            rw [hitems, hitems'] at hdumps
            exact hdumps

end Identite

/-- A type that holds a separator, as the body of a request may. -/
def typeSepare : Acte :=
  { actionType := "file_write\x1f/p/a", targetPath := some "/q" }

def cheminSepare : Acte :=
  { actionType := "file_write", targetPath := some "/p/a\x1f/q" }

/-- Two actions, one text to hash. -/
theorem typeSepare_confondu : ¬ Distinguees .posix .posix typeSepare cheminSepare := by
  intro h
  have htype := (h.mp (by decide +kernel)).1
  exact absurd htype (by decide +kernel)

end Hermes.Empreinte
