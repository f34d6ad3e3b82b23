import Hermes.Lib.Expression
import Hermes.Lib.Nombre
import Hermes.Mission.Derouler

/-! # The sections of a specification, and the plan that is corrected by hand

A specification is cut at its numbered titles.
-/

namespace Hermes.Programme

open Lib Lib.Expression Lib.Texte Lib.Nombre

/-- The characters that the patterns name by class. -/
structure Alphabet where
  chiffres : Chiffres
  mot : Char → Bool
  mot_chiffre : ∀ c, (chiffres.valeur c).isSome = true → mot c = true
  mot_blanc : ∀ c, estBlanc c = true → mot c = false
  ascii_chiffre : ∀ c, c.toNat < 128 → (chiffres.valeur c).isSome = true → c.isDigit = true
  valeur_lt : ∀ c n, chiffres.valeur c = some n → n < 10

namespace Alphabet

variable (A : Alphabet)

/-- `\d` -/
def chiffre (c : Char) : Bool := (A.chiffres.valeur c).isSome

/-- `^#\s+(\d+)\.\s+(.+?)\s*$` -/
def TITRE : Patron :=
  [(false, .debut), (false, .un (· = '#')), (false, .plus estBlanc), (true, .plus A.chiffre),
    (false, .un (· = '.')), (false, .plus estBlanc), (true, .plusPeu (· ≠ '\n')),
    (false, .etoile estBlanc), (false, .fin)]

/-- `^\s*-\s*\[( |x|X)\]\s*§(\d+)\b` -/
def LIGNE_PLAN : Patron :=
  [(false, .debut), (false, .etoile estBlanc), (false, .un (· = '-')), (false, .etoile estBlanc),
    (false, .un (· = '[')), (true, .un fun c => c = ' ' || c = 'x' || c = 'X'),
    (false, .un (· = ']')), (false, .etoile estBlanc), (false, .un (· = '§')),
    (true, .plus A.chiffre), (false, .limite)]

def groupe (o : Occurrence) (i : Nat) : String := String.ofList (o.groupes.getD i [])

def corpsDe (o : Occurrence) (suivante : Option Occurrence) : String :=
  strip (String.ofList (o.fin.take (o.fin.length - (suivante.map (·.debut.length)).getD 0)))

/-- The matches that are followed by a text, with that text. -/
def nonVides : List Occurrence → List (Occurrence × String)
  | [] => []
  | o :: os =>
      if corpsDe o os.head? = "" then nonVides os else (o, corpsDe o os.head?) :: nonVides os

/-- `int` of a group of digits; `none` is the `ValueError` when there are too many. -/
def entier (chiffres : String) : Option Nat := (lireEntier A.chiffres chiffres).map Int.toNat

def decouper (texte : String) : Option (List Section) :=
  (nonVides (trouver A.mot A.TITRE texte.toList)).mapM fun marque =>
    (A.entier (groupe marque.1 0)).map fun numero =>
      { numero := numero, titre := strip (groupe marque.1 1), corps := marque.2 }

def EN_TETE_PLAN : String := "# Plan d'exécution du cahier des charges

> **À relire avant de lancer.** Coché = une mission sera lancée pour cette
> section. Décoché = la section est transmise comme règle permanente à
> toutes les missions, sans mission propre.
>
> La proposition ci-dessous vient d'un classement automatique : une section
> est cochée si elle nomme une entité du modèle de données du cahier. Ce
> critère se trompe — mesuré à environ 30 % sur un cahier réel : il a classé
> « CONFORMITÉ », « ALERTES », « API » et « BACKEND » comme de simples
> règles, et « OBJECTIF FINAL » comme un livrable. C'est pourquoi ce fichier
> existe : corrige les cases, elles font foi.
>
> Compte environ dix minutes par case cochée.

"

def lignePlan (numeros : List Nat) (s : Section) : String :=
  "- [" ++ (if s.numero ∈ numeros then "x" else " ") ++ "] §" ++ toString s.numero ++ " — " ++
    s.titre

def ecrirePlan (sections aConstruire : List Section) : String :=
  "\n".intercalate (EN_TETE_PLAN :: sections.map (lignePlan (aConstruire.map Section.numero))) ++
    "\n"

/-- The numbers of the ticked boxes, as they are spelled. -/
def coches (avant : Option Char) (texte : List Char) : List String :=
  ((finditer A.mot A.LIGNE_PLAN avant texte texte.length).filter fun o =>
    groupe o 0 = "x" || groupe o 0 = "X").map fun o => groupe o 1

def lirePlan (contenu : Option String) : Option (Option (List Nat)) :=
  match contenu with
  | none => some none
  | some texte =>
      ((A.coches none (universel texte.toList)).mapM A.entier).map some

/-- The numbered titles, wherever the pattern finds one at the start of a line. -/
def titres (texte : String) : List Occurrence := occurrences A.mot A.TITRE none texte.toList

/-- The number that digits spell, however many there are. -/
def valeurDe (chiffres : String) : Nat := nombreDe (chiffres.toList.filterMap A.chiffres.valeur)

def sectionDe (marque : Occurrence × String) : Section where
  numero := A.valeurDe (groupe marque.1 0)
  titre := strip (groupe marque.1 1)
  corps := marque.2

/-- The sections of all the numbered titles, each up to the next one, those without a text left
out. -/
def sectionsNumerotees (texte : String) : List Section :=
  (nonVides (A.titres texte)).map A.sectionDe

/-- Cutting gives the numbered sections, and the plan that is written for some of them is read as
their numbers. -/
def Fidele (texte : String) : Prop :=
  ∃ sections, A.decouper texte = some sections ∧ sections = A.sectionsNumerotees texte ∧
    ∀ aConstruire, aConstruire.Sublist sections →
      ∃ numeros, A.lirePlan (some (ecrirePlan sections aConstruire)) = some (some numeros) ∧
        ∀ n, n ∈ numeros ↔ n ∈ aConstruire.map Section.numero

/-- Titles that take the next title for their own text, two by two from the first: nothing is
written under them. -/
def SansPerte : List Occurrence → Prop
  | o :: o' :: os =>
      if o.fin.length < o'.debut.length then corpsDe o os.head? = "" ∧ SansPerte os
      else SansPerte (o' :: os)
  | _ => True

structure Lisible (texte : String) : Prop where
  entiers : SansPerte (A.titres texte)
  nombres : ∀ marque ∈ nonVides (A.titres texte),
    (groupe marque.1 0).length ≤ LIMITE_DE_CHIFFRES
  titresSurs : ∀ s ∈ A.sectionsNumerotees texte,
    A.coches (some ' ') (universel s.titre.toList) = []

def usuel : Alphabet where
  chiffres := Chiffres.usuels
  mot c := c.isAlphanum || c = '_'
  mot_chiffre c h := by
    have hc : c.isDigit = true := by
      by_contra hne
      simp [Chiffres.usuels, hne] at h
    simp [Char.isAlphanum, hc]
  mot_blanc c h := by
    rw [Bool.eq_false_iff]
    intro hmot
    simp only [estBlanc, Bool.or_eq_true, Bool.and_eq_true, decide_eq_true_eq, beq_iff_eq] at h
    change (((decide (65 ≤ c.val ∧ c.val ≤ 90) ||
      (decide (97 ≤ c.val) && decide (c.val ≤ 122))) ||
      (decide (48 ≤ c.val) && decide (c.val ≤ 57))) || decide (c = '_')) = true at hmot
    simp only [Bool.or_eq_true, Bool.and_eq_true, decide_eq_true_eq, UInt32.le_iff_toNat_le] at hmot
    change (((65 ≤ c.toNat ∧ c.toNat ≤ 90) ∨ (97 ≤ c.toNat ∧ c.toNat ≤ 122)) ∨
      (48 ≤ c.toNat ∧ c.toNat ≤ 57)) ∨ c = '_' at hmot
    rcases hmot with hmot | rfl
    · omega
    · simp at h
  ascii_chiffre c _ h := by
    by_contra hne
    simp [Chiffres.usuels, hne] at h
  valeur_lt c n h := by
    simp only [Chiffres.usuels, Option.ite_none_right_eq_some, Option.some.injEq] at h
    obtain ⟨hchiffre, rfl⟩ := h
    simp only [Char.isDigit, Bool.and_eq_true, decide_eq_true_eq, UInt32.le_iff_toNat_le,
      ge_iff_le] at hchiffre
    change 48 ≤ c.toNat ∧ c.toNat ≤ 57 at hchiffre
    change c.toNat - 48 < 10
    omega

end Alphabet

end Hermes.Programme
