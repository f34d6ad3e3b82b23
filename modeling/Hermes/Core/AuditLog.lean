import Hermes.Lib.Rationnelle
import Hermes.Lib.Remplacement
import Hermes.Lib.Texte
import Mathlib.Data.Bool.AllAny

/-! # The shapes of credentials

Five patterns, each aimed at a shape that is only ever a credential, replaced one after the other.
-/

namespace Hermes.AuditLog

open Lib Lib.Rationnelle Lib.Rationnelle.Regex Lib.Remplacement

/-- The characters of words and the digits, of which no mark of punctuation is one. -/
structure Caracteres where
  mot : Char → Bool
  chiffre : Char → Bool
  chiffre_mot : ∀ c, chiffre c = true → mot c = true
  ponctuation : ∀ c ∈ ['[', ']', '<', '>', '@', '.', ':', '/', '\\'], mot c = false

def Caracteres.ascii : Caracteres where
  mot c := c.isAlphanum || c = '_'
  chiffre c := c.isDigit
  chiffre_mot c h := by simp [Char.isAlphanum, h]
  ponctuation := List.all_iff_forall_prop.mp (by decide)

/-- A letter of ASCII without regard to case, with the characters that stand for one. -/
def lettre (c : Char) : Bool :=
  Motif.minuscule c ∈ "abcdefghijklmnopqrstuvwxyz".toList || c.toNat = 0x131 || c.toNat = 0x17f

def tiret : Regex := option (car fun c => c = '_' || c = '-')

def REDACTED : String := "[REDACTED]"

section Motifs

variable (u : Caracteres)

def motif (r : Regex) (jeton : String) : Chercheur := fun a cs =>
  (r.issues u.mot ⟨a, cs⟩).head?.map fun i => (i.1.length, jeton.toList)

/-- `re.sub` on a text. -/
def sub (f : Chercheur) (texte : String) : String := String.ofList (remplacer f 0 none texte.toList)

def bearer : Regex :=
  enSuite [limite, mots "bearer", repete 1 Texte.estBlanc,
    repete 8 fun c => lettre c || c.isDigit || c = '.' || c = '_' || c = '-']

def cle : Regex :=
  enSuite [limite, peu fun c => u.mot c || c = '-',
    parmi [enSuite [mots "api", tiret, mots "key"], mots "secret", mots "token", mots "password",
      mots "passwd", mots "authorization", enSuite [mots "access", tiret, mots "key"],
      enSuite [mots "private", tiret, mots "key"], enSuite [mots "client", tiret, mots "secret"]],
    repete 0 Texte.estBlanc, car fun c => c = ':' || c = '=', repete 0 Texte.estBlanc,
    option (car fun c => c = '"' || c = '\'')]

def valeur : Regex :=
  repete 4 fun c => !(Texte.estBlanc c || c = '"' || c = '\'' || c = ',' || c = ';' || c = '}')

/-- The key and the separator are kept, and the value is replaced. -/
def keyed : Chercheur := fun a cs =>
  ((cle u).issues u.mot ⟨a, cs⟩).findSome? fun i =>
    (valeur.issues u.mot i.2).head?.map fun j =>
      (i.1.length + j.1.length, i.1 ++ REDACTED.toList)

def sk : Regex :=
  enSuite [limite, litteral "sk-",
    fois 0 3 (suite (entre 1 8 (car fun c => c.isLower || c.isDigit)) (car (· = '-'))),
    repete 16 Char.isAlphanum, limite]

def github : Regex :=
  enSuite [limite, litteral "gh", car fun c => c ∈ "pousr".toList, car (· = '_'),
    repete 16 Char.isAlphanum, limite]

def telegram : Regex :=
  enSuite [limite, repete 6 u.chiffre, car (· = ':'),
    repete 20 fun c => c.isAlphanum || c = '_' || c = '-', limite]

/-- `redact` of a text: the bearer goes first. -/
def redact (texte : String) : String :=
  let texte := sub (motif u bearer "Bearer [REDACTED]") texte
  let texte := sub (keyed u) texte
  let texte := sub (motif u sk REDACTED) texte
  let texte := sub (motif u github REDACTED) texte
  sub (motif u (telegram u) REDACTED) texte

end Motifs

end Hermes.AuditLog
