import Hermes.Lib.Valeur

/-! # Reading a value whose shape nobody promised

`value.get(key)`, `a or b`, the truth of a value, an iteration and the three conversions: each of
them may raise.
-/

namespace Hermes.Lib

structure Leve where
  type : String
  texte : String
  deriving DecidableEq

/-- `f"{type(erreur).__name__}: {erreur}"`. -/
def Leve.message (erreur : Leve) : String := erreur.type ++ ": " ++ erreur.texte

@[simp] theorem ok_bind {ε α β : Type} (a : α) (f : α → Except ε β) :
    (Except.ok a >>= f) = f a := rfl

@[simp] theorem error_bind {ε α β : Type} (erreur : ε) (f : α → Except ε β) :
    ((Except.error erreur : Except ε α) >>= f) = .error erreur := rfl

@[simp] theorem map_ok {ε α β : Type} (f : α → β) (a : α) :
    (f <$> (Except.ok a : Except ε α)) = .ok (f a) := rfl

@[simp] theorem pure_eq_ok {ε α : Type} (a : α) : (pure a : Except ε α) = .ok a := rfl

theorem bind_eq_ok {ε α β : Type} {x : Except ε α} {f : α → Except ε β} {b : β} :
    (x >>= f) = .ok b ↔ ∃ a, x = .ok a ∧ f a = .ok b := by
  cases x with
  | error erreur => simp
  | ok a => simp

def Cle.valeur : Cle → Valeur
  | rien => .rien
  | booleen b => .booleen b
  | entier n => .entier n
  | flottant chiffres => .flottant chiffres
  | texte s => .texte s
  | autre repr => .objet repr

/-- What the interpreter answers: on the objects, the conversions, `str.lower` and the arithmetic
of durations. -/
structure Interprete (δ : Type) where
  vraiObjet : String → Except Leve Bool
  getObjet : String → String → Except Leve Valeur
  iterObjet : String → Except Leve (List Valeur)
  str : Valeur → Except Leve String
  str_texte : ∀ s, str (.texte s) = .ok s
  str_entier : ∀ n, str (.entier n) = .ok (toString n)
  float : Valeur → Except Leve δ
  int : Valeur → Except Leve Int
  lower : String → String
  /-- `0.0` -/
  zero : δ
  /-- `secondes + millisecondes / 1000.0` -/
  cumuler : δ → δ → δ

namespace Interprete

open Valeur

variable {δ : Type} (i : Interprete δ)

/-- `bool(value)`. -/
def vrai : Valeur → Except Leve Bool
  | rien => .ok false
  | booleen b => .ok b
  | entier n => .ok (n != 0)
  | flottant chiffres => .ok (chiffres != "0.0" && chiffres != "-0.0")
  | texte s => .ok (s != "")
  | liste valeurs => .ok (!valeurs.isEmpty)
  | uplet valeurs => .ok (!valeurs.isEmpty)
  | dict items => .ok (!items.isEmpty)
  | objet repr => i.vraiObjet repr

/-- `value or other`, whose second operand is read only after a false first one. -/
def ouPuis (valeur : Valeur) (autre : Except Leve Valeur) : Except Leve Valeur := do
  if ← i.vrai valeur then pure valeur else autre

/-- `value or default`. -/
def ou (valeur defaut : Valeur) : Except Leve Valeur := i.ouPuis valeur (pure defaut)

def sansAttribut (type : String) : Leve :=
  ⟨"AttributeError", "'" ++ type ++ "' object has no attribute 'get'"⟩

def get : Valeur → String → Except Leve Valeur
  | dict items, cle => .ok ((Dict.get? items (.texte cle)).getD rien)
  | objet repr, cle => i.getObjet repr cle
  | rien, _ => .error (sansAttribut "NoneType")
  | booleen _, _ => .error (sansAttribut "bool")
  | entier _, _ => .error (sansAttribut "int")
  | flottant _, _ => .error (sansAttribut "float")
  | texte _, _ => .error (sansAttribut "str")
  | liste _, _ => .error (sansAttribut "list")
  | uplet _, _ => .error (sansAttribut "tuple")

/-- `value.get(key) or default`. -/
def getOu (valeur : Valeur) (cle : String) (defaut : Valeur) : Except Leve Valeur := do
  i.ou (← i.get valeur cle) defaut

def nonIterable (type : String) : Leve :=
  ⟨"TypeError", "'" ++ type ++ "' object is not iterable"⟩

/-- `list(value)`. -/
def iterer : Valeur → Except Leve (List Valeur)
  | liste valeurs => .ok valeurs
  | uplet valeurs => .ok valeurs
  | dict items => .ok (items.map fun item => item.1.valeur)
  | texte s => .ok (s.toList.map fun c => texte (String.singleton c))
  | objet repr => i.iterObjet repr
  | rien => .error (nonIterable "NoneType")
  | booleen _ => .error (nonIterable "bool")
  | entier _ => .error (nonIterable "int")
  | flottant _ => .error (nonIterable "float")

/-- `separateur.join(map(str, value))`. -/
def joindre (separateur : String) (valeur : Valeur) : Except Leve String := do
  pure (separateur.intercalate (← (← i.iterer valeur).mapM i.str))

/-- `f"… {value.get(key)} …"`. -/
def strDe (valeur : Valeur) (cle : String) : Except Leve String := do
  i.str (← i.get valeur cle)

@[simp] theorem vrai_dict (items : List (Cle × Valeur)) :
    i.vrai (dict items) = .ok (!items.isEmpty) := rfl

@[simp] theorem vrai_liste (valeurs : List Valeur) :
    i.vrai (liste valeurs) = .ok (!valeurs.isEmpty) := rfl

@[simp] theorem vrai_booleen (b : Bool) : i.vrai (booleen b) = .ok b := rfl

@[simp] theorem vrai_rien : i.vrai rien = .ok false := rfl

@[simp] theorem get_dict (items : List (Cle × Valeur)) (cle : String) :
    i.get (dict items) cle = .ok ((Dict.get? items (.texte cle)).getD rien) := rfl

theorem ouPuis_of_vrai {valeur : Valeur} (h : i.vrai valeur = .ok true)
    (autre : Except Leve Valeur) : i.ouPuis valeur autre = .ok valeur := by
  simp [ouPuis, h]

theorem ouPuis_of_faux {valeur : Valeur} (h : i.vrai valeur = .ok false)
    (autre : Except Leve Valeur) : i.ouPuis valeur autre = autre := by
  simp [ouPuis, h]

theorem mapM_str (textes : List String) :
    (textes.map texte).mapM i.str = .ok textes := by
  induction textes with
  | nil => rfl
  | cons t textes ih =>
      simp [List.mapM_cons, i.str_texte, ih]

theorem joindre_textes (separateur : String) (textes : List String) :
    i.joindre separateur (liste (textes.map texte)) = .ok (separateur.intercalate textes) := by
  simp [joindre, iterer, i.mapM_str textes]

end Interprete

end Hermes.Lib
