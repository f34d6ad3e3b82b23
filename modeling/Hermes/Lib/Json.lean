import Mathlib.Data.List.Sort

/-! # JSON with sorted keys

The text of a value as the source language's `json.dumps` writes it with sorted keys and
no escape of the letters outside ASCII. The separators are parameters.
-/

namespace Hermes.Lib

inductive Json where
  | null
  | bool (b : Bool)
  | entier (n : Int)
  | flottant (chiffres : String)
  | texte (s : String)
  | tableau (valeurs : List Json)
  | objet (items : List (String × Json))

namespace Json

def echapper (c : Char) : List Char :=
  let n := c.toNat
  let barre := Char.ofNat 92
  if n = 34 ∨ n = 92 then [barre, c]
  else if n = 8 then [barre, 'b']
  else if n = 9 then [barre, 't']
  else if n = 10 then [barre, 'n']
  else if n = 12 then [barre, 'f']
  else if n = 13 then [barre, 'r']
  else if n < 32 then [barre, 'u', '0', '0', Nat.digitChar (n / 16), Nat.digitChar (n % 16)]
  else [c]

def citer (s : String) : String :=
  let guillemet := String.singleton (Char.ofNat 34)
  guillemet ++ String.ofList (s.toList.flatMap echapper) ++ guillemet

section Ecriture

-- the text between two items, and the one between a key and its value
variable (entre apres : String)

mutual

def dumps : Json → String
  | null => "null"
  | bool b => if b then "true" else "false"
  | entier n => toString n
  | flottant chiffres => chiffres
  | texte s => citer s
  | tableau valeurs => "[" ++ entre.intercalate (dumpsValeurs valeurs) ++ "]"
  | objet items =>
      let tries := (dumpsItems items).mergeSort fun a b => a.1 ≤ b.1
      "\x7b" ++ entre.intercalate (tries.map fun item => citer item.1 ++ apres ++ item.2) ++ "\x7d"

def dumpsValeurs : List Json → List String
  | [] => []
  | v :: valeurs => dumps v :: dumpsValeurs valeurs

def dumpsItems : List (String × Json) → List (String × String)
  | [] => []
  | (k, v) :: items => (k, dumps v) :: dumpsItems items

end

end Ecriture

/-- The separators that `json.dumps` takes when it is given none. -/
def dumpsEspace (v : Json) : String := dumps ", " ": " v

def dumpsCompact (v : Json) : String := dumps "," ":" v

end Json

end Hermes.Lib
