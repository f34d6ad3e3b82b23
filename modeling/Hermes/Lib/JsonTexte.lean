import Hermes.Lib.Dict
import Hermes.Lib.Json

/-! # The text of a JSON value, and back

`ecrire` is `json.dumps` without an escape of the letters outside ASCII, in the order of the
insertions; `lire` is `json.loads`. Both work on lists of characters.
-/

namespace Hermes.Lib.Json

def guillemet : Char := Char.ofNat 34

def barre : Char := Char.ofNat 92

def ouvrante : Char := Char.ofNat 123

def fermante : Char := Char.ofNat 125

def ecrireEntier (n : Int) : List Char :=
  if n < 0 then '-' :: Nat.toDigits 10 n.natAbs else Nat.toDigits 10 n.natAbs

def ecrireTexte (s : String) : List Char :=
  guillemet :: (s.toList.flatMap echapper ++ [guillemet])

mutual

def ecrire : Json → List Char
  | null => ['n', 'u', 'l', 'l']
  | bool true => ['t', 'r', 'u', 'e']
  | bool false => ['f', 'a', 'l', 's', 'e']
  | entier n => ecrireEntier n
  | flottant chiffres => chiffres.toList
  | texte s => ecrireTexte s
  | tableau [] => ['[', ']']
  | tableau (v :: valeurs) => '[' :: (ecrire v ++ ecrireValeurs valeurs)
  | objet [] => [ouvrante, fermante]
  | objet ((cle, v) :: items) =>
      ouvrante :: (ecrireTexte cle ++ ':' :: ' ' :: (ecrire v ++ ecrireItems items))

/-- What follows a value of an array, to its end. -/
def ecrireValeurs : List Json → List Char
  | [] => [']']
  | v :: valeurs => ',' :: ' ' :: (ecrire v ++ ecrireValeurs valeurs)

/-- What follows an item of an object, to its end. -/
def ecrireItems : List (String × Json) → List Char
  | [] => [fermante]
  | (cle, v) :: items =>
      ',' :: ' ' :: (ecrireTexte cle ++ ':' :: ' ' :: (ecrire v ++ ecrireItems items))

end

def estBlanc (c : Char) : Bool := c = ' ' || c = '\t' || c = '\n' || c = '\r'

def sauter (texte : List Char) : List Char := texte.dropWhile estBlanc

def chiffres : List Char → List Char × List Char
  | [] => ([], [])
  | c :: suite =>
      if c.isDigit then (c :: (chiffres suite).1, (chiffres suite).2) else ([], c :: suite)

/-- The integer part of a number: a zero alone, or digits that do not start with one. -/
def partieEntiere (texte : List Char) : Option (List Char × List Char) :=
  match chiffres texte with
  | ([], _) => none
  | (c :: cs, suite) => if c = '0' then some ([c], cs ++ suite) else some (c :: cs, suite)

def fraction : List Char → List Char × List Char
  | [] => ([], [])
  | c :: suite =>
      if c = '.' ∧ (chiffres suite).1 ≠ [] then (c :: (chiffres suite).1, (chiffres suite).2)
      else ([], c :: suite)

def signe : List Char → List Char × List Char
  | [] => ([], [])
  | c :: suite => if c = '+' ∨ c = '-' then ([c], suite) else ([], c :: suite)

def exposant : List Char → List Char × List Char
  | [] => ([], [])
  | c :: suite =>
      let apres := signe suite
      if (c = 'e' ∨ c = 'E') ∧ (chiffres apres.2).1 ≠ [] then
        (c :: (apres.1 ++ (chiffres apres.2).1), (chiffres apres.2).2)
      else ([], c :: suite)

def lireNombre (negatif : Bool) (texte : List Char) : Option (Json × List Char) :=
  match partieEntiere texte with
  | none => none
  | some (entiere, suite) =>
      let f := fraction suite
      let e := exposant f.2
      let valeur : Int := Nat.ofDigitChars 10 entiere 0
      if f.1 = [] ∧ e.1 = [] then some (entier (if negatif then -valeur else valeur), e.2)
      else
        let tete := if negatif then ['-'] else []
        some (flottant (String.ofList (tete ++ entiere ++ f.1 ++ e.1)), e.2)

def MOTS : List (List Char × Json) :=
  [(['n', 'u', 'l', 'l'], null), (['t', 'r', 'u', 'e'], bool true),
    (['f', 'a', 'l', 's', 'e'], bool false), (['N', 'a', 'N'], flottant "NaN"),
    (['I', 'n', 'f', 'i', 'n', 'i', 't', 'y'], flottant "Infinity"),
    (['-', 'I', 'n', 'f', 'i', 'n', 'i', 't', 'y'], flottant "-Infinity")]

def lireMot (texte : List Char) : Option (Json × List Char) :=
  MOTS.findSome? fun (mot, valeur) =>
    if mot.isPrefixOf texte then some (valeur, texte.drop mot.length) else none

/-- A value that is neither a string, an array nor an object. -/
def lireAtome (texte : List Char) : Option (Json × List Char) :=
  match lireMot texte with
  | some resultat => some resultat
  | none =>
      match texte with
      | [] => none
      | c :: suite => if c = '-' then lireNombre true suite else lireNombre false (c :: suite)

/-- The character that a one-letter escape stands for. -/
def desechapper (c : Char) : Option Char :=
  if c = guillemet ∨ c = barre ∨ c = '/' then some c
  else if c = 'b' then some (Char.ofNat 8)
  else if c = 'f' then some (Char.ofNat 12)
  else if c = 'n' then some (Char.ofNat 10)
  else if c = 'r' then some (Char.ofNat 13)
  else if c = 't' then some (Char.ofNat 9)
  else none

def hexa (c : Char) : Option Nat :=
  let n := c.toNat
  if 48 ≤ n ∧ n ≤ 57 then some (n - 48)
  else if 97 ≤ n ∧ n ≤ 102 then some (n - 87)
  else if 65 ≤ n ∧ n ≤ 70 then some (n - 55)
  else none

def hexa4 (a b c d : Char) : Option Nat := do
  let a ← hexa a
  let b ← hexa b
  let c ← hexa c
  let d ← hexa d
  return ((a * 16 + b) * 16 + c) * 16 + d

def jumeler (haut bas : Nat) : Option Char :=
  if 0xd800 ≤ haut ∧ haut ≤ 0xdbff ∧ 0xdc00 ≤ bas ∧ bas ≤ 0xdfff then
    some (Char.ofNat (0x10000 + (haut - 0xd800) * 0x400 + (bas - 0xdc00)))
  else none

/-- The rest of a string whose opening quote has been read. -/
def lireTexte : List Char → Option (List Char × List Char)
  | [] => none
  | c :: suite =>
      if c = guillemet then some ([], suite)
      else if c = barre then
        match suite with
        | [] => none
        | lettre :: suite =>
            match desechapper lettre, suite with
            | some simple, suite =>
                (lireTexte suite).map fun (debut, fin) => (simple :: debut, fin)
            | none, x₁ :: x₂ :: x₃ :: x₄ :: suite =>
                if lettre ≠ 'u' then none
                else
                  match hexa4 x₁ x₂ x₃ x₄ with
                  | none => none
                  | some n =>
                      if n.isValidChar then
                        (lireTexte suite).map fun (debut, fin) => (Char.ofNat n :: debut, fin)
                      else
                        match suite with
                        | y₀ :: y :: y₁ :: y₂ :: y₃ :: y₄ :: suite =>
                            match (hexa4 y₁ y₂ y₃ y₄).bind (jumeler n) with
                            | none => none
                            | some paire =>
                                if y₀ = barre ∧ y = 'u' then
                                  (lireTexte suite).map fun (debut, fin) => (paire :: debut, fin)
                                else none
                        | _ => none
            | none, _ => none
      else if c.toNat < 32 then none
      else (lireTexte suite).map fun (debut, fin) => (c :: debut, fin)

mutual

/-- The first argument bounds the depth and the length of the values that are read. -/
def lireValeur : Nat → List Char → Option (Json × List Char)
  | 0, _ => none
  | _ + 1, [] => none
  | n + 1, c :: suite =>
      if c = guillemet then
        (lireTexte suite).map fun (s, fin) => (texte (String.ofList s), fin)
      else if c = '[' then
        match sauter suite with
        | [] => none
        | d :: fin =>
            if d = ']' then some (tableau [], fin)
            else (lireValeurs n (d :: fin)).map fun (valeurs, fin) => (tableau valeurs, fin)
      else if c = ouvrante then
        match sauter suite with
        | [] => none
        | d :: fin =>
            if d = fermante then some (objet [], fin)
            else
              (lireItems n (d :: fin)).map fun (items, fin) =>
                (objet (items.foldl (fun d item => Dict.set d item.1 item.2) []), fin)
      else lireAtome (c :: suite)

def lireValeurs : Nat → List Char → Option (List Json × List Char)
  | 0, _ => none
  | n + 1, debut =>
      match lireValeur n debut with
      | none => none
      | some (v, suite) =>
          match sauter suite with
          | [] => none
          | c :: fin =>
              if c = ']' then some ([v], fin)
              else if c = ',' then
                (lireValeurs n (sauter fin)).map fun (valeurs, fin) => (v :: valeurs, fin)
              else none

def lireItems : Nat → List Char → Option (List (String × Json) × List Char)
  | 0, _ => none
  | _ + 1, [] => none
  | n + 1, c :: suite =>
      if c ≠ guillemet then none
      else
        match lireTexte suite with
        | none => none
        | some (cle, suite) =>
            match sauter suite with
            | [] => none
            | deux :: suite =>
                if deux ≠ ':' then none
                else
                  match lireValeur n (sauter suite) with
                  | none => none
                  | some (v, suite) =>
                      match sauter suite with
                      | [] => none
                      | c :: fin =>
                          let item := (String.ofList cle, v)
                          if c = fermante then some ([item], fin)
                          else if c = ',' then
                            (lireItems n (sauter fin)).map fun (items, fin) => (item :: items, fin)
                          else none

end

/-- `json.loads`: one value, with nothing but blanks around it. -/
def lire (texte : List Char) : Option Json :=
  match lireValeur (texte.length + 1) (sauter texte) with
  | none => none
  | some (v, suite) => if sauter suite = [] then some v else none

/-- What follows a value inside a document: the end, the punctuation that closes it, or a
blank. -/
def Clos : List Char → Prop
  | [] => True
  | c :: _ => c = ',' ∨ c = ']' ∨ c = fermante ∨ estBlanc c = true

def SansChiffre : List Char → Prop
  | [] => True
  | c :: _ => c.isDigit = false

theorem estBlanc_iff {c : Char} :
    estBlanc c = true ↔ c = ' ' ∨ c = '\t' ∨ c = '\n' ∨ c = '\r' := by
  simp [estBlanc, or_assoc]

theorem Clos.tete {c : Char} {suite : List Char} (h : Clos (c :: suite)) :
    c.isDigit = false ∧ c ∉ ['.', 'e', 'E'] := by
  rcases h with rfl | rfl | rfl | hblanc
  · decide
  · decide
  · decide
  · rcases estBlanc_iff.mp hblanc with rfl | rfl | rfl | rfl <;> decide

theorem Clos.sansChiffre {suite : List Char} (h : Clos suite) : SansChiffre suite := by
  cases suite with
  | nil => trivial
  | cons c suite => exact h.tete.1

theorem chiffres_append {ds suite : List Char} (hds : ∀ c ∈ ds, c.isDigit = true)
    (hsuite : SansChiffre suite) : chiffres (ds ++ suite) = (ds, suite) := by
  induction ds with
  | nil =>
      cases suite with
      | nil => rfl
      | cons c suite =>
          have hc : c.isDigit = false := hsuite
          simp [chiffres, hc]
  | cons d ds ih =>
      have hd := hds d List.mem_cons_self
      simp [chiffres, hd, ih fun c hc => hds c (List.mem_cons_of_mem d hc)]

structure PartieEntiere (ds : List Char) : Prop where
  chiffres : ∀ c ∈ ds, c.isDigit = true
  nonVide : ds ≠ []
  zeroSeul : ds.head? = some '0' → ds = ['0']

theorem partieEntiere_append {ds suite : List Char} (hds : PartieEntiere ds)
    (hsuite : SansChiffre suite) : partieEntiere (ds ++ suite) = some (ds, suite) := by
  unfold partieEntiere
  rw [chiffres_append hds.chiffres hsuite]
  cases hcons : ds with
  | nil => exact absurd hcons hds.nonVide
  | cons c cs =>
      dsimp only
      split
      · next hzero =>
          have hseul := hds.zeroSeul (by rw [hcons, hzero]; rfl)
          rw [hcons] at hseul
          cases hseul
          rfl
      · rfl

theorem toDigits_head {n : Nat} (hn : 0 < n) : (Nat.toDigits 10 n).head? ≠ some '0' := by
  induction n using Nat.strongRecOn with
  | ind n ih =>
      rw [Nat.toDigits_eq_if (by decide)]
      split
      · next hsmall =>
          have hall : ∀ d < 10, 0 < d → [Nat.digitChar d].head? ≠ some '0' := by decide
          exact hall n hsmall hn
      · next hlarge =>
          have hrec := ih (n / 10) (by omega) (by omega)
          rwa [List.head?_append_of_ne_nil _ Nat.toDigits_ne_nil]

theorem partieEntiere_toDigits (n : Nat) : PartieEntiere (Nat.toDigits 10 n) where
  chiffres c hc := Nat.isDigit_of_mem_toDigits (by decide) (by decide) hc
  nonVide := Nat.toDigits_ne_nil
  zeroSeul h := by
    rcases Nat.eq_zero_or_pos n with rfl | hn
    · rfl
    · exact absurd h (toDigits_head hn)

theorem fraction_of_clos {suite : List Char} (h : Clos suite) : fraction suite = ([], suite) := by
  cases suite with
  | nil => rfl
  | cons c suite =>
      have hpoint : c ≠ '.' := List.ne_of_not_mem_cons h.tete.2
      simp [fraction, hpoint]

theorem exposant_of_clos {suite : List Char} (h : Clos suite) : exposant suite = ([], suite) := by
  cases suite with
  | nil => rfl
  | cons c suite =>
      have hlettre := h.tete.2
      simp only [List.mem_cons, List.not_mem_nil, or_false, not_or] at hlettre
      simp [exposant, hlettre]

theorem lireNombre_entier (negatif : Bool) (n : Nat) {suite : List Char} (h : Clos suite) :
    lireNombre negatif (Nat.toDigits 10 n ++ suite)
      = some (entier (if negatif then -(n : Int) else n), suite) := by
  unfold lireNombre
  rw [partieEntiere_append (partieEntiere_toDigits n) h.sansChiffre]
  simp [fraction_of_clos h, exposant_of_clos h]

theorem lireMot_eq_none {c : Char} {suite : List Char} (hc : c ∉ ['n', 't', 'f', 'N', 'I'])
    (hmoins : c = '-' → suite.head? ≠ some 'I') : lireMot (c :: suite) = none := by
  simp only [List.mem_cons, List.not_mem_nil, or_false, not_or] at hc
  obtain ⟨hn, ht, hf, hN, hI⟩ := hc
  have hinfini : '-' = c → ¬['I', 'n', 'f', 'i', 'n', 'i', 't', 'y'] <+: suite := by
    rintro rfl ⟨fin, rfl⟩
    exact hmoins rfl rfl
  simpa [lireMot, MOTS, Ne.symm hn, Ne.symm ht, Ne.symm hf, Ne.symm hN, Ne.symm hI] using hinfini

theorem lireMot_chiffre {c : Char} {suite : List Char} (hc : c.isDigit = true) :
    lireMot (c :: suite) = none := by
  apply lireMot_eq_none
  · intro hmem
    simp only [List.mem_cons, List.not_mem_nil, or_false] at hmem
    obtain rfl | rfl | rfl | rfl | rfl := hmem <;> cases hc
  · rintro rfl
    cases hc

theorem lireAtome_nombre (negatif : Bool) {ds suite : List Char} (hds : PartieEntiere ds) :
    lireAtome ((if negatif then ['-'] else []) ++ (ds ++ suite))
      = lireNombre negatif (ds ++ suite) := by
  cases hcons : ds with
  | nil => exact absurd hcons hds.nonVide
  | cons c cs =>
      have hc : c.isDigit = true := hds.chiffres c (by rw [hcons]; exact List.mem_cons_self)
      cases negatif with
      | true =>
          have hmot : lireMot ('-' :: c :: (cs ++ suite)) = none := by
            refine lireMot_eq_none (by decide) fun _ hI => ?_
            have hI : c = 'I' := by simpa using hI
            rw [hI] at hc
            cases hc
          simp [lireAtome, hmot]
      | false =>
          have hmoins : c ≠ '-' := by
            rintro rfl
            cases hc
          simp [lireAtome, lireMot_chiffre hc, hmoins]

theorem lireAtome_entier (n : Int) {suite : List Char} (h : Clos suite) :
    lireAtome (ecrireEntier n ++ suite) = some (entier n, suite) := by
  have hread := lireNombre_entier (decide (n < 0)) n.natAbs h
  rw [← lireAtome_nombre _ (partieEntiere_toDigits n.natAbs)] at hread
  unfold ecrireEntier
  by_cases hn : n < 0
  · have habs : -((n.natAbs : Nat) : Int) = n := by omega
    rw [decide_eq_true hn, if_pos rfl, if_pos rfl, habs] at hread
    rwa [if_pos hn]
  · have habs : ((n.natAbs : Nat) : Int) = n := by omega
    rw [decide_eq_false hn, if_neg Bool.false_ne_true, if_neg Bool.false_ne_true, habs] at hread
    rwa [if_neg hn]

structure Decimal where
  negatif : Bool
  entiere : List Char
  decimales : List Char
  signe : List Char
  exposant : List Char

namespace Decimal

def texteFraction (d : Decimal) : List Char :=
  if d.decimales = [] then [] else '.' :: d.decimales

def texteExposant (d : Decimal) : List Char :=
  if d.exposant = [] then [] else 'e' :: (d.signe ++ d.exposant)

def texte (d : Decimal) : List Char :=
  (if d.negatif then ['-'] else []) ++ (d.entiere ++ (d.texteFraction ++ d.texteExposant))

structure Valide (d : Decimal) : Prop where
  entiere : PartieEntiere d.entiere
  decimales : ∀ c ∈ d.decimales, c.isDigit = true
  signe : d.signe = [] ∨ d.signe = ['+'] ∨ d.signe = ['-']
  exposant : ∀ c ∈ d.exposant, c.isDigit = true
  flottant : d.decimales ≠ [] ∨ d.exposant ≠ []

theorem exposant_texte {d : Decimal} (h : d.Valide) {suite : List Char} (hsuite : Clos suite) :
    Json.exposant (d.texteExposant ++ suite) = (d.texteExposant, suite) := by
  unfold texteExposant
  split
  · exact exposant_of_clos hsuite
  · next hne =>
      have hsigne : Json.signe (d.signe ++ (d.exposant ++ suite))
          = (d.signe, d.exposant ++ suite) := by
        rcases h.signe with hs | hs | hs <;> rw [hs]
        · cases hexp : d.exposant with
          | nil => exact absurd hexp hne
          | cons c cs =>
              have hc := h.exposant c (by rw [hexp]; exact List.mem_cons_self)
              have hplus : c ≠ '+' := by
                rintro rfl
                cases hc
              have hmoins : c ≠ '-' := by
                rintro rfl
                cases hc
              simp [Json.signe, hplus, hmoins]
        · rfl
        · rfl
      simp [Json.exposant, hsigne, chiffres_append h.exposant hsuite.sansChiffre, hne]

theorem sansChiffre_exposant (d : Decimal) {suite : List Char} (hsuite : Clos suite) :
    SansChiffre (d.texteExposant ++ suite) := by
  unfold texteExposant
  split
  · exact hsuite.sansChiffre
  · exact rfl

theorem fraction_texte {d : Decimal} (h : d.Valide) {suite : List Char} (hsuite : Clos suite) :
    Json.fraction (d.texteFraction ++ (d.texteExposant ++ suite))
      = (d.texteFraction, d.texteExposant ++ suite) := by
  unfold texteFraction
  split
  · next hempty =>
      have hexp : d.exposant ≠ [] := h.flottant.resolve_left (not_not_intro hempty)
      simp [texteExposant, hexp, Json.fraction]
  · next hne =>
      simp [Json.fraction, chiffres_append h.decimales (d.sansChiffre_exposant hsuite), hne]

theorem sansChiffre_fraction (d : Decimal) {suite : List Char} (hsuite : Clos suite) :
    SansChiffre (d.texteFraction ++ (d.texteExposant ++ suite)) := by
  unfold texteFraction
  split
  · exact d.sansChiffre_exposant hsuite
  · exact rfl

theorem lireAtome_texte {d : Decimal} (h : d.Valide) {suite : List Char} (hsuite : Clos suite) :
    lireAtome (d.texte ++ suite) = some (flottant (String.ofList d.texte), suite) := by
  have hnonint : ¬(d.texteFraction = [] ∧ d.texteExposant = []) := by
    rintro ⟨hf, he⟩
    rcases h.flottant with hd | hd
    · simp [texteFraction, hd] at hf
    · simp [texteExposant, hd] at he
  have hassoc : d.texte ++ suite = (if d.negatif then ['-'] else [])
      ++ (d.entiere ++ (d.texteFraction ++ (d.texteExposant ++ suite))) := by
    simp [texte, List.append_assoc]
  rw [hassoc, lireAtome_nombre _ h.entiere, lireNombre,
    partieEntiere_append h.entiere (d.sansChiffre_fraction hsuite)]
  simp only [fraction_texte h hsuite, exposant_texte h hsuite, hnonint, if_false]
  simp [texte, List.append_assoc]

end Decimal

/-- The text of a float: a finite one, or one of the three words for the others. -/
def FlottantValide (t : String) : Prop :=
  t = "NaN" ∨ t = "Infinity" ∨ t = "-Infinity" ∨ ∃ d : Decimal, d.Valide ∧ t = String.ofList d.texte

theorem lireAtome_flottant {t : String} (h : FlottantValide t) {suite : List Char}
    (hsuite : Clos suite) : lireAtome (t.toList ++ suite) = some (flottant t, suite) := by
  rcases h with rfl | rfl | rfl | ⟨d, hd, rfl⟩
  · rfl
  · rfl
  · rfl
  · simpa using Decimal.lireAtome_texte hd hsuite

theorem hexa4_controle {n : Nat} (hn : n < 32) :
    hexa4 '0' '0' (Nat.digitChar (n / 16)) (Nat.digitChar (n % 16)) = some n := by
  have hall : ∀ n < 32,
      hexa4 '0' '0' (Nat.digitChar (n / 16)) (Nat.digitChar (n % 16)) = some n := by decide
  exact hall n hn

theorem lireTexte_barre {lettre c : Char} (suite : List Char) (h : desechapper lettre = some c) :
    lireTexte (barre :: lettre :: suite)
      = (lireTexte suite).map fun (debut, fin) => (c :: debut, fin) := by
  rw [lireTexte.eq_def]
  simp [h, show barre ≠ guillemet by decide]

theorem lireTexte_controle {c : Char} (suite : List Char) (hc : c.toNat < 32) :
    lireTexte (barre :: 'u' :: '0' :: '0' :: Nat.digitChar (c.toNat / 16)
        :: Nat.digitChar (c.toNat % 16) :: suite)
      = (lireTexte suite).map fun (debut, fin) => (c :: debut, fin) := by
  have hnone : desechapper 'u' = none := by decide
  have hvalid : c.toNat.isValidChar := by
    left
    omega
  rw [lireTexte.eq_def]
  simp [hnone, hexa4_controle hc, hvalid, show barre ≠ guillemet by decide]

theorem lireTexte_echapper (c : Char) (suite : List Char) :
    lireTexte (echapper c ++ suite)
      = (lireTexte suite).map fun (debut, fin) => (c :: debut, fin) := by
  have hchar : ∀ n, c.toNat = n → c = Char.ofNat n := by
    rintro n rfl
    exact (Char.ofNat_toNat c).symm
  unfold echapper
  dsimp only
  split_ifs with hquote hb ht hn hf hr hlow
  · apply lireTexte_barre
    rcases hquote with h | h <;> rw [hchar _ h] <;> decide
  · exact lireTexte_barre suite (by rw [hchar _ hb]; decide)
  · exact lireTexte_barre suite (by rw [hchar _ ht]; decide)
  · exact lireTexte_barre suite (by rw [hchar _ hn]; decide)
  · exact lireTexte_barre suite (by rw [hchar _ hf]; decide)
  · exact lireTexte_barre suite (by rw [hchar _ hr]; decide)
  · exact lireTexte_controle suite hlow
  · have hguillemet : c ≠ guillemet := by
      rintro rfl
      exact hquote (.inl (by decide))
    have hbarre : c ≠ barre := by
      rintro rfl
      exact hquote (.inr (by decide))
    rw [List.singleton_append, lireTexte.eq_def]
    simp [hguillemet, hbarre, hlow]

theorem lireTexte_ecrit (cs suite : List Char) :
    lireTexte (cs.flatMap echapper ++ guillemet :: suite) = some (cs, suite) := by
  induction cs with
  | nil =>
      rw [List.flatMap_nil, List.nil_append, lireTexte.eq_def]
      simp
  | cons c cs ih =>
      rw [List.flatMap_cons, List.append_assoc, lireTexte_echapper, ih]
      rfl

mutual

def Valide : Json → Prop
  | flottant t => FlottantValide t
  | tableau valeurs => ValeursValides valeurs
  | objet items => (items.map Prod.fst).Nodup ∧ ItemsValides items
  | _ => True

def ValeursValides : List Json → Prop
  | [] => True
  | v :: valeurs => Valide v ∧ ValeursValides valeurs

def ItemsValides : List (String × Json) → Prop
  | [] => True
  | item :: items => Valide item.2 ∧ ItemsValides items

end

/-- The first character of a number or of a word. -/
def TeteAtome (c : Char) : Prop := c.isDigit = true ∨ c ∈ ['-', 'n', 't', 'f', 'N', 'I']

theorem TeteAtome.ne {c d : Char} (h : TeteAtome c)
    (hd : d.isDigit = false ∧ d ∉ ['-', 'n', 't', 'f', 'N', 'I']) : c ≠ d := by
  rintro rfl
  rcases h with h | h
  · rw [hd.1] at h
    cases h
  · exact hd.2 h

theorem TeteAtome.nonBlanc {c : Char} (h : TeteAtome c) : estBlanc c = false := by
  have h₁ := h.ne (d := ' ') (by decide)
  have h₂ := h.ne (d := '\t') (by decide)
  have h₃ := h.ne (d := '\n') (by decide)
  have h₄ := h.ne (d := '\r') (by decide)
  simp [estBlanc, h₁, h₂, h₃, h₄]

theorem PartieEntiere.tete {ds : List Char} (h : PartieEntiere ds) :
    ∃ c cs, ds = c :: cs ∧ TeteAtome c := by
  cases hcons : ds with
  | nil => exact absurd hcons h.nonVide
  | cons c cs =>
      exact ⟨c, cs, rfl, .inl (h.chiffres c (by rw [hcons]; exact List.mem_cons_self))⟩

theorem ecrireEntier_tete (n : Int) : ∃ c cs, ecrireEntier n = c :: cs ∧ TeteAtome c := by
  unfold ecrireEntier
  split
  · exact ⟨'-', _, rfl, .inr (by decide)⟩
  · exact (partieEntiere_toDigits n.natAbs).tete

theorem flottant_tete {t : String} (h : FlottantValide t) :
    ∃ c cs, t.toList = c :: cs ∧ TeteAtome c := by
  rcases h with rfl | rfl | rfl | ⟨d, hd, rfl⟩
  · exact ⟨'N', _, rfl, .inr (by decide)⟩
  · exact ⟨'I', _, rfl, .inr (by decide)⟩
  · exact ⟨'-', _, rfl, .inr (by decide)⟩
  · obtain ⟨c, cs, hcons, hc⟩ := hd.entiere.tete
    rw [String.toList_ofList]
    unfold Decimal.texte
    cases d.negatif with
    | true => exact ⟨'-', _, rfl, .inr (by decide)⟩
    | false => exact ⟨c, cs ++ _, by rw [hcons]; rfl, hc⟩

theorem ecrire_tete {v : Json} (hv : Valide v) :
    ∃ c cs, ecrire v = c :: cs ∧ estBlanc c = false ∧ c ≠ ']' := by
  have hatome : ∀ {t : List Char}, (∃ c cs, t = c :: cs ∧ TeteAtome c) →
      ∃ c cs, t = c :: cs ∧ estBlanc c = false ∧ c ≠ ']' := by
    rintro t ⟨c, cs, hcons, hc⟩
    exact ⟨c, cs, hcons, hc.nonBlanc, hc.ne (by decide)⟩
  cases v with
  | null => exact ⟨'n', _, by rw [ecrire], by decide, by decide⟩
  | bool b => cases b <;> exact ⟨_, _, by rw [ecrire], by decide, by decide⟩
  | entier n =>
      rw [ecrire]
      exact hatome (ecrireEntier_tete n)
  | flottant t =>
      rw [ecrire]
      exact hatome (flottant_tete (by simpa [Valide] using hv))
  | texte s => exact ⟨guillemet, _, by rw [ecrire]; rfl, by decide, by decide⟩
  | tableau valeurs =>
      cases valeurs <;> exact ⟨'[', _, by rw [ecrire], by decide, by decide⟩
  | objet items =>
      rcases items with _ | ⟨⟨cle, v⟩, items⟩ <;>
        exact ⟨ouvrante, _, by rw [ecrire], by decide, by decide⟩

theorem sauter_cons {c : Char} (suite : List Char) (hc : estBlanc c = false) :
    sauter (c :: suite) = c :: suite := by
  simp [sauter, hc]

@[simp] theorem sauter_virgule (suite : List Char) : sauter (',' :: suite) = ',' :: suite :=
  sauter_cons suite (by decide)

@[simp] theorem sauter_deuxPoints (suite : List Char) : sauter (':' :: suite) = ':' :: suite :=
  sauter_cons suite (by decide)

@[simp] theorem sauter_crochet (suite : List Char) : sauter (']' :: suite) = ']' :: suite :=
  sauter_cons suite (by decide)

@[simp] theorem sauter_fermante (suite : List Char) :
    sauter (fermante :: suite) = fermante :: suite :=
  sauter_cons suite (by decide)

@[simp] theorem sauter_guillemet (suite : List Char) :
    sauter (guillemet :: suite) = guillemet :: suite :=
  sauter_cons suite (by decide)

@[simp] theorem sauter_blanc (suite : List Char) : sauter (' ' :: suite) = sauter suite := by
  simp [sauter, estBlanc]

theorem sauter_ecrire {v : Json} (hv : Valide v) (suite : List Char) :
    sauter (ecrire v ++ suite) = ecrire v ++ suite := by
  obtain ⟨c, cs, hcons, hc, -⟩ := ecrire_tete hv
  rw [hcons]
  exact sauter_cons _ hc

theorem lireValeur_atome {n : Nat} {c : Char} (suite : List Char) (hc : TeteAtome c) :
    lireValeur (n + 1) (c :: suite) = lireAtome (c :: suite) := by
  rw [lireValeur, if_neg (hc.ne (by decide)), if_neg (hc.ne (by decide)),
    if_neg (hc.ne (by decide))]

/-- The values of an array, without its brackets open. -/
def corpsValeurs : List Json → List Char
  | [] => []
  | v :: valeurs => ecrire v ++ ecrireValeurs valeurs

def corpsItems : List (String × Json) → List Char
  | [] => []
  | (cle, v) :: items => ecrireTexte cle ++ ':' :: ' ' :: (ecrire v ++ ecrireItems items)

theorem clos_ecrireValeurs (valeurs : List Json) (suite : List Char) :
    Clos (ecrireValeurs valeurs ++ suite) := by
  cases valeurs with
  | nil => exact .inr (.inl rfl)
  | cons v valeurs => exact .inl rfl

theorem clos_ecrireItems (items : List (String × Json)) (suite : List Char) :
    Clos (ecrireItems items ++ suite) := by
  rcases items with _ | ⟨⟨cle, v⟩, items⟩
  · exact .inr (.inr (.inl rfl))
  · exact .inl rfl

theorem length_ecrireValeurs_cons (v : Json) (valeurs : List Json) :
    (ecrireValeurs (v :: valeurs)).length = (corpsValeurs (v :: valeurs)).length + 2 := by
  simp [ecrireValeurs, corpsValeurs]

theorem length_ecrireItems_cons (item : String × Json) (items : List (String × Json)) :
    (ecrireItems (item :: items)).length = (corpsItems (item :: items)).length + 2 := by
  simp [ecrireItems, corpsItems]

theorem lireValeur_texte (s : String) (n : Nat) (suite : List Char) :
    lireValeur (n + 1) (ecrireTexte s ++ suite) = some (texte s, suite) := by
  have hcons : ecrireTexte s ++ suite
      = guillemet :: (s.toList.flatMap echapper ++ guillemet :: suite) := by
    simp [ecrireTexte]
  rw [hcons, lireValeur, if_pos rfl, lireTexte_ecrit]
  simp

mutual

theorem lireValeur_ecrire : (v : Json) → Valide v → ∀ (n : Nat) (suite : List Char), Clos suite →
    (ecrire v).length ≤ n → lireValeur n (ecrire v ++ suite) = some (v, suite)
  | v, hv, 0, suite, _, hn => by
      obtain ⟨c, cs, hcons, -⟩ := ecrire_tete hv
      simp [hcons] at hn
  | null, _, n + 1, suite, _, _ => by
      rw [ecrire, List.cons_append, lireValeur_atome _ (.inr (by decide))]
      rfl
  | bool true, _, n + 1, suite, _, _ => by
      rw [ecrire, List.cons_append, lireValeur_atome _ (.inr (by decide))]
      rfl
  | bool false, _, n + 1, suite, _, _ => by
      rw [ecrire, List.cons_append, lireValeur_atome _ (.inr (by decide))]
      rfl
  | entier k, _, n + 1, suite, hsuite, _ => by
      obtain ⟨c, cs, hcons, hc⟩ := ecrireEntier_tete k
      have hread := lireAtome_entier k hsuite
      rw [hcons, List.cons_append] at hread
      rw [ecrire, hcons, List.cons_append, lireValeur_atome _ hc, hread]
  | flottant t, hv, n + 1, suite, hsuite, _ => by
      have hvalid : FlottantValide t := by simpa [Valide] using hv
      obtain ⟨c, cs, hcons, hc⟩ := flottant_tete hvalid
      have hread := lireAtome_flottant hvalid hsuite
      rw [hcons, List.cons_append] at hread
      rw [ecrire, hcons, List.cons_append, lireValeur_atome _ hc, hread]
  | texte s, _, n + 1, suite, _, _ => by
      rw [ecrire]
      exact lireValeur_texte s n suite
  | tableau [], _, n + 1, suite, _, _ => by
      simp [ecrire, lireValeur, sauter, show estBlanc ']' = false by decide,
        show '[' ≠ guillemet by decide]
  | tableau (v :: valeurs), hv, n + 1, suite, _, hn => by
      have hvalid : ValeursValides (v :: valeurs) := by simpa [Valide] using hv
      obtain ⟨c, cs, hcons, hblanc, hfin⟩ :=
        ecrire_tete (v := v) (by simpa [ValeursValides] using hvalid.1)
      have hrec := lireValeurs_ecrit (v :: valeurs) (by simp) hvalid n suite
        (by simpa [ecrire, corpsValeurs] using hn)
      rw [corpsValeurs, hcons, List.cons_append, List.cons_append] at hrec
      rw [ecrire, hcons, List.cons_append, List.cons_append, List.cons_append, lireValeur,
        if_neg (by decide), if_pos rfl, sauter_cons _ hblanc]
      simp only [hfin, if_false, hrec, Option.map_some]
  | objet [], _, n + 1, suite, _, _ => by
      simp [ecrire, lireValeur, sauter, show estBlanc fermante = false by decide,
        show ouvrante ≠ guillemet by decide, show ouvrante ≠ '[' by decide]
  | objet ((cle, v) :: items), hv, n + 1, suite, _, hn => by
      have hvalid : (((cle, v) :: items).map Prod.fst).Nodup ∧
          ItemsValides ((cle, v) :: items) := by
        rwa [Valide] at hv
      have hrec := lireItems_ecrit ((cle, v) :: items) (by simp) hvalid.2 n suite
        (by simpa [ecrire, corpsItems] using hn)
      have htete : ∀ t, ecrireTexte cle ++ t
          = guillemet :: (cle.toList.flatMap echapper ++ [guillemet] ++ t) := fun t => rfl
      rw [corpsItems, List.append_assoc, htete] at hrec
      rw [ecrire, List.cons_append, List.append_assoc, htete, lireValeur, if_neg (by decide),
        if_neg (by decide), if_pos rfl, sauter_guillemet]
      simp only [show guillemet ≠ fermante by decide, if_false, hrec, Option.map_some]
      have hitems : ((cle, v) :: items).foldl (fun d item => Dict.set d item.1 item.2) [] =
          (cle, v) :: items :=
        Dict.update_append [] _ hvalid.1
      rw [hitems]

theorem lireValeurs_ecrit : (valeurs : List Json) → valeurs ≠ [] → ValeursValides valeurs →
    ∀ (n : Nat) (suite : List Char), (corpsValeurs valeurs).length ≤ n →
      lireValeurs n (corpsValeurs valeurs ++ suite) = some (valeurs, suite)
  | [], hne, _, _, _, _ => absurd rfl hne
  | v :: valeurs, _, hv, 0, suite, hn => by
      rw [ValeursValides] at hv
      obtain ⟨c, cs, hcons, -⟩ := ecrire_tete hv.1
      simp [corpsValeurs, hcons] at hn
  | v :: valeurs, _, hv, n + 1, suite, hn => by
      rw [ValeursValides] at hv
      have hpos : 0 < (ecrireValeurs valeurs).length := by cases valeurs <;> simp [ecrireValeurs]
      rw [corpsValeurs, List.length_append] at hn
      have htete := lireValeur_ecrire v hv.1 n _ (clos_ecrireValeurs valeurs suite) (by omega)
      rw [corpsValeurs, List.append_assoc, lireValeurs, htete]
      cases valeurs with
      | nil => simp [ecrireValeurs]
      | cons w valeurs =>
          rw [length_ecrireValeurs_cons] at hn
          have hrec := lireValeurs_ecrit (w :: valeurs) (by simp) hv.2 n suite (by omega)
          have hw : Valide w := by
            rw [ValeursValides] at hv
            exact hv.2.1
          rw [corpsValeurs, List.append_assoc] at hrec
          simp [ecrireValeurs, sauter_ecrire hw, hrec]

theorem lireItems_ecrit : (items : List (String × Json)) → items ≠ [] → ItemsValides items →
    ∀ (n : Nat) (suite : List Char), (corpsItems items).length ≤ n →
      lireItems n (corpsItems items ++ suite) = some (items, suite)
  | [], hne, _, _, _, _ => absurd rfl hne
  | (cle, v) :: items, _, _, 0, suite, hn => by simp [corpsItems, ecrireTexte] at hn
  | (cle, v) :: items, _, hv, n + 1, suite, hn => by
      rw [ItemsValides] at hv
      have hpos : 0 < (ecrireItems items).length := by cases items <;> simp [ecrireItems]
      simp only [corpsItems, List.length_append, List.length_cons] at hn
      have htete := lireValeur_ecrire v hv.1 n _ (clos_ecrireItems items suite) (by omega)
      have hcle : ∀ t, ecrireTexte cle ++ t
          = guillemet :: (cle.toList.flatMap echapper ++ guillemet :: t) := by
        intro t
        simp [ecrireTexte]
      rw [corpsItems, List.append_assoc, hcle, lireItems, lireTexte_ecrit]
      simp only [List.cons_append, List.append_assoc, sauter_deuxPoints, sauter_blanc,
        sauter_ecrire hv.1, htete]
      cases items with
      | nil => simp [ecrireItems]
      | cons item items =>
          rw [length_ecrireItems_cons] at hn
          have hrec := lireItems_ecrit (item :: items) (by simp) hv.2 n suite (by omega)
          obtain ⟨cle', w⟩ := item
          have hcle' : ∀ t, ecrireTexte cle' ++ t
              = guillemet :: (cle'.toList.flatMap echapper ++ guillemet :: t) := by
            intro t
            simp [ecrireTexte]
          rw [corpsItems, List.append_assoc, hcle'] at hrec
          simp only [List.cons_append, List.append_assoc] at hrec
          simp [ecrireItems, hcle', hrec, show ',' ≠ fermante by decide]

end

theorem lire_ecrire {v : Json} (hv : Valide v) : lire (ecrire v) = some v := by
  have htete := sauter_ecrire hv []
  have hread := lireValeur_ecrire v hv ((ecrire v).length + 1) [] trivial (by omega)
  rw [List.append_nil] at htete hread
  rw [lire, htete, hread]
  rfl

structure Ecriture where
  dumps : Json → String
  loads : String → Option Json
  loads_dumps : ∀ v, Valide v → loads (dumps v) = some v

/-- The one that escapes no letter outside ASCII. -/
def sansEchappement : Ecriture where
  dumps v := String.ofList (ecrire v)
  loads texte := lire texte.toList
  loads_dumps v hv := by rw [String.toList_ofList, lire_ecrire hv]

end Hermes.Lib.Json
