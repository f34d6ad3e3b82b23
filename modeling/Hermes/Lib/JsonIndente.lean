import Hermes.Lib.JsonTexte

/-! # JSON texts laid out over several lines

A presentation says how the letters of a string are escaped and what blanks stand at the head of a
line of a given depth.
-/

namespace Hermes.Lib.Json

/-- How a text is laid out. The letters are read back, and the margins are blank. -/
structure Presentation where
  echapper : Char → List Char
  marge : Nat → List Char
  lue : ∀ c suite, lireTexte (echapper c ++ suite)
    = (lireTexte suite).map fun (debut, fin) => (c :: debut, fin)
  blanche : ∀ n, ∀ c ∈ marge n, estBlanc c = true

section Presenter

variable (p : Presentation)

def presenterTexte (s : String) : List Char :=
  guillemet :: (s.toList.flatMap p.echapper ++ [guillemet])

mutual

/-- The text of a value that stands at this depth. -/
def presenter : Nat → Json → List Char
  | _, null => ['n', 'u', 'l', 'l']
  | _, bool true => ['t', 'r', 'u', 'e']
  | _, bool false => ['f', 'a', 'l', 's', 'e']
  | _, entier n => ecrireEntier n
  | _, flottant chiffres => chiffres.toList
  | _, texte s => presenterTexte p s
  | _, tableau [] => ['[', ']']
  | n, tableau (v :: valeurs) =>
      '[' :: (p.marge (n + 1) ++ (presenter (n + 1) v ++ presenterValeurs n valeurs))
  | _, objet [] => [ouvrante, fermante]
  | n, objet ((cle, v) :: items) =>
      ouvrante :: (p.marge (n + 1) ++ (presenterTexte p cle
        ++ ':' :: ' ' :: (presenter (n + 1) v ++ presenterItems n items)))

/-- What follows a value of an array at this depth, to its end. -/
def presenterValeurs : Nat → List Json → List Char
  | n, [] => p.marge n ++ [']']
  | n, v :: valeurs =>
      ',' :: (p.marge (n + 1) ++ (presenter (n + 1) v ++ presenterValeurs n valeurs))

/-- What follows an item of an object at this depth, to its end. -/
def presenterItems : Nat → List (String × Json) → List Char
  | n, [] => p.marge n ++ [fermante]
  | n, (cle, v) :: items =>
      ',' :: (p.marge (n + 1) ++ (presenterTexte p cle
        ++ ':' :: ' ' :: (presenter (n + 1) v ++ presenterItems n items)))

end

end Presenter

section Lire

variable {p : Presentation}

theorem lireTexte_presente (cs suite : List Char) :
    lireTexte (cs.flatMap p.echapper ++ guillemet :: suite) = some (cs, suite) := by
  induction cs with
  | nil =>
      rw [List.flatMap_nil, List.nil_append, lireTexte.eq_def]
      simp
  | cons c cs ih =>
      rw [List.flatMap_cons, List.append_assoc, p.lue, ih]
      rfl

theorem presenterTexte_append (s : String) (suite : List Char) :
    presenterTexte p s ++ suite
      = guillemet :: (s.toList.flatMap p.echapper ++ guillemet :: suite) := by
  simp [presenterTexte]

theorem sauter_append {blancs : List Char} (h : ∀ c ∈ blancs, estBlanc c = true)
    (suite : List Char) : sauter (blancs ++ suite) = sauter suite := by
  induction blancs with
  | nil => rfl
  | cons c blancs ih =>
      have hc := h c List.mem_cons_self
      have hrec := ih fun d hd => h d (List.mem_cons_of_mem c hd)
      simpa [sauter, hc] using hrec

@[simp] theorem sauter_marge (n : Nat) (suite : List Char) :
    sauter (p.marge n ++ suite) = sauter suite :=
  sauter_append (p.blanche n) suite

theorem clos_marge (n : Nat) {suite : List Char} (h : Clos suite) :
    Clos (p.marge n ++ suite) := by
  cases hcons : p.marge n with
  | nil => exact h
  | cons c blancs =>
      exact .inr (.inr (.inr (p.blanche n c (by rw [hcons]; exact List.mem_cons_self))))

theorem presenter_tete {v : Json} (hv : Valide v) (n : Nat) :
    ∃ c cs, presenter p n v = c :: cs ∧ estBlanc c = false ∧ c ≠ ']' := by
  cases v with
  | null => simpa only [presenter, ecrire] using ecrire_tete hv
  | bool b => cases b <;> simpa only [presenter, ecrire] using ecrire_tete hv
  | entier k => simpa only [presenter, ecrire] using ecrire_tete hv
  | flottant t => simpa only [presenter, ecrire] using ecrire_tete hv
  | texte s => exact ⟨guillemet, _, by rw [presenter]; rfl, by decide, by decide⟩
  | tableau valeurs =>
      cases valeurs <;> exact ⟨'[', _, by rw [presenter], by decide, by decide⟩
  | objet items =>
      rcases items with _ | ⟨⟨cle, v⟩, items⟩ <;>
        exact ⟨ouvrante, _, by rw [presenter], by decide, by decide⟩

theorem sauter_presenter {v : Json} (hv : Valide v) (n : Nat) (suite : List Char) :
    sauter (presenter p n v ++ suite) = presenter p n v ++ suite := by
  obtain ⟨c, cs, hcons, hc, -⟩ := presenter_tete (p := p) hv n
  rw [hcons]
  exact sauter_cons _ hc

theorem sauter_presenterTexte (s : String) (suite : List Char) :
    sauter (presenterTexte p s ++ suite) = presenterTexte p s ++ suite :=
  sauter_guillemet _

variable (p)

/-- The values of an array, without its bracket nor the margin of the first one. -/
def corpsPresente (n : Nat) : List Json → List Char
  | [] => []
  | v :: valeurs => presenter p (n + 1) v ++ presenterValeurs p n valeurs

def corpsItemsPresente (n : Nat) : List (String × Json) → List Char
  | [] => []
  | (cle, v) :: items =>
      presenterTexte p cle ++ ':' :: ' ' :: (presenter p (n + 1) v ++ presenterItems p n items)

variable {p}

theorem presenterValeurs_cons (n : Nat) (v : Json) (valeurs : List Json) :
    presenterValeurs p n (v :: valeurs)
      = ',' :: (p.marge (n + 1) ++ corpsPresente p n (v :: valeurs)) := by
  rw [presenterValeurs, corpsPresente]

theorem presenterItems_cons (n : Nat) (item : String × Json) (items : List (String × Json)) :
    presenterItems p n (item :: items)
      = ',' :: (p.marge (n + 1) ++ corpsItemsPresente p n (item :: items)) := by
  rw [presenterItems, corpsItemsPresente]

theorem clos_presenterValeurs (n : Nat) (valeurs : List Json) (suite : List Char) :
    Clos (presenterValeurs p n valeurs ++ suite) := by
  cases valeurs with
  | nil =>
      rw [presenterValeurs, List.append_assoc]
      exact clos_marge n (.inr (.inl rfl))
  | cons v valeurs =>
      rw [presenterValeurs_cons]
      exact .inl rfl

theorem clos_presenterItems (n : Nat) (items : List (String × Json)) (suite : List Char) :
    Clos (presenterItems p n items ++ suite) := by
  cases items with
  | nil =>
      rw [presenterItems, List.append_assoc]
      exact clos_marge n (.inr (.inr (.inl rfl)))
  | cons item items =>
      rw [presenterItems_cons]
      exact .inl rfl

theorem presenterValeurs_pos (n : Nat) (valeurs : List Json) :
    0 < (presenterValeurs p n valeurs).length := by
  cases valeurs <;> simp [presenterValeurs]

theorem presenterItems_pos (n : Nat) (items : List (String × Json)) :
    0 < (presenterItems p n items).length := by
  cases items <;> simp [presenterItems]

theorem sauter_corpsItems (n : Nat) (item : String × Json) (items : List (String × Json))
    (suite : List Char) :
    sauter (corpsItemsPresente p n (item :: items) ++ suite)
      = corpsItemsPresente p n (item :: items) ++ suite := by
  rw [corpsItemsPresente, List.append_assoc, sauter_presenterTexte]

mutual

theorem lireValeur_presenter : (v : Json) → Valide v → ∀ (d n : Nat) (suite : List Char),
    Clos suite → (presenter p d v).length ≤ n →
      lireValeur n (presenter p d v ++ suite) = some (v, suite)
  | v, hv, d, 0, suite, _, hn => by
      obtain ⟨c, cs, hcons, -⟩ := presenter_tete (p := p) hv d
      simp [hcons] at hn
  | null, hv, d, n + 1, suite, hsuite, hn => by
      rw [presenter] at hn ⊢
      exact lireValeur_ecrire null hv (n + 1) suite hsuite hn
  | bool true, hv, d, n + 1, suite, hsuite, hn => by
      rw [presenter] at hn ⊢
      exact lireValeur_ecrire (bool true) hv (n + 1) suite hsuite hn
  | bool false, hv, d, n + 1, suite, hsuite, hn => by
      rw [presenter] at hn ⊢
      exact lireValeur_ecrire (bool false) hv (n + 1) suite hsuite hn
  | entier k, hv, d, n + 1, suite, hsuite, hn => by
      rw [presenter] at hn ⊢
      exact lireValeur_ecrire (entier k) hv (n + 1) suite hsuite hn
  | flottant t, hv, d, n + 1, suite, hsuite, hn => by
      rw [presenter] at hn ⊢
      exact lireValeur_ecrire (flottant t) hv (n + 1) suite hsuite hn
  | texte s, _, d, n + 1, suite, _, _ => by
      rw [presenter, presenterTexte_append, lireValeur, if_pos rfl, lireTexte_presente]
      simp
  | tableau [], hv, d, n + 1, suite, hsuite, hn => by
      rw [presenter] at hn ⊢
      exact lireValeur_ecrire (tableau []) hv (n + 1) suite hsuite hn
  | tableau (v :: valeurs), hv, d, n + 1, suite, _, hn => by
      have hvalid : ValeursValides (v :: valeurs) := by simpa [Valide] using hv
      have hv' : Valide v := by
        rw [ValeursValides] at hvalid
        exact hvalid.1
      obtain ⟨c, cs, hcons, hblanc, hfin⟩ := presenter_tete (p := p) hv' (d + 1)
      have hlength : (corpsPresente p d (v :: valeurs)).length ≤ n := by
        simp only [presenter, corpsPresente, List.length_append, List.length_cons] at hn ⊢
        omega
      have hrec := lireValeurs_presentes (v :: valeurs) (by simp) hvalid d n suite hlength
      rw [corpsPresente, hcons, List.cons_append, List.cons_append] at hrec
      rw [presenter, hcons, List.cons_append, List.append_assoc, lireValeur, if_neg (by decide),
        if_pos rfl, sauter_marge, List.cons_append, List.cons_append, sauter_cons _ hblanc]
      simp only [hfin, if_false, hrec, Option.map_some]
  | objet [], hv, d, n + 1, suite, hsuite, hn => by
      rw [presenter] at hn ⊢
      exact lireValeur_ecrire (objet []) hv (n + 1) suite hsuite hn
  | objet ((cle, v) :: items), hv, d, n + 1, suite, _, hn => by
      have hvalid : (((cle, v) :: items).map Prod.fst).Nodup ∧
          ItemsValides ((cle, v) :: items) := by
        rwa [Valide] at hv
      have hlength : (corpsItemsPresente p d ((cle, v) :: items)).length ≤ n := by
        simp only [presenter, corpsItemsPresente, List.length_append, List.length_cons] at hn ⊢
        omega
      have hrec := lireItems_presentes ((cle, v) :: items) (by simp) hvalid.2 d n suite hlength
      rw [corpsItemsPresente, List.append_assoc, presenterTexte_append] at hrec
      rw [presenter, List.cons_append, List.append_assoc, lireValeur, if_neg (by decide),
        if_neg (by decide), if_pos rfl, sauter_marge, List.append_assoc, presenterTexte_append,
        sauter_guillemet]
      simp only [show guillemet ≠ fermante by decide, if_false, hrec, Option.map_some]
      have hitems : ((cle, v) :: items).foldl (fun d item => Dict.set d item.1 item.2) [] =
          (cle, v) :: items :=
        Dict.update_append [] _ hvalid.1
      rw [hitems]

theorem lireValeurs_presentes : (valeurs : List Json) → valeurs ≠ [] → ValeursValides valeurs →
    ∀ (d n : Nat) (suite : List Char), (corpsPresente p d valeurs).length ≤ n →
      lireValeurs n (corpsPresente p d valeurs ++ suite) = some (valeurs, suite)
  | [], hne, _, _, _, _, _ => absurd rfl hne
  | v :: valeurs, _, hv, d, 0, suite, hn => by
      rw [ValeursValides] at hv
      obtain ⟨c, cs, hcons, -⟩ := presenter_tete (p := p) hv.1 (d + 1)
      simp [corpsPresente, hcons] at hn
  | v :: valeurs, _, hv, d, n + 1, suite, hn => by
      rw [ValeursValides] at hv
      have hpos := presenterValeurs_pos (p := p) d valeurs
      rw [corpsPresente, List.length_append] at hn
      have htete := lireValeur_presenter v hv.1 (d + 1) n _
        (clos_presenterValeurs (p := p) d valeurs suite) (by omega)
      rw [corpsPresente, List.append_assoc, lireValeurs, htete]
      cases valeurs with
      | nil => simp [presenterValeurs]
      | cons w valeurs =>
          rw [presenterValeurs_cons, List.length_cons, List.length_append] at hn
          have hrec := lireValeurs_presentes (w :: valeurs) (by simp) hv.2 d n suite (by omega)
          have hw : Valide w := by
            rw [ValeursValides] at hv
            exact hv.2.1
          rw [corpsPresente, List.append_assoc] at hrec
          simp [presenterValeurs, sauter_presenter hw, hrec]

theorem lireItems_presentes : (items : List (String × Json)) → items ≠ [] →
    ItemsValides items → ∀ (d n : Nat) (suite : List Char),
      (corpsItemsPresente p d items).length ≤ n →
        lireItems n (corpsItemsPresente p d items ++ suite) = some (items, suite)
  | [], hne, _, _, _, _, _ => absurd rfl hne
  | (cle, v) :: items, _, _, d, 0, suite, hn => by
      simp [corpsItemsPresente, presenterTexte] at hn
  | (cle, v) :: items, _, hv, d, n + 1, suite, hn => by
      rw [ItemsValides] at hv
      have hpos := presenterItems_pos (p := p) d items
      simp only [corpsItemsPresente, List.length_append, List.length_cons] at hn
      have htete := lireValeur_presenter v hv.1 (d + 1) n _
        (clos_presenterItems (p := p) d items suite) (by omega)
      rw [corpsItemsPresente, List.append_assoc, presenterTexte_append, lireItems,
        lireTexte_presente]
      simp only [List.cons_append, List.append_assoc, sauter_deuxPoints, sauter_blanc,
        sauter_presenter hv.1, htete]
      cases items with
      | nil => simp [presenterItems]
      | cons item items =>
          rw [presenterItems_cons, List.length_cons, List.length_append] at hn
          have hrec := lireItems_presentes (item :: items) (by simp) hv.2 d n suite (by omega)
          simp [presenterItems_cons, sauter_corpsItems, hrec, show ',' ≠ fermante by decide]

end

theorem lire_presenter {v : Json} (hv : Valide v) : lire (presenter p 0 v) = some v := by
  have htete := sauter_presenter (p := p) hv 0 []
  have hread := lireValeur_presenter (p := p) v hv 0 ((presenter p 0 v).length + 1) [] trivial
    (by omega)
  rw [List.append_nil] at htete hread
  rw [lire, htete, hread]
  rfl

end Lire

/-- `\uXXXX`, without its bar and its letter. -/
def hexas (n : Nat) : List Char :=
  [Nat.digitChar (n / 4096 % 16), Nat.digitChar (n / 256 % 16), Nat.digitChar (n / 16 % 16),
    Nat.digitChar (n % 16)]

/-- One character, when only the letters of ASCII are written as they are. -/
def echapperAscii (c : Char) : List Char :=
  let n := c.toNat
  if n < 127 then echapper c
  else if n < 0x10000 then barre :: 'u' :: hexas n
  else
    let haut := 0xd800 + (n - 0x10000) / 0x400
    let bas := 0xdc00 + (n - 0x10000) % 0x400
    barre :: 'u' :: (hexas haut ++ barre :: 'u' :: hexas bas)

theorem hexa_digitChar {n : Nat} (h : n < 16) : hexa (Nat.digitChar n) = some n := by
  have hall : ∀ n < 16, hexa (Nat.digitChar n) = some n := by decide
  exact hall n h

theorem hexa4_hexas {n : Nat} (h : n < 0x10000) :
    hexa4 (Nat.digitChar (n / 4096 % 16)) (Nat.digitChar (n / 256 % 16))
      (Nat.digitChar (n / 16 % 16)) (Nat.digitChar (n % 16)) = some n := by
  have hsomme : ((n / 4096 % 16 * 16 + n / 256 % 16) * 16 + n / 16 % 16) * 16 + n % 16 = n := by
    omega
  simp [hexa4, hexa_digitChar (Nat.mod_lt _ (by decide : 0 < 16)), hsomme]

theorem lireTexte_hexas {n : Nat} (hn : n < 0x10000) (hvalid : n.isValidChar)
    (suite : List Char) :
    lireTexte (barre :: 'u' :: (hexas n ++ suite))
      = (lireTexte suite).map fun (debut, fin) => (Char.ofNat n :: debut, fin) := by
  have hnone : desechapper 'u' = none := by decide
  rw [lireTexte.eq_def]
  simp [hexas, hnone, hexa4_hexas hn, hvalid, show barre ≠ guillemet by decide]

theorem lireTexte_paire {n : Nat} (hn : n < 0x100000) (suite : List Char) :
    lireTexte (barre :: 'u' :: (hexas (0xd800 + n / 0x400)
        ++ (barre :: 'u' :: hexas (0xdc00 + n % 0x400)) ++ suite))
      = (lireTexte suite).map fun (debut, fin) => (Char.ofNat (0x10000 + n) :: debut, fin) := by
  have hnone : desechapper 'u' = none := by decide
  have hhaut : ¬(0xd800 + n / 0x400).isValidChar := by
    simp only [Nat.isValidChar]
    omega
  have hjumeler : jumeler (0xd800 + n / 0x400) (0xdc00 + n % 0x400)
      = some (Char.ofNat (0x10000 + n)) := by
    have hsomme : 0x10000 + (0xd800 + n / 0x400 - 0xd800) * 0x400
        + (0xdc00 + n % 0x400 - 0xdc00) = 0x10000 + n := by omega
    rw [jumeler, if_pos (by omega), hsomme]
  rw [lireTexte.eq_def]
  simp [hexas, hnone, hexa4_hexas (show 0xd800 + n / 0x400 < 0x10000 by omega),
    hexa4_hexas (show 0xdc00 + n % 0x400 < 0x10000 by omega), hhaut, hjumeler,
    show barre ≠ guillemet by decide]

theorem lireTexte_echapperAscii (c : Char) (suite : List Char) :
    lireTexte (echapperAscii c ++ suite)
      = (lireTexte suite).map fun (debut, fin) => (c :: debut, fin) := by
  have hvalid : c.toNat.isValidChar := c.valid
  unfold echapperAscii
  dsimp only
  split_ifs with hascii hcourt
  · exact lireTexte_echapper c suite
  · have hread := lireTexte_hexas hcourt hvalid suite
    rwa [Char.ofNat_toNat] at hread
  · have hborne : c.toNat - 0x10000 < 0x100000 := by
      simp only [Nat.isValidChar] at hvalid
      omega
    have hread := lireTexte_paire hborne suite
    rw [show 0x10000 + (c.toNat - 0x10000) = c.toNat by omega, Char.ofNat_toNat] at hread
    simpa using hread

/-- `json.dumps(v, indent=k)`: each line starts with `k` blanks a level. -/
def indente (k : Nat) : Presentation where
  echapper := echapperAscii
  marge n := '\n' :: List.replicate (k * n) ' '
  lue := lireTexte_echapperAscii
  blanche n c hc := by
    rcases List.mem_cons.mp hc with rfl | hc
    · rfl
    · rw [List.eq_of_mem_replicate hc]
      rfl

def dumpsIndente (k : Nat) (v : Json) : String := String.ofList (presenter (indente k) 0 v)

theorem lire_dumpsIndente (k : Nat) {v : Json} (hv : Valide v) :
    lire (dumpsIndente k v).toList = some v := by
  rw [dumpsIndente, String.toList_ofList, lire_presenter hv]

example : dumpsIndente 2 (.objet [("é", .tableau [.entier 1])])
    = "\x7b\n  \"\\u00e9\": [\n    1\n  ]\n\x7d" := by decide

/-- `json.dumps(v, indent=k, ensure_ascii=False)`: the letters outside ASCII stand as they are. -/
def indenteBrut (k : Nat) : Presentation where
  echapper := echapper
  marge := (indente k).marge
  lue := lireTexte_echapper
  blanche := (indente k).blanche

def dumpsIndenteBrut (k : Nat) (v : Json) : String :=
  String.ofList (presenter (indenteBrut k) 0 v)

theorem lire_dumpsIndenteBrut (k : Nat) {v : Json} (hv : Valide v) :
    lire (dumpsIndenteBrut k v).toList = some v := by
  rw [dumpsIndenteBrut, String.toList_ofList, lire_presenter hv]

end Hermes.Lib.Json
