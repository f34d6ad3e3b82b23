import Hermes.Lib.Horodatage
import Hermes.Lib.Texte
import Hermes.Mission.Livrables
import Hermes.Mission.Snapshot

/-! # The journal of a project

The entries are written one after the other between rules, and read back by cutting the file at
every three dashes.
-/

namespace Hermes.Journal

open Lib.Texte Lib.Horodatage Planner.TaskDecomposer

abbrev Texte := List Char

def ENTREES_RELUES : Nat := 6

def EN_TETE : Texte :=
  ("# Journal des missions Hermes\n\n" ++
    "> Écrit automatiquement, **uniquement à partir de mesures** : diff du\n" ++
    "> workspace, verdict du manifeste, verdict des tests. Aucune ligne ne\n" ++
    "> vient du récit d'un modèle. Ce qui n'a pas été mesuré est écrit comme\n" ++
    "> non mesuré.\n").toList

def SEPARATEUR : Texte := ['\n', '-', '-', '-', '\n', '\n']

structure Tests where
  ran : Bool
  passed : Bool
  reason : String

structure Verification where
  measured : Bool
  contradicted : Bool
  created : List String
  modified : List String
  deleted : List String
  manifeste : Option Manifeste
  tests : Option Tests

def visibles (valeurs : List String) : List String := (Snapshot.trier valeurs).take 8

def liste (valeurs : List String) : Texte :=
  if valeurs = [] then "aucun".toList
  else
    [',', ' '].intercalate ((visibles valeurs).map String.toList) ++
      if 8 < valeurs.length then " (+".toList ++ Nat.toDigits 10 (valeurs.length - 8) ++ [')']
      else []

def ligneTests : Option Tests → Texte
  | none => "non lancés (aucun runner applicable)".toList
  | some tests =>
      if tests.ran then
        if tests.passed then "passés".toList else "**en échec**".toList
      else
        let raison := rogner tests.reason.toList
        "**non lancés** — ".toList ++ if raison = [] then "non exécuté".toList else raison

def ligneManifeste : Option Manifeste → Texte
  | none => "aucun livrable déclaré".toList
  | some m =>
      if m.tenu then
        Nat.toDigits 10 m.declares ++ " livrable(s) déclaré(s), tous présents".toList
      else
        "**".toList ++ Nat.toDigits 10 m.nombreManquants ++
          (" livrable(s) annoncé(s) et absent(s)** : ".toList ++ liste m.manquants)

/-- `strftime("%Y-%m-%d %H:%M UTC")`. -/
def horodatage (c : Lib.Champs) : Texte :=
  rempli 4 c.annee ++ '-' :: (rempli 2 c.mois ++ '-' :: (rempli 2 c.jour ++ ' ' ::
    (rempli 2 c.heure ++ ':' :: (rempli 2 c.minute ++ " UTC".toList))))

def NON_MESURE : Texte :=
  ("Rien n'a été mesuré pour cette mission (aucun workspace lié " ++
    "ou instantané impossible). Elle n'est **pas** rapportée " ++
    "comme réussie ici.").toList

def CONTREDITE : Texte :=
  ("> Cette mission s'est annoncée réussie et la mesure la " ++
    "contredit. Ne pas repartir de ses conclusions.").toList

structure Mission where
  quand : Lib.Champs
  objectif : String
  verification : Verification

def Mission.coupe (m : Mission) : Texte := (rogner m.objectif.toList).take 400

def lignes (m : Mission) : List Texte :=
  let v := m.verification
  ["## ".toList ++ horodatage m.quand, [], "**Objectif** : ".toList ++ m.coupe, []] ++
    if v.measured then
      ["- Créés : ".toList ++ liste v.created,
        "- Modifiés : ".toList ++ liste v.modified,
        "- Supprimés : ".toList ++ liste v.deleted,
        "- Manifeste : ".toList ++ ligneManifeste v.manifeste,
        "- Tests du livrable : ".toList ++ ligneTests v.tests,
        []] ++ if v.contradicted then [CONTREDITE, []] else []
    else [NON_MESURE, []]

def entree (m : Mission) : Texte := ['\n'].intercalate (lignes m)

def lire : Texte → Texte
  | '\r' :: '\n' :: cs => '\n' :: lire cs
  | '\r' :: cs => '\n' :: lire cs
  | c :: cs => c :: lire cs
  | [] => []

def ecrire (fichier : Option Texte) (m : Mission) : Texte :=
  (fichier.map lire).getD EN_TETE ++ SEPARATEUR ++ entree m

/-- `contenu.split("---")`. -/
def couper : Texte → List Texte
  | '-' :: '-' :: '-' :: cs => [] :: couper cs
  | c :: cs => (couper cs).modifyHead (c :: ·)
  | [] => [[]]

def blocs (contenu : Texte) : List Texte :=
  (((couper contenu).map rogner).filter (· ≠ [])).filter ("## ".toList.isPrefixOf ·)

def relire (fichier : Option Texte) : Option Texte :=
  match fichier with
  | none => none
  | some contenu =>
      let entrees := blocs (lire contenu)
      if entrees = [] then none
      else some (['\n', '\n'].intercalate (entrees.rtake ENTREES_RELUES))

def apres (h : List Mission) : Option Texte := h.foldl (fun f m => some (ecrire f m)) none

def attendu (h : List Mission) : Option Texte :=
  if h = [] then none
  else some (['\n', '\n'].intercalate ((h.rtake ENTREES_RELUES).map fun m => rogner (entree m)))

def SansRegle (t : Texte) : Prop := ¬['-', '-', '-'] <:+: t ∧ '\r' ∉ t

instance (t : Texte) : Decidable (SansRegle t) := inferInstanceAs (Decidable (_ ∧ _))

def nomsAbsents : Option Manifeste → List String
  | none => []
  | some m => if m.tenu then [] else visibles m.manquants

def raisons : Option Tests → List Texte
  | none => []
  | some tests => if tests.ran then [] else [rogner tests.reason.toList]

def Mission.textes (m : Mission) : List Texte :=
  let v := m.verification
  m.coupe ::
    if v.measured then
      (visibles v.created ++ visibles v.modified ++ visibles v.deleted ++
        nomsAbsents v.manifeste).map String.toList ++ raisons v.tests
    else []

section Textes

variable {a b p t : Texte} {c : Char}

theorem infix_append_cons_iff {l : Texte} (hc : c ∉ l) :
    l <:+: a ++ c :: b ↔ l <:+: a ∨ l <:+: b := by
  constructor
  · intro ⟨s, t, h⟩
    rw [List.append_assoc, List.append_eq_append_iff] at h
    cases h with
    | inl h =>
        obtain ⟨x, hx, hlt⟩ := h
        rw [List.append_eq_append_iff] at hlt
        cases hlt with
        | inl hlt =>
            obtain ⟨y, rfl, -⟩ := hlt
            exact Or.inl ⟨s, y, by rw [hx, List.append_assoc]⟩
        | inr hlt =>
            obtain ⟨y, rfl, hy⟩ := hlt
            cases y with
            | nil => exact Or.inl ⟨s, [], by rw [hx, List.append_nil, List.append_nil]⟩
            | cons d y =>
                cases hy
                simp at hc
    | inr h =>
        obtain ⟨x, rfl, hx⟩ := h
        cases x with
        | nil =>
            cases l with
            | nil => exact Or.inl (List.nil_infix)
            | cons d l =>
                cases hx
                simp at hc
        | cons d x =>
            cases hx
            exact Or.inr ⟨x, t, List.append_assoc _ _ _⟩
  · intro h
    cases h with
    | inl h => exact List.infix_append_of_infix_left h
    | inr h => exact List.infix_append_of_infix_right (List.infix_cons h)

theorem sansRegle_append_cons (hc : c ≠ '-') (hc' : c ≠ '\r') :
    SansRegle (a ++ c :: b) ↔ SansRegle a ∧ SansRegle b := by
  unfold SansRegle
  rw [infix_append_cons_iff (by simpa using hc)]
  simp only [List.mem_append, List.mem_cons, Ne.symm hc', false_or]
  tauto

theorem sansRegle_nil : SansRegle [] := by decide

theorem sansRegle_cons (hc : c ≠ '-') (hc' : c ≠ '\r') : SansRegle (c :: b) ↔ SansRegle b := by
  have h := sansRegle_append_cons (a := []) (b := b) hc hc'
  rwa [and_iff_right sansRegle_nil] at h

theorem neutre {t : Texte} (h : '-' ∉ t ∧ '\r' ∉ t) : ∀ c ∈ t, c ≠ '-' ∧ c ≠ '\r' := fun _ hc =>
  ⟨fun heq => h.1 (heq ▸ hc), fun heq => h.2 (heq ▸ hc)⟩

/-- A literal is checked on its list of characters: decoding it takes the kernel long. -/
theorem neutre_litteral {l : List Char} (h : l.all (fun c => c != '-' && c != '\r') = true) :
    ∀ c ∈ (String.ofList l).toList, c ≠ '-' ∧ c ≠ '\r' := by
  simpa using h

theorem neutre_enTete : ∀ c ∈ EN_TETE, c ≠ '-' ∧ c ≠ '\r' := by
  unfold EN_TETE
  simp only [String.toList_append, List.forall_mem_append]
  refine ⟨⟨⟨⟨?_, ?_⟩, ?_⟩, ?_⟩, ?_⟩ <;> exact neutre_litteral rfl

theorem neutre_contredite : ∀ c ∈ CONTREDITE, c ≠ '-' ∧ c ≠ '\r' := by
  unfold CONTREDITE
  simp only [String.toList_append, List.forall_mem_append]
  exact ⟨neutre_litteral rfl, neutre_litteral rfl⟩

theorem neutre_nonMesure : ∀ c ∈ NON_MESURE, c ≠ '-' ∧ c ≠ '\r' := by
  unfold NON_MESURE
  simp only [String.toList_append, List.forall_mem_append]
  exact ⟨⟨neutre_litteral rfl, neutre_litteral rfl⟩, neutre_litteral rfl⟩

theorem sansRegle_separe {sep : Texte} (hsep : ∀ c ∈ sep, c ≠ '-' ∧ c ≠ '\r') (hne : sep ≠ []) :
    SansRegle (a ++ (sep ++ b)) ↔ SansRegle a ∧ SansRegle b := by
  induction sep generalizing a with
  | nil => exact absurd rfl hne
  | cons c sep ih =>
      have hc := hsep c List.mem_cons_self
      rw [List.cons_append, sansRegle_append_cons hc.1 hc.2]
      by_cases hvide : sep = []
      · rw [hvide, List.nil_append]
      · have hsuite := ih (a := []) (fun d hd => hsep d (List.mem_cons_of_mem c hd)) hvide
        rw [List.nil_append, and_iff_right sansRegle_nil] at hsuite
        rw [hsuite]

theorem sansRegle_apres (hp : SansRegle p) (hfin : p.getLast? = some ' ') :
    SansRegle (p ++ t) ↔ SansRegle t := by
  obtain ⟨q, rfl⟩ := List.getLast?_eq_some_iff.mp hfin
  rw [List.append_assoc, List.singleton_append, sansRegle_append_cons (by decide) (by decide)]
  rw [sansRegle_append_cons (by decide) (by decide)] at hp
  exact and_iff_right hp.1

theorem sansRegle_of_neutre (ht : ∀ c ∈ t, c ≠ '-' ∧ c ≠ '\r') : SansRegle t := by
  induction t with
  | nil => exact sansRegle_nil
  | cons c t ih =>
      have hc := ht c List.mem_cons_self
      exact (sansRegle_cons hc.1 hc.2).mpr (ih fun d hd => ht d (List.mem_cons_of_mem c hd))

theorem sansRegle_intercalate {sep : Texte} {ts : List Texte}
    (hsep : ∀ c ∈ sep, c ≠ '-' ∧ c ≠ '\r') (hne : sep ≠ []) :
    SansRegle (sep.intercalate ts) ↔ ∀ t ∈ ts, SansRegle t := by
  induction ts with
  | nil => simp [sansRegle_nil]
  | cons t ts ih =>
      by_cases hts : ts = []
      · simp [hts]
      · rw [List.intercalate_cons_of_ne_nil hts, List.append_assoc, sansRegle_separe hsep hne, ih]
        simp

theorem neutre_of_isDigit (hc : c.isDigit = true) : c ≠ '-' ∧ c ≠ '\r' := by
  constructor <;>
  · intro heq
    rw [heq] at hc
    exact absurd hc (by decide)

theorem neutre_toDigits (n : Nat) : ∀ c ∈ Nat.toDigits 10 n, c ≠ '-' ∧ c ≠ '\r' := fun _ hc =>
  neutre_of_isDigit (Nat.isDigit_of_mem_toDigits (by decide) (by decide) hc)

theorem sansRegle_liste {valeurs : List String} :
    SansRegle (liste valeurs) ↔ ∀ s ∈ visibles valeurs, SansRegle s.toList := by
  unfold liste
  split
  · next hvide =>
      rw [hvide]
      exact iff_of_true (by decide) (fun s hs => nomatch hs)
  · have hnoms : SansRegle ([',', ' '].intercalate ((visibles valeurs).map String.toList)) ↔
        ∀ s ∈ visibles valeurs, SansRegle s.toList := by
      rw [sansRegle_intercalate (neutre (by decide)) (by decide)]
      simp
    split
    · have hcompte : SansRegle ('(' :: '+' :: (Nat.toDigits 10 (valeurs.length - 8) ++ [')'])) := by
        apply sansRegle_of_neutre
        intro c hc
        simp only [List.mem_cons, List.mem_append, List.not_mem_nil, or_false] at hc
        obtain rfl | rfl | hc | rfl := hc
        · decide
        · decide
        · exact neutre_toDigits _ c hc
        · decide
      change SansRegle (_ ++ ' ' :: '(' :: '+' :: (Nat.toDigits 10 (valeurs.length - 8) ++ [')'])) ↔ _
      rw [sansRegle_append_cons (by decide) (by decide), hnoms]
      exact and_iff_left hcompte
    · rw [List.append_nil, hnoms]

end Textes

section Entree

variable (m : Mission)

theorem sansRegle_ligneManifeste (manifeste : Option Manifeste) :
    SansRegle (ligneManifeste manifeste) ↔ ∀ s ∈ nomsAbsents manifeste, SansRegle s.toList := by
  cases manifeste with
  | none => exact iff_of_true (by decide) (fun s hs => nomatch hs)
  | some x =>
      unfold ligneManifeste nomsAbsents
      simp only
      split
      · refine iff_of_true ?_ (fun s hs => nomatch hs)
        apply sansRegle_of_neutre
        intro c hc
        rw [List.mem_append] at hc
        cases hc with
        | inl hc => exact neutre_toDigits _ c hc
        | inr hc =>
            exact neutre (by decide) c hc
      · have hcompte : SansRegle ("**".toList ++ Nat.toDigits 10 x.nombreManquants) := by
          apply sansRegle_of_neutre
          intro c hc
          rw [List.mem_append] at hc
          cases hc with
          | inl hc => exact neutre (by decide) c hc
          | inr hc => exact neutre_toDigits _ c hc
        rw [sansRegle_separe (neutre (by decide)) (by decide), and_iff_right hcompte, sansRegle_liste]

theorem sansRegle_ligneTests (tests : Option Tests) :
    SansRegle (ligneTests tests) ↔ ∀ t ∈ raisons tests, SansRegle t := by
  cases tests with
  | none => exact iff_of_true (by decide) (fun t ht => nomatch ht)
  | some x =>
      unfold ligneTests raisons
      simp only
      split
      · split <;> exact iff_of_true (by decide) (fun t ht => nomatch ht)
      · rw [sansRegle_apres (by decide) (by decide)]
        split
        · next hvide =>
            rw [hvide]
            decide
        · simp

theorem sansRegle_horodatage (c : Lib.Champs) : SansRegle (horodatage c) := by
  have hchiffre : ∀ k n, ∀ d ∈ rempli k n, d ≠ '-' ∧ d ≠ '\r' := by
    intro k n d hd
    induction k with
    | zero => cases hd
    | succ k ih =>
        cases hd with
        | head =>
            apply neutre_of_isDigit
            rw [Nat.isDigit_digitChar]
            exact decide_eq_true (Nat.mod_lt _ (by decide))
        | tail _ hd => exact ih hd
  have htiret : ∀ k n, (rempli k n).count '-' = 0 := fun k n =>
    List.count_eq_zero.mpr fun hmem => (hchiffre k n _ hmem).1 rfl
  constructor
  · intro hregle
    have hcompte := hregle.sublist.count_le '-'
    unfold horodatage at hcompte
    simp [htiret] at hcompte
  · intro hmem
    have hretour : ∀ k n, '\r' ∉ rempli k n := fun k n hmem => (hchiffre k n _ hmem).2 rfl
    unfold horodatage at hmem
    simp [hretour] at hmem

theorem sansRegle_entree : SansRegle (entree m) ↔ ∀ t ∈ m.textes, SansRegle t := by
  unfold entree
  rw [sansRegle_intercalate (neutre (by decide)) (by decide)]
  have hquand : SansRegle ("## ".toList ++ horodatage m.quand) :=
    (sansRegle_apres (by decide) (by decide)).mpr (sansRegle_horodatage _)
  have hobjectif : SansRegle ("**Objectif** : ".toList ++ m.coupe) ↔ SansRegle m.coupe :=
    sansRegle_apres (by decide) (by decide)
  have hfin : ∀ t ∈ (if m.verification.contradicted then [CONTREDITE, []] else []), SansRegle t := by
    split
    · exact List.forall_mem_cons.mpr ⟨sansRegle_of_neutre neutre_contredite,
        List.forall_mem_singleton.mpr sansRegle_nil⟩
    · exact fun t ht => nomatch ht
  unfold lignes Mission.textes
  simp only
  split
  · simp only [List.cons_append, List.nil_append, List.forall_mem_cons, sansRegle_nil, true_and, hquand,
      hobjectif, List.forall_mem_append, List.forall_mem_map]
    rw [sansRegle_apres (by decide) (by decide), sansRegle_apres (by decide) (by decide),
      sansRegle_apres (by decide) (by decide), sansRegle_apres (by decide) (by decide),
      sansRegle_apres (by decide) (by decide), sansRegle_liste, sansRegle_liste, sansRegle_liste,
      sansRegle_ligneManifeste, sansRegle_ligneTests, and_iff_left hfin]
    tauto
  · have habsente : SansRegle NON_MESURE := sansRegle_of_neutre neutre_nonMesure
    simp only [List.cons_append, List.nil_append, List.forall_mem_cons, sansRegle_nil, true_and, hquand,
      hobjectif, habsente]

end Entree

section Relecture

variable {s t : Texte} {b c : Char}

theorem lire_retour (cs : Texte) : '\r' ∉ lire cs := by
  fun_induction lire cs with
  | case1 cs ih => simpa using ih
  | case2 cs _ ih => simpa using ih
  | case3 c cs _ hc ih =>
      intro hmem
      cases hmem with
      | head => exact hc rfl
      | tail _ hmem => exact ih hmem
  | case4 => exact List.not_mem_nil

theorem lire_append (hs : '\r' ∉ s) (t : Texte) : lire (s ++ t) = s ++ lire t := by
  induction s with
  | nil => rfl
  | cons c s ih =>
      have hc : c ≠ '\r' := fun heq => hs (heq ▸ List.mem_cons_self)
      have hsuite := ih fun hmem => hs (List.mem_cons_of_mem c hmem)
      rw [List.cons_append, lire, hsuite]
      · rfl
      · intro _ heq
        exact absurd heq hc
      · intro heq
        exact absurd heq hc

theorem lire_self (hs : '\r' ∉ s) : lire s = s := by
  have h := lire_append hs []
  rwa [List.append_nil, lire, List.append_nil] at h

theorem couper_cons (hc : c ≠ '-') (s : Texte) :
    couper (c :: s) = (couper s).modifyHead (c :: ·) := by
  rw [couper]
  intro _ heq
  exact absurd heq hc

theorem couper_ne_nil (s : Texte) : couper s ≠ [] := by
  fun_induction couper s with
  | case1 cs ih => exact List.cons_ne_nil _ _
  | case2 c cs _ ih => cases h : couper cs <;> simp_all
  | case3 => exact List.cons_ne_nil _ _

theorem couper_append (s t : Texte) (hc : c ≠ '-') :
    couper (s ++ c :: '-' :: '-' :: '-' :: t) = couper (s ++ [c]) ++ couper t := by
  fun_induction couper s with
  | case1 cs ih => exact congrArg ([] :: ·) ih
  | case2 d cs hpas ih =>
      -- the dashes of the rule are not those of the text before
      have hloin : ∀ u v, d = '-' → cs ++ c :: u = '-' :: '-' :: v → False := by
        intro u v hd h
        match cs, hpas, h with
        | [], _, h => exact hc (List.cons.inj h).1
        | [e], _, h => exact hc (List.cons.inj (List.cons.inj h).2).1
        | e :: e' :: cs, hpas, h =>
            cases h
            exact hpas cs hd rfl
      rw [List.cons_append, couper, ih, List.cons_append, couper.eq_2 d (cs ++ [c])]
      · cases hcs : couper (cs ++ [c]) with
        | nil => exact absurd hcs (couper_ne_nil _)
        | cons v vs => rfl
      · exact hloin []
      · exact hloin _
  | case3 =>
      rw [List.nil_append, couper_cons hc, List.nil_append, couper_cons hc]
      rfl

theorem couper_sansRegle (h : ¬['-', '-', '-'] <:+: s) : couper s = [s] := by
  fun_induction couper s with
  | case1 cs ih => exact absurd (List.infix_append [] ['-', '-', '-'] cs) h
  | case2 c cs _ ih =>
      rw [ih fun hcs => h (List.infix_cons hcs)]
      rfl
  | case3 => rfl

theorem morceau_prefix (s : Texte) : ∀ u ∈ (couper s).head?, u <+: s := by
  fun_induction couper s with
  | case1 cs ih =>
      intro u hu
      cases hu
      exact List.nil_prefix
  | case2 c cs _ ih =>
      intro u hu
      cases hcs : couper cs with
      | nil => exact absurd hcs (couper_ne_nil cs)
      | cons v vs =>
          rw [hcs] at hu ih
          cases hu
          exact List.prefix_cons_iff.mpr (Or.inr ⟨v, rfl, ih v rfl⟩)
  | case3 =>
      intro u hu
      cases hu
      exact List.nil_prefix

theorem sansRegle_couper (hs : '\r' ∉ s) : ∀ u ∈ couper s, SansRegle u := by
  fun_induction couper s with
  | case1 cs ih =>
      intro u hu
      cases hu with
      | head => exact sansRegle_nil
      | tail _ hu => exact ih (by simp_all) u hu
  | case2 c cs hpas ih =>
      intro u hu
      have hcs := ih fun hmem => hs (List.mem_cons_of_mem c hmem)
      cases h : couper cs with
      | nil => exact absurd h (couper_ne_nil cs)
      | cons v vs =>
          rw [h] at hu hcs
          cases hu with
          | head =>
              constructor
              · rw [List.infix_cons_iff]
                intro hinfix
                cases hinfix with
                | inl htete =>
                    have hv := morceau_prefix cs v (by rw [h]; rfl)
                    obtain ⟨w, hw⟩ := htete.trans (List.cons_prefix_cons.mpr ⟨rfl, hv⟩)
                    cases hw
                    exact hpas w rfl rfl
                | inr hsuite => exact (hcs v List.mem_cons_self).1 hsuite
              · intro hmem
                cases hmem with
                | head => exact hs List.mem_cons_self
                | tail _ hmem => exact (hcs v List.mem_cons_self).2 hmem
          | tail _ hu => exact hcs u (List.mem_cons_of_mem v hu)
  | case3 =>
      intro u hu
      cases List.mem_singleton.mp hu
      exact sansRegle_nil

theorem rogner_dedans (s : Texte) : rogner s <:+: s :=
  (List.rdropWhile_prefix _ _).isInfix.trans (List.dropWhile_suffix _).isInfix

theorem SansRegle.dedans (ht : SansRegle t) (hs : s <:+: t) : SansRegle s :=
  ⟨fun h => ht.1 (h.trans hs), fun h => ht.2 (hs.subset h)⟩

end Relecture

section Entrees

variable (m : Mission)

theorem ligneTests_fin (tests : Option Tests) :
    ∃ u c, ligneTests tests = u ++ [c] ∧ estBlanc c = false := by
  have hfixe : ∀ (t : Texte) (c : Char), t.getLast? = some c → estBlanc c = false →
      ∃ u c, t = u ++ [c] ∧ estBlanc c = false := by
    intro t c ht hblanc
    obtain ⟨u, hu⟩ := List.getLast?_eq_some_iff.mp ht
    exact ⟨u, c, hu, hblanc⟩
  cases tests with
  | none => exact hfixe _ ')' (by decide) (by decide)
  | some x =>
      unfold ligneTests
      simp only
      split
      · split
        · exact hfixe _ 's' (by decide) (by decide)
        · exact hfixe _ '*' (by decide) (by decide)
      · split
        · exact hfixe _ 'é' (by decide) (by decide)
        · next hraison =>
            have hstrip : strip x.reason ≠ "" := by
              intro hvide
              rw [← toList_strip, hvide] at hraison
              exact hraison rfl
            obtain ⟨u, c, hu, hc⟩ := exists_of_strip hstrip
            rw [toList_strip] at hu
            exact ⟨_, c, by rw [hu, List.append_assoc], hc⟩

theorem fin_litteral {p : Texte} {l : List Char} {c : Char} (h : l.getLast? = some c) :
    ∃ u, p ++ (String.ofList l).toList = u ++ [c] := by
  obtain ⟨u, rfl⟩ := List.getLast?_eq_some_iff.mp h
  exact ⟨p ++ u, by rw [String.toList_ofList, List.append_assoc]⟩

theorem contredite_fin : ∃ u, CONTREDITE = u ++ ['.'] := by
  unfold CONTREDITE
  rw [String.toList_append]
  exact fin_litteral rfl

theorem nonMesure_fin : ∃ u, NON_MESURE = u ++ ['.'] := by
  unfold NON_MESURE
  rw [String.toList_append]
  exact fin_litteral rfl

theorem lignes_fin : ∃ (ls : List Texte) (u : Texte) (c : Char),
    lignes m = ("## ".toList ++ horodatage m.quand) :: (ls ++ [u ++ [c], []]) ∧
      estBlanc c = false := by
  unfold lignes
  simp only
  split
  · split
    · obtain ⟨u, hu⟩ := contredite_fin
      rw [hu]
      exact ⟨[_, _, _, _, _, _, _, _, _], u, '.', rfl, by decide⟩
    · obtain ⟨u, c, hu, hc⟩ := ligneTests_fin m.verification.tests
      rw [hu]
      exact ⟨[_, _, _, _, _, _, _], "- Tests du livrable : ".toList ++ u, c,
        by rw [← List.append_assoc]; rfl, hc⟩
  · obtain ⟨u, hu⟩ := nonMesure_fin
    rw [hu]
    exact ⟨[_, _, _], u, '.', rfl, by decide⟩

theorem intercalate_fin (ls : List Texte) (u : Texte) :
    ∃ w, ['\n'].intercalate (ls ++ [u, []]) = w ++ (u ++ ['\n']) := by
  induction ls with
  | nil => exact ⟨[], by simp⟩
  | cons l ls ih =>
      obtain ⟨w, hw⟩ := ih
      refine ⟨l ++ ['\n'] ++ w, ?_⟩
      rw [List.cons_append, List.intercalate_cons_of_ne_nil (by simp), hw]
      simp

theorem entree_forme : ∃ corps, entree m = corps ++ ['\n'] ∧ rogner (entree m) = corps ∧
    "## ".toList <+: corps := by
  obtain ⟨ls, u, c, hlignes, hc⟩ := lignes_fin m
  obtain ⟨w, hw⟩ := intercalate_fin (horodatage m.quand :: ls) (u ++ [c])
  have hentree : entree m = '#' :: '#' :: ' ' :: (w ++ u ++ [c]) ++ ['\n'] := by
    unfold entree
    rw [hlignes]
    change ['\n'].intercalate (('#' :: '#' :: ' ' :: horodatage m.quand) :: (ls ++ [u ++ [c], []])) = _
    rw [List.intercalate_cons_cons_left, List.intercalate_cons_cons_left,
      List.intercalate_cons_cons_left]
    rw [List.cons_append] at hw
    rw [hw]
    simp
  refine ⟨_, hentree, ?_, List.prefix_append _ _⟩
  have hfin : ('#' :: '#' :: ' ' :: (w ++ u ++ [c])) = ('#' :: '#' :: ' ' :: (w ++ u)) ++ [c] := rfl
  rw [hentree, rogner, List.cons_append, List.dropWhile_cons_of_neg (by decide), ← List.cons_append,
    List.rdropWhile_concat_pos _ _ _ (by decide), hfin, List.rdropWhile_concat_neg]
  rw [hc]
  exact Bool.false_ne_true

theorem sansRegle_rogner : SansRegle (rogner (entree m)) ↔ SansRegle (entree m) := by
  obtain ⟨corps, hentree, hrogner, -⟩ := entree_forme m
  rw [hrogner, hentree, sansRegle_append_cons (by decide) (by decide), and_iff_left sansRegle_nil]

theorem blocs_append (s t : Texte) :
    blocs (s ++ SEPARATEUR ++ t) = blocs (s ++ ['\n']) ++ blocs ('\n' :: '\n' :: t) := by
  unfold blocs SEPARATEUR
  rw [List.append_assoc]
  change List.filter _ (List.filter _ (List.map rogner
    (couper (s ++ '\n' :: '-' :: '-' :: '-' :: ('\n' :: '\n' :: t))))) = _
  rw [couper_append s _ (by decide), List.map_append, List.filter_append, List.filter_append]

theorem blocs_entree {m : Mission} {fin : Texte} (hm : SansRegle (entree m))
    (hfin : fin = [] ∨ fin = ['\n']) : blocs ('\n' :: '\n' :: (entree m ++ fin)) = [rogner (entree m)] := by
  obtain ⟨corps, hentree, hrogner, u, hu⟩ := entree_forme m
  have hcoupe : SansRegle ('\n' :: '\n' :: (entree m ++ fin)) := by
    rw [sansRegle_cons (by decide) (by decide), sansRegle_cons (by decide) (by decide)]
    cases hfin with
    | inl h => rwa [h, List.append_nil]
    | inr h =>
        rw [h, sansRegle_append_cons (by decide) (by decide)]
        exact ⟨hm, sansRegle_nil⟩
  have hblancs : rogner ('\n' :: '\n' :: (entree m ++ fin)) = rogner (entree m) := by
    unfold rogner
    rw [List.dropWhile_cons_of_pos (by decide), List.dropWhile_cons_of_pos (by decide)]
    cases hfin with
    | inl h => rw [h, List.append_nil]
    | inr h =>
        have hdebut : entree m = '#' :: (entree m).tail := by
          rw [hentree, ← hu]
          rfl
        rw [h, hdebut, List.cons_append, List.dropWhile_cons_of_neg (by decide),
          List.dropWhile_cons_of_neg (by decide), ← List.cons_append,
          List.rdropWhile_concat_pos _ _ _ (by decide)]
  have hvide : corps ≠ [] := by
    rw [← hu]
    exact List.cons_ne_nil _ _
  have hmarque : "## ".toList.isPrefixOf corps = true := List.isPrefixOf_iff_prefix.mpr ⟨u, hu⟩
  rw [blocs, couper_sansRegle hcoupe.1, List.map_singleton, hblancs, hrogner,
    List.filter_cons, if_pos (decide_eq_true hvide), List.filter_nil, List.filter_cons, if_pos hmarque,
    List.filter_nil]

theorem enTete_debut : ∃ t, EN_TETE = '#' :: ' ' :: t := by
  unfold EN_TETE
  simp only [String.toList_append, List.append_assoc]
  exact ⟨_, congrArg (· ++ _) (String.toList_ofList (l := _))⟩

/-- The header is no entry. -/
theorem blocs_enTete {fin : Texte} (hfin : fin = [] ∨ fin = ['\n']) : blocs (EN_TETE ++ fin) = [] := by
  have hneutre : ∀ c ∈ fin, c ≠ '-' ∧ c ≠ '\r' := by
    obtain rfl | rfl := hfin <;> exact neutre (by decide)
  have hregle : SansRegle (EN_TETE ++ fin) :=
    sansRegle_of_neutre (List.forall_mem_append.mpr ⟨neutre_enTete, hneutre⟩)
  obtain ⟨t, ht⟩ := enTete_debut
  rw [blocs, couper_sansRegle hregle.1, List.map_singleton]
  refine List.filter_eq_nil_iff.mpr fun u hu hmarque => ?_
  rw [List.mem_singleton.mp (List.mem_of_mem_filter hu), ht, rogner, List.cons_append,
    List.dropWhile_cons_of_neg (by decide)] at hmarque
  obtain ⟨v, hv⟩ := (List.isPrefixOf_iff_prefix.mp hmarque).trans (List.rdropWhile_prefix _ _)
  exact absurd (List.cons.inj (List.cons.inj hv).2).1 (by decide)

end Entrees

section Histoires

def texte (h : List Mission) : Texte :=
  h.foldl (fun t m => t ++ SEPARATEUR ++ lire (entree m)) EN_TETE

theorem texte_nil : texte [] = EN_TETE := List.foldl_nil

theorem texte_concat (h : List Mission) (m : Mission) :
    texte (h ++ [m]) = texte h ++ SEPARATEUR ++ lire (entree m) := by
  rw [texte, List.foldl_append]
  rfl

theorem texte_retour (h : List Mission) : '\r' ∉ texte h := by
  induction h using List.reverseRecOn with
  | nil =>
      rw [texte_nil]
      exact fun hmem => (neutre_enTete _ hmem).2 rfl
  | append_singleton h m ih =>
      rw [texte_concat, List.mem_append, List.mem_append]
      intro hmem
      obtain (hmem | hmem) | hmem := hmem
      · exact ih hmem
      · exact absurd hmem (by decide)
      · exact lire_retour _ hmem

theorem apres_concat (h : List Mission) (m : Mission) :
    apres (h ++ [m]) = some (texte h ++ SEPARATEUR ++ entree m) := by
  induction h using List.reverseRecOn generalizing m with
  | nil => rfl
  | append_singleton h m' ih =>
      have hlu : (apres (h ++ [m'])).map lire = some (texte (h ++ [m'])) := by
        have hretour : '\r' ∉ texte h ++ SEPARATEUR := by
          rw [List.mem_append, not_or]
          exact ⟨texte_retour h, by decide⟩
        rw [ih, Option.map_some, lire_append hretour, texte_concat]
      rw [apres, List.foldl_append]
      change some (ecrire (apres (h ++ [m'])) m) = _
      rw [ecrire, hlu]
      rfl

theorem relire_apres (h : List Mission) : relire (apres h) =
    if blocs (texte h) = [] then none
    else some (['\n', '\n'].intercalate ((blocs (texte h)).rtake ENTREES_RELUES)) := by
  induction h using List.reverseRecOn with
  | nil =>
      have hvide := blocs_enTete (Or.inl rfl)
      rw [List.append_nil, ← texte_nil] at hvide
      rw [if_pos hvide]
      rfl
  | append_singleton h m ih =>
      have hretour : '\r' ∉ texte h ++ SEPARATEUR := by
        rw [List.mem_append, not_or]
        exact ⟨texte_retour h, by decide⟩
      rw [apres_concat, relire, lire_append hretour, ← texte_concat]

theorem blocs_texte (avant recents : List Mission) (hr : ∀ m ∈ recents, SansRegle (entree m))
    {fin : Texte} (hfin : fin = [] ∨ fin = ['\n']) :
    ∃ anciens, blocs (texte (avant ++ recents) ++ fin) =
      anciens ++ recents.map (fun m => rogner (entree m)) ∧ (avant = [] → anciens = []) := by
  induction recents using List.reverseRecOn generalizing fin with
  | nil =>
      refine ⟨blocs (texte avant ++ fin), by rw [List.append_nil, List.map_nil, List.append_nil], ?_⟩
      rintro rfl
      rw [texte_nil]
      exact blocs_enTete hfin
  | append_singleton recents m ih =>
      obtain ⟨anciens, hblocs, hvide⟩ :=
        ih (fun x hx => hr x (List.mem_append_left _ hx)) (Or.inr rfl)
      have hm := hr m (by simp)
      refine ⟨anciens, ?_, hvide⟩
      rw [← List.append_assoc, texte_concat, List.append_assoc, blocs_append, hblocs, lire_self hm.2,
        blocs_entree hm hfin, List.map_append, List.append_assoc]
      rfl

theorem relire_of_sansRegle {h : List Mission}
    (hr : ∀ m ∈ h.rtake ENTREES_RELUES, SansRegle (entree m)) : relire (apres h) = attendu h := by
  have hh : h = h.take (h.length - ENTREES_RELUES) ++ h.rtake ENTREES_RELUES :=
    (List.take_append_drop _ _).symm
  obtain ⟨anciens, hblocs, hvide⟩ :=
    blocs_texte (h.take (h.length - ENTREES_RELUES)) _ hr
      (Or.inl rfl : ([] : Texte) = [] ∨ ([] : Texte) = ['\n'])
  rw [← hh, List.append_nil] at hblocs
  rw [relire_apres, attendu, hblocs]
  cases h with
  | nil =>
      rw [hvide rfl]
      rfl
  | cons m h =>
      have hne : (m :: h).rtake ENTREES_RELUES ≠ [] := by
        rw [List.rtake, Ne, List.drop_eq_nil_iff, List.length_cons, ENTREES_RELUES]
        omega
      have hderniers : (anciens ++ ((m :: h).rtake ENTREES_RELUES).map fun m => rogner (entree m)).rtake
          ENTREES_RELUES = ((m :: h).rtake ENTREES_RELUES).map fun m => rogner (entree m) := by
        by_cases hlong : (m :: h).length ≤ ENTREES_RELUES
        · rw [hvide (by rw [Nat.sub_eq_zero_of_le hlong, List.take_zero]), List.nil_append]
          unfold List.rtake
          rw [Nat.sub_eq_zero_of_le hlong, List.drop_zero, List.length_map,
            Nat.sub_eq_zero_of_le hlong, List.drop_zero]
        · have hsix : ((m :: h).rtake ENTREES_RELUES).length = ENTREES_RELUES := by
            rw [List.rtake, List.length_drop]
            omega
          rw [List.rtake, List.length_append, List.length_map, hsix, Nat.add_sub_cancel]
          exact List.drop_left' rfl
      rw [if_neg (by simp [hne]), if_neg (List.cons_ne_nil _ _), hderniers]

end Histoires

/-- The last entries are read back as they were rendered exactly when no text that one of them
holds has three dashes in a row or a carriage return. -/
theorem relire_iff (h : List Mission) :
    relire (apres h) = attendu h ↔
      ∀ m ∈ h.rtake ENTREES_RELUES, ∀ t ∈ m.textes, SansRegle t := by
  constructor
  · intro hrelire m hm
    rw [← sansRegle_entree, ← sansRegle_rogner]
    have hne : h ≠ [] := by
      rintro rfl
      cases hm
    rw [relire_apres, attendu, if_neg hne] at hrelire
    split at hrelire
    · cases hrelire
    · have hlus : SansRegle (['\n', '\n'].intercalate ((blocs (texte h)).rtake ENTREES_RELUES)) := by
        rw [sansRegle_intercalate (neutre (by decide)) (by decide)]
        intro t ht
        have hbloc := List.mem_of_mem_filter (List.mem_of_mem_filter (List.mem_of_mem_drop ht))
        obtain ⟨u, hu, rfl⟩ := List.mem_map.mp hbloc
        exact (sansRegle_couper (texte_retour h) u hu).dedans (rogner_dedans u)
      rw [Option.some.inj hrelire, sansRegle_intercalate (neutre (by decide)) (by decide)] at hlus
      exact hlus _ (List.mem_map_of_mem hm)
  · intro hr
    exact relire_of_sansRegle fun m hm => (sansRegle_entree m).mpr (hr m hm)

/-- The objective of a contradicted mission holds a rule: the warning is not read back. -/
theorem relire_regle :
    let v : Verification := ⟨true, true, [], [], [], none, none⟩
    let m : Mission := ⟨⟨2025, 1, 2, 10, 30, 0, 0, none⟩, "a\n---\nb", v⟩
    relire (apres [m]) = some "## 2025-01-02 10:30 UTC\n\n**Objectif** : a".toList ∧
      relire (apres [m]) ≠ attendu [m] := by
  intro v m
  have hlu : relire (apres [m]) = some "## 2025-01-02 10:30 UTC\n\n**Objectif** : a".toList := by
    have hblocs : blocs (texte [m]) = ["## 2025-01-02 10:30 UTC\n\n**Objectif** : a".toList] := by
      rw [← List.nil_append [m], texte_concat, texte_nil, blocs_append, blocs_enTete (Or.inr rfl)]
      decide +kernel
    rw [relire_apres, hblocs, if_neg (List.cons_ne_nil _ _)]
    exact congrArg some (List.append_nil _)
  refine ⟨hlu, fun h => ?_⟩
  rw [hlu] at h
  have hrendu : rogner (entree m) = "## 2025-01-02 10:30 UTC\n\n**Objectif** : a".toList :=
    (List.append_nil _).symm.trans (Option.some.inj h).symm
  have hregle := (sansRegle_rogner m).mp (hrendu ▸ by decide +kernel)
  exact absurd ((sansRegle_entree m).mp hregle m.coupe List.mem_cons_self) (by decide +kernel)

end Hermes.Journal
