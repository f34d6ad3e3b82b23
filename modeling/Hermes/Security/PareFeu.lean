import Hermes.Core.AuditLog
import Hermes.Lib.Dict

/-! # What may leave for a third party

A firewall between the prompts and a remote runtime.
-/

namespace Hermes.PareFeu

open Lib Lib.Rationnelle Lib.Rationnelle.Regex Lib.Remplacement AuditLog

def JETON_WORKSPACE : String := "<WORKSPACE>"

def JETON_CAVIARDE : String := "[CAVIARDÉ]"

inductive Sensibilite where
  | interne
  | secret
  deriving DecidableEq

inductive Verdict where
  | autorise
  | caviarde
  | approbation
  | refuse
  deriving DecidableEq

inductive PolitiqueCloud where
  | caviarder
  | jamais
  | approbation
  deriving DecidableEq

structure Constat where
  motif : String
  sensibilite : Sensibilite
  fragment : String
  apercu : String := ""
  deriving DecidableEq

structure Message where
  role : String
  content : Option String
  autres : Dict String String := []
  deriving DecidableEq

structure Decision where
  verdict : Verdict
  messages : List Message := []
  constats : List Constat := []
  raison : String := ""
  deriving DecidableEq

def separateur (c : Char) : Bool := c = '\\' || c = '/'

/-- A character of the name of a folder, apart from its separators. -/
def nomDeDossier (c : Char) : Bool := !(Texte.estBlanc c || c = '\'' || c = '"')

def RACINES : List Regex :=
  [enSuite [car lettre, car (· = ':'), repete 1 separateur, mots "users", repete 1 separateur,
      repete 1 fun c => nomDeDossier c && !separateur c],
    enSuite [litteral "/home/", repete 1 fun c => nomDeDossier c && c ≠ '/'],
    enSuite [litteral "/Users/", repete 1 fun c => nomDeDossier c && c ≠ '/']]

section Examen

variable (u : Caracteres)

def courriel : Regex :=
  enSuite [repete 1 fun c => u.mot c || c = '.' || c = '+' || c = '-', car (· = '@'),
    repete 1 fun c => u.mot c || c = '-', car (· = '.'),
    repete 2 fun c => u.mot c || c = '.' || c = '-']

/-- `\d{1,3}`. -/
def octet : Regex := entre 1 3 (car u.chiffre)

def adressePrivee : Regex :=
  parmi [enSuite [litteral "10.", octet u, litteral ".", octet u, litteral ".", octet u],
    enSuite [litteral "192.168.", octet u, litteral ".", octet u],
    enSuite [litteral "172.", parmi [suite (car (· = '1')) (car fun c => c ∈ "6789".toList),
      suite (car (· = '2')) (car u.chiffre), suite (car (· = '3')) (car fun c => c ∈ "01".toList)],
      litteral ".", octet u, litteral ".", octet u]]

def entier (r : Regex) : Regex := enSuite [limite, r, limite]

def COURRIEL : Chercheur := motif u (entier (courriel u)) JETON_CAVIARDE

def ADRESSE_PRIVEE : Chercheur := motif u (entier (adressePrivee u)) JETON_CAVIARDE

def finditer (f : Chercheur) (texte : List Char) : List (Nat × Nat) := trouver f 0 0 none texte

def apercu (texte : List Char) (span : Nat × Nat) : String :=
  let gauche := (texte.take span.1).drop (span.1 - 24)
  let droite := (texte.drop span.2).take 24
  let extrait := redact u
    ("…" ++ String.ofList gauche ++ JETON_CAVIARDE ++ String.ofList droite ++ "…")
  extrait.map fun c => if c = '\n' then ' ' else c

/-- The root without the separators that end it. -/
def sansSeparateurs (racine : List Char) : List Char := racine.rdropWhile separateur

def barres (racine : List Char) : List Char := racine.map fun c => if c = '\\' then '/' else c

def doublees (racine : List Char) : List Char :=
  racine.flatMap fun c => if c = '\\' then ['\\', '\\'] else [c]

/-- The longest spelling first. Two spellings of one length come in the order of a set. -/
def variantes (barresDAbord : Bool) (racine : List Char) : List (List Char) :=
  (doublees racine ::
    if barresDAbord then [barres racine, racine] else [racine, barres racine]).eraseDups

abbrev Etat := List Char × List Constat

def constatDeRacine (nom : String) : Constat where
  motif := "racine de workspace"
  sensibilite := .interne
  fragment := nom
  apercu := "racine remplacée par " ++ JETON_WORKSPACE

def remplacerVariante (nom : String) (e : Etat) (variante : List Char) : Etat :=
  if variante <:+: e.1 then
    (remplacer (litteral variante JETON_WORKSPACE.toList) 0 none e.1,
      e.2 ++ [constatDeRacine nom])
  else e

def remplacerRacine (barresDAbord : Bool) (nom : String) (e : Etat) (racine : String) : Etat :=
  let racine := sansSeparateurs racine.toList
  if racine.length < 4 then e
  else (variantes barresDAbord racine).foldl (remplacerVariante nom) e

/-- Every match of a detector is a finding, and is replaced. -/
def detecter (nomMotif nom : String) (f : Chercheur) (e : Etat) : Etat :=
  (remplacer f 0 none e.1,
    e.2 ++ (finditer f e.1).map fun span =>
      { motif := nomMotif
        sensibilite := .interne
        fragment := nom
        apercu := apercu u e.1 span })

def examinerLeTexte (barresDAbord : Bool) (nom texte : String) (racines : List String) :
    String × List Constat :=
  if texte = "" then (texte, [])
  else
    let apresSecrets := redact u texte
    let secrets : List Constat :=
      if apresSecrets ≠ texte then
        [{ motif := "identifiant"
           sensibilite := .secret
           fragment := nom
           apercu := "(valeur retirée avant le rapport)" }]
      else []
    let e : Etat := (apresSecrets.toList, secrets)
    let e := racines.foldl (remplacerRacine barresDAbord nom) e
    let e := RACINES.foldl
      (fun e r => detecter u "chemin d'utilisateur" nom (motif u r JETON_WORKSPACE) e) e
    let e := detecter u "adresse de courriel" nom (COURRIEL u) e
    let e := detecter u "adresse réseau privée" nom (ADRESSE_PRIVEE u) e
    (String.ofList e.1, e.2)

/-- The message as it would leave, and what has been found in it. -/
def examinerMessage (barresDAbord : Bool) (racines : List String) (m : Message) :
    Message × List Constat :=
  match m.content with
  | none => (m, [])
  | some contenu =>
      let (texte, trouves) := examinerLeTexte u barresDAbord (Texte.ou m.role "message") contenu racines
      ({ m with content := some texte }, trouves)

def examiner (barresDAbord : Bool) (messages : List Message) (politique : PolitiqueCloud)
    (racines : List String) : Decision :=
  match politique with
  | .jamais =>
      { verdict := .refuse
        raison := "ce projet n'autorise aucun envoi vers un tiers (politique « jamais »)" }
  | politique =>
      let examines := messages.map (examinerMessage u barresDAbord racines)
      let constats := (examines.map Prod.snd).flatten
      let secrets := constats.filter fun c => c.sensibilite = .secret
      if secrets ≠ [] then
        { verdict := .refuse
          constats := constats
          raison := toString secrets.length ++ " identifiant(s) dans le contexte : le prompt "
            ++ "contient du matériel qui n'aurait pas dû y entrer, pas seulement une clé à retirer" }
      else if politique = .approbation then
        { verdict := .approbation
          constats := constats
          raison := "ce projet demande un accord avant chaque envoi" }
      else if constats ≠ [] then
        { verdict := .caviarde
          messages := examines.map Prod.fst
          constats := constats
          raison := "envoyé après caviardage : " ++ toString constats.length ++ " constat(s)" }
      else { verdict := .autorise, messages := examines.map Prod.fst }

end Examen

section Detecteurs

variable {u : Caracteres} {r : Regex} {jeton : String} {a : Option Char} {cs : List Char}

theorem mem_limite {mot : Char → Bool} {pl : Expression.Place} {i : Expression.Issue} :
    i ∈ limite.issues mot pl ↔ i = ([], pl) ∧ Motif.limite mot pl.avant pl.apres.head? = true := by
  dsimp only [Regex.issues]
  split_ifs with hlimite
  · rw [List.mem_singleton]
    exact ⟨fun h => ⟨h, hlimite⟩, fun h => h.1⟩
  · exact ⟨nofun, fun h => absurd h.2 hlimite⟩

theorem mem_entier (h : r.Libre) {i : Expression.Issue} :
    i ∈ (entier r).issues u.mot ⟨a, cs⟩ ↔ r.Langue i.1 ∧ cs = i.1 ++ i.2.apres ∧
      i.2.avant = i.1.getLast?.or a ∧ Motif.limite u.mot a cs.head? = true ∧
        Motif.limite u.mot i.2.avant i.2.apres.head? = true := by
  have hr := lit_issues u.mot h
  show i ∈ puis (limite.issues u.mot) (puis (r.issues u.mot) (limite.issues u.mot)) ⟨a, cs⟩ ↔ _
  simp only [mem_puis, mem_limite, Prod.mk.injEq]
  constructor
  · rintro ⟨v, pl, ⟨⟨rfl, rfl⟩, hdebut⟩, w, ⟨x, pl', hx, y, ⟨⟨rfl, hpl⟩, hfin⟩, hw⟩, hi⟩
    obtain ⟨hlangue, hapres, havant⟩ := (hr _ _ _).mp hx
    have hi' : i.1 = x := by rw [hi, hw, List.nil_append, List.append_nil]
    rw [hi', hpl]
    exact ⟨hlangue, hapres, havant, hdebut, hfin⟩
  · rintro ⟨hlangue, hapres, havant, hdebut, hfin⟩
    exact ⟨[], ⟨a, cs⟩, ⟨⟨rfl, rfl⟩, hdebut⟩, i.1, ⟨i.1, i.2, (hr _ _ _).mpr ⟨hlangue, hapres, havant⟩,
      [], ⟨⟨rfl, rfl⟩, hfin⟩, (List.append_nil _).symm⟩, rfl⟩

theorem bornee_motif (h : r.Libre) (hvide : ¬ r.Langue []) :
    Bornee u.mot (motif u (entier r) jeton) jeton.toList := by
  intro a cs n j hmotif
  obtain ⟨i, hi, heq⟩ := Option.map_eq_some_iff.mp hmotif
  cases heq
  obtain ⟨hlangue, hcs, havant, hdebut, hfin⟩ := (mem_entier h).mp (List.mem_of_head? hi)
  have hne : i.1 ≠ [] := by
    intro hnil
    rw [hnil] at hlangue
    exact hvide hlangue
  refine ⟨rfl, i.1, i.2.apres, hcs, rfl, hne, ?_, ?_⟩
  · rwa [hcs, List.head?_append_of_ne_nil _ hne] at hdebut
  · rwa [havant, any_or_of_ne_nil hne] at hfin

theorem rien_motif (h : r.Libre) (hvide : ¬ r.Langue []) :
    Rien (motif u (entier r) jeton) a cs ↔ ¬ Borne u.mot r.Langue a cs := by
  constructor
  · rintro hrien ⟨v, w, hcs, hv, hne, hdebut, hfin⟩
    have hmem : (v, (⟨v.getLast?.or a, w⟩ : Expression.Place)) ∈ (entier r).issues u.mot ⟨a, cs⟩ := by
      refine (mem_entier h).mpr ⟨hv, hcs, rfl, ?_, ?_⟩
      · rwa [hcs, List.head?_append_of_ne_nil _ hne]
      · rwa [any_or_of_ne_nil hne]
    cases htete : ((entier r).issues u.mot ⟨a, cs⟩).head? with
    | none =>
        rw [List.head?_eq_none_iff.mp htete] at hmem
        cases hmem
    | some i =>
        have hmotif : motif u (entier r) jeton a cs = some (i.1.length, jeton.toList) := by
          rw [motif, htete]
          rfl
        obtain ⟨_, v', _, _, hlong, hne', _⟩ := bornee_motif h hvide a cs _ _ hmotif
        obtain ⟨n, hn⟩ := Nat.exists_eq_succ_of_ne_zero (List.length_pos_iff.mpr hne').ne'
        exact hrien n jeton.toList (by rw [hmotif, ← hlong, hn])
  · intro hborne n j hmotif
    obtain ⟨i, hi, heq⟩ := Option.map_eq_some_iff.mp hmotif
    obtain ⟨hlangue, _⟩ := (mem_entier h).mp (List.mem_of_head? hi)
    obtain ⟨_, v, w, hcs, hlong, hne, hdebut, hfin⟩ := bornee_motif h hvide a cs _ _ hmotif
    obtain ⟨_, hcs', _⟩ := (mem_entier h).mp (List.mem_of_head? hi)
    have hv : v = i.1 := by
      have hlong' : v.length = i.1.length := hlong.trans (congrArg Prod.fst heq).symm
      exact (List.append_inj (hcs.symm.trans hcs') hlong').1
    exact hborne ⟨v, w, hcs, hv ▸ hlangue, hne, hdebut, hfin⟩

/-- The texts of an expression are words that share nothing with the mark which replaces them. -/
structure Detecteur (r : Regex) : Prop where
  libre : r.Libre
  crochets : ∀ v, r.Langue v → '[' ∉ v ∧ ']' ∉ v ∧ ¬ v <:+: "CAVIARDÉ".toList

theorem Detecteur.vide (h : Detecteur r) : ¬ r.Langue [] := fun hvide =>
  (h.crochets [] hvide).2.2 List.nil_infix

theorem detecteur_of_alphabet (hlibre : r.Libre) (halphabet : r.Alphabet fun c => c ≠ '[' ∧ c ≠ ']')
    (d : Char) (hd : d ∉ "CAVIARDÉ".toList) (hcontient : ∀ v, r.Langue v → d ∈ v) :
    Detecteur r where
  libre := hlibre
  crochets v hv := by
    have hsans := langue_alphabet halphabet hv
    refine ⟨fun h => (hsans _ h).1 rfl, fun h => (hsans _ h).2 rfl, fun h => ?_⟩
    exact hd (h.subset (hcontient v hv))

theorem sans_crochet {c : Char} (h : u.mot c = true) : c ≠ '[' ∧ c ≠ ']' := by
  constructor
  · rintro rfl
    exact absurd (u.ponctuation '[' (by decide)) (by rw [h]; decide)
  · rintro rfl
    exact absurd (u.ponctuation ']' (by decide)) (by rw [h]; decide)

theorem detecteur_courriel (u : Caracteres) : Detecteur (courriel u) := by
  refine detecteur_of_alphabet ?_ ?_ '@' (by decide) ?_
  · exact ⟨trivial, trivial, trivial, trivial, trivial⟩
  · have hclasse : ∀ c, (u.mot c || c = '.' || c = '+' || c = '-') = true → c ≠ '[' ∧ c ≠ ']' := by
      intro c hc
      rcases Bool.or_eq_true_iff.mp hc with hc | hc
      · rcases Bool.or_eq_true_iff.mp hc with hc | hc
        · rcases Bool.or_eq_true_iff.mp hc with hc | hc
          · exact sans_crochet hc
          · rw [of_decide_eq_true hc]
            decide
        · rw [of_decide_eq_true hc]
          decide
      · rw [of_decide_eq_true hc]
        decide
    refine ⟨hclasse, ?_, ?_, ?_, ?_⟩
    · intro c hc
      rw [of_decide_eq_true hc]
      decide
    · intro c hc
      refine hclasse c ?_
      rcases Bool.or_eq_true_iff.mp hc with hc | hc <;> simp [hc]
    · intro c hc
      rw [of_decide_eq_true hc]
      decide
    · intro c hc
      refine hclasse c ?_
      rcases Bool.or_eq_true_iff.mp hc with hc | hc
      · rcases Bool.or_eq_true_iff.mp hc with hc | hc <;> simp [hc]
      · simp [hc]
  · rintro _ ⟨v, w, _, ⟨x, y, ⟨d, hd, rfl⟩, _, rfl⟩, rfl⟩
    rw [of_decide_eq_true hd]
    simp

theorem alphabet_octet (u : Caracteres) : (octet u).Alphabet fun c => c ≠ '[' ∧ c ≠ ']' :=
  fun _ hc => sans_crochet (u.chiffre_mot _ hc)

theorem mem_of_litteral {texte : String} {s : Regex} {d : Char} (hd : d ∈ texte.toList)
    {v : List Char} (hv : (suite (Regex.litteral texte) s).Langue v) : d ∈ v := by
  obtain ⟨x, y, hx, _, rfl⟩ := hv
  rw [langue_litteral.mp hx]
  exact List.mem_append_left y hd

theorem detecteur_adressePrivee (u : Caracteres) : Detecteur (adressePrivee u) := by
  have hchiffre : ∀ c, u.chiffre c = true → c ≠ '[' ∧ c ≠ ']' := alphabet_octet u
  have hpoint : (Regex.litteral ".").Alphabet fun c => c ≠ '[' ∧ c ≠ ']' :=
    alphabet_litteral "." (List.all_iff_forall_prop.mp (by decide))
  have hun : ∀ d, d ≠ '[' ∧ d ≠ ']' → (car (· = d)).Alphabet fun c => c ≠ '[' ∧ c ≠ ']' := by
    intro d hd c hc
    rw [of_decide_eq_true hc]
    exact hd
  have hparmi : ∀ t : String, (∀ c ∈ t.toList, c ≠ '[' ∧ c ≠ ']') →
      (car fun c => c ∈ t.toList).Alphabet fun c => c ≠ '[' ∧ c ≠ ']' :=
    fun t ht c hc => ht c (of_decide_eq_true hc)
  refine detecteur_of_alphabet ?_ ?_ '.' (by decide) ?_
  · have hlibre := libre_litteral
    exact ⟨⟨hlibre _, trivial, hlibre _, trivial, hlibre _, trivial⟩,
      ⟨hlibre _, trivial, hlibre _, trivial⟩,
      ⟨hlibre _, ⟨⟨trivial, trivial⟩, ⟨trivial, trivial⟩, ⟨trivial, trivial⟩⟩, hlibre _, trivial,
        hlibre _, trivial⟩⟩
  · refine ⟨?_, ?_, ?_⟩
    · exact ⟨alphabet_litteral "10." (List.all_iff_forall_prop.mp (by decide)), hchiffre, hpoint,
        hchiffre, hpoint, hchiffre⟩
    · exact ⟨alphabet_litteral "192.168." (List.all_iff_forall_prop.mp (by decide)), hchiffre, hpoint,
        hchiffre⟩
    · refine ⟨alphabet_litteral "172." (List.all_iff_forall_prop.mp (by decide)), ⟨?_, ?_, ?_⟩,
        hpoint, hchiffre, hpoint, hchiffre⟩
      · exact ⟨hun '1' (by decide), hparmi "6789" (List.all_iff_forall_prop.mp (by decide))⟩
      · exact ⟨hun '2' (by decide), hchiffre⟩
      · exact ⟨hun '3' (by decide), hparmi "01" (List.all_iff_forall_prop.mp (by decide))⟩
  · rintro v (hv | hv | hv)
    · exact mem_of_litteral (by decide) hv
    · exact mem_of_litteral (by decide) hv
    · exact mem_of_litteral (by decide) hv

theorem mot_crochets (u : Caracteres) : u.mot '[' = false ∧ u.mot ']' = false :=
  ⟨u.ponctuation _ (by decide), u.ponctuation _ (by decide)⟩

/-- No word of the language begins in the text, between two boundaries. -/
def Sans (u : Caracteres) (r : Regex) (a : Option Char) (cs : List Char) : Prop :=
  Partout (fun a cs => ¬ Borne u.mot r.Langue a cs) a cs

theorem sans_caviarde {s : Regex} (hr : Detecteur r) (hs : Detecteur s)
    (h : Partout (fun a cs => Rien (motif u (entier s) JETON_CAVIARDE) a cs →
      ¬ Borne u.mot r.Langue a cs) a cs) :
    Sans u r a (remplacer (motif u (entier s) JETON_CAVIARDE) 0 a cs) :=
  sans_remplacer (bornee_motif hs.libre hs.vide) rfl (mot_crochets u).1 (mot_crochets u).2
    hr.crochets a a cs (.inl rfl) h

theorem sans_detecte (hr : Detecteur r) (a : Option Char) (cs : List Char) :
    Sans u r a (remplacer (motif u (entier r) JETON_CAVIARDE) 0 a cs) :=
  sans_caviarde hr hr (partout_of_forall (fun _ _ => (rien_motif hr.libre hr.vide).mp) a cs)

theorem sans_conserve {s : Regex} (hr : Detecteur r) (hs : Detecteur s) (h : Sans u r a cs) :
    Sans u r a (remplacer (motif u (entier s) JETON_CAVIARDE) 0 a cs) :=
  sans_caviarde hr hs (h.mono fun _ _ hborne _ => hborne)

theorem finditer_eq_nil (hr : Detecteur r) (h : Sans u r none cs) :
    finditer (motif u (entier r) jeton) cs = [] :=
  (trouver_eq_nil 0).mpr (h.mono fun _ _ => (rien_motif hr.libre hr.vide).mpr)

end Detecteurs

section Racines

variable {u : Caracteres} {v w texte : List Char} {e : Etat}

def absolue (cs : List Char) : Bool :=
  cs.head?.any separateur || cs[1]? = some ':' && cs[2]?.any separateur

structure Racine where
  texte : String
  absolue : absolue texte.toList = true
  sansChevron : ∀ c ∈ ['<', '>', '[', ']'], c ∉ texte.toList

/-- The plain spelling, with slashes, and with doubled backslashes. -/
def Racine.ecritures (r : Racine) : List (List Char) :=
  [r.texte.toList, barres r.texte.toList, doublees r.texte.toList]

structure Ecriture (v : List Char) : Prop where
  separee : ∃ c ∈ v, separateur c = true
  sansChevron : ∀ c ∈ ['<', '>', '[', ']'], c ∉ v

theorem Ecriture.ne_nil (h : Ecriture v) : v ≠ [] := by
  obtain ⟨c, hc, _⟩ := h.separee
  exact List.ne_nil_of_mem hc

theorem Ecriture.not_infix (h : Ecriture v) (hw : ∀ c ∈ w, separateur c = false) : ¬ v <:+: w := by
  intro hdedans
  obtain ⟨c, hc, hsep⟩ := h.separee
  exact Bool.noConfusion (hsep.symm.trans (hw c (hdedans.subset hc)))

theorem Ecriture.jetonWorkspace (h : Ecriture v) : Jeton v JETON_WORKSPACE.toList :=
  ⟨'<', "WORKSPACE".toList, '>', rfl, h.sansChevron _ (by decide), h.sansChevron _ (by decide),
    h.not_infix (List.all_iff_forall_prop.mp (by decide))⟩

theorem Ecriture.jetonCaviarde (h : Ecriture v) : Jeton v JETON_CAVIARDE.toList :=
  ⟨'[', "CAVIARDÉ".toList, ']', rfl, h.sansChevron _ (by decide), h.sansChevron _ (by decide),
    h.not_infix (List.all_iff_forall_prop.mp (by decide))⟩

theorem mem_barres {c : Char} (h : c ∈ barres v) : c = '/' ∨ c ∈ v := by
  obtain ⟨d, hd, rfl⟩ := List.mem_map.mp h
  by_cases hanti : d = '\\'
  · exact .inl (if_pos hanti)
  · rw [if_neg hanti]
    exact .inr hd

theorem mem_doublees {c : Char} : c ∈ doublees v ↔ c ∈ v := by
  have hun : ∀ d : Char, c ∈ (if d = '\\' then ['\\', '\\'] else [d]) ↔ c = d := by
    intro d
    by_cases hanti : d = '\\'
    · simp [hanti]
    · simp [hanti]
  unfold doublees
  rw [List.mem_flatMap]
  simp only [hun]
  exact ⟨fun ⟨d, hd, hcd⟩ => hcd ▸ hd, fun h => ⟨c, h, rfl⟩⟩

theorem Ecriture.barres (h : Ecriture v) : Ecriture (barres v) where
  separee := by
    obtain ⟨c, hc, hsep⟩ := h.separee
    refine ⟨_, List.mem_map.mpr ⟨c, hc, rfl⟩, ?_⟩
    by_cases hanti : c = '\\'
    · rw [if_pos hanti]
      decide
    · rwa [if_neg hanti]
  sansChevron c hc hmem := by
    rcases mem_barres hmem with rfl | hmem
    · exact absurd hc (by decide)
    · exact h.sansChevron c hc hmem

theorem Ecriture.doublees (h : Ecriture v) : Ecriture (doublees v) where
  separee := by
    obtain ⟨c, hc, hsep⟩ := h.separee
    exact ⟨c, mem_doublees.mpr hc, hsep⟩
  sansChevron c hc hmem := h.sansChevron c hc (mem_doublees.mp hmem)

theorem Racine.ecriture (r : Racine) (hlong : 4 ≤ (sansSeparateurs r.texte.toList).length) :
    Ecriture (sansSeparateurs r.texte.toList) := by
  obtain ⟨reste, hreste⟩ := List.rdropWhile_prefix separateur (l := r.texte.toList)
  have hegal : sansSeparateurs r.texte.toList ++ reste = r.texte.toList := hreste
  have habsolue := r.absolue
  have hsans := r.sansChevron
  revert hlong hegal habsolue hsans
  generalize sansSeparateurs r.texte.toList = v
  generalize r.texte.toList = l
  rintro hlong rfl habsolue hsans
  refine ⟨?_, fun c hc hmem => hsans c hc (List.mem_append_left reste hmem)⟩
  match v, hlong with
  | c₀ :: c₁ :: c₂ :: v, _ =>
      rcases Bool.or_eq_true_iff.mp habsolue with h | h
      · exact ⟨c₀, List.mem_cons_self, h⟩
      · exact ⟨c₂, by simp, (Bool.and_eq_true_iff.mp h).2⟩

theorem Racine.prefixe (r : Racine) {v : List Char} (hv : v ∈ r.ecritures) :
    ∃ w ∈ [sansSeparateurs r.texte.toList, barres (sansSeparateurs r.texte.toList),
      doublees (sansSeparateurs r.texte.toList)], w <+: v := by
  have hprefixe : sansSeparateurs r.texte.toList <+: r.texte.toList :=
    List.rdropWhile_prefix separateur _
  simp only [ecritures, List.mem_cons, List.not_mem_nil, or_false] at hv
  rcases hv with rfl | rfl | rfl
  · exact ⟨sansSeparateurs r.texte.toList, by simp, hprefixe⟩
  · exact ⟨barres (sansSeparateurs r.texte.toList), by simp, hprefixe.map _⟩
  · exact ⟨doublees (sansSeparateurs r.texte.toList), by simp, hprefixe.flatMap _⟩

theorem mem_variantes (barresDAbord : Bool) :
    w ∈ variantes barresDAbord v ↔ w ∈ [v, barres v, doublees v] := by
  unfold variantes
  rw [List.mem_eraseDups]
  cases barresDAbord
  · simp
    tauto
  · simp
    tauto

theorem Ecriture.variante {barresDAbord : Bool} (h : Ecriture v)
    (hw : w ∈ variantes barresDAbord v) : Ecriture w := by
  have hw' := (mem_variantes barresDAbord).mp hw
  simp only [List.mem_cons, List.not_mem_nil, or_false] at hw'
  rcases hw' with rfl | rfl | rfl
  · exact h
  · exact h.barres
  · exact h.doublees

theorem jeton_motif {r : Regex} {jeton : String} {a : Option Char} {cs j : List Char} {n : Nat}
    (h : motif u r jeton a cs = some (n, j)) : j = jeton.toList := by
  obtain ⟨i, _, heq⟩ := Option.map_eq_some_iff.mp h
  exact (congrArg Prod.snd heq).symm

theorem jeton_litteral {a : Option Char} {cs j jeton : List Char} {n : Nat}
    (h : Remplacement.litteral w jeton a cs = some (n, j)) : j = jeton := by
  unfold Remplacement.litteral at h
  split_ifs at h
  cases h
  rfl

theorem absent_detecter {nomMotif nom : String} {r : Regex} {jeton : String} (hv : v ≠ [])
    (hjeton : Jeton v jeton.toList) (h : ¬ v <:+: e.1) :
    ¬ v <:+: (detecter u nomMotif nom (motif u r jeton) e).1 := by
  intro hdedans
  refine h (infix_of_remplacer hv ?_ hdedans)
  intro a cs n j hmotif
  rw [jeton_motif hmotif]
  exact hjeton

theorem absent_remplacerVariante {nom : String} (hv : Ecriture v) (h : ¬ v <:+: e.1) :
    ¬ v <:+: (remplacerVariante nom e w).1 := by
  unfold remplacerVariante
  split_ifs
  · intro hdedans
    refine h (infix_of_remplacer hv.ne_nil ?_ hdedans)
    intro a cs n j htrouve
    rw [jeton_litteral htrouve]
    exact hv.jetonWorkspace
  · exact h

theorem absent_variante {nom : String} (hv : Ecriture v) :
    ¬ v <:+: (remplacerVariante nom e v).1 := by
  unfold remplacerVariante
  split_ifs with h
  · exact absent_litteral hv.ne_nil hv.jetonWorkspace
  · exact h

theorem absent_foldl {nom : String} {l : List (List Char)} (hv : Ecriture v) (h : ¬ v <:+: e.1) :
    ¬ v <:+: (l.foldl (remplacerVariante nom) e).1 := by
  induction l generalizing e with
  | nil => exact h
  | cons w l ih => exact ih (absent_remplacerVariante hv h)

theorem absentes_foldl {nom : String} {l : List (List Char)} (hl : ∀ v ∈ l, Ecriture v) :
    ∀ v ∈ l, ¬ v <:+: (l.foldl (remplacerVariante nom) e).1 := by
  induction l generalizing e with
  | nil => exact nofun
  | cons w l ih =>
      intro v hv
      rcases List.mem_cons.mp hv with rfl | hv
      · have hv := hl v List.mem_cons_self
        exact absent_foldl (e := remplacerVariante nom e v) hv (absent_variante hv)
      · exact ih (fun v hv => hl v (List.mem_cons_of_mem w hv)) v hv

theorem absentes_remplacerRacine (barresDAbord : Bool) (nom : String) (e : Etat) (r : Racine)
    (hlong : 4 ≤ (sansSeparateurs r.texte.toList).length) :
    ∀ v ∈ [sansSeparateurs r.texte.toList, barres (sansSeparateurs r.texte.toList),
        doublees (sansSeparateurs r.texte.toList)],
      Ecriture v ∧ ¬ v <:+: (remplacerRacine barresDAbord nom e r.texte).1 := by
  intro v hv
  have hecriture := r.ecriture hlong
  have hv' := (mem_variantes barresDAbord).mpr hv
  refine ⟨hecriture.variante hv', ?_⟩
  unfold remplacerRacine
  rw [if_neg (Nat.not_lt.mpr hlong)]
  exact absentes_foldl (fun w hw => hecriture.variante hw) v hv'

/-- A pass adds findings, and without one it leaves the text. -/
def Prolonge (e e' : Etat) : Prop :=
  ∃ trouves, e'.2 = e.2 ++ trouves ∧ (trouves = [] → e'.1 = e.1)

theorem Prolonge.refl (e : Etat) : Prolonge e e := ⟨[], (List.append_nil _).symm, fun _ => rfl⟩

theorem Prolonge.trans {e e' e'' : Etat} (h : Prolonge e e') (h' : Prolonge e' e'') :
    Prolonge e e'' := by
  obtain ⟨trouves, he, htexte⟩ := h
  obtain ⟨trouves', he', htexte'⟩ := h'
  refine ⟨trouves ++ trouves', by rw [he', he, List.append_assoc], ?_⟩
  intro hrien
  obtain ⟨hrien, hrien'⟩ := List.append_eq_nil_iff.mp hrien
  rw [htexte' hrien', htexte hrien]

theorem prolonge_foldl {α : Type} {f : Etat → α → Etat} (hf : ∀ e x, Prolonge e (f e x))
    (l : List α) (e : Etat) : Prolonge e (l.foldl f e) := by
  induction l generalizing e with
  | nil => exact .refl e
  | cons x l ih => exact (hf e x).trans (ih _)

theorem prolonge_remplacerVariante (nom : String) (e : Etat) (v : List Char) :
    Prolonge e (remplacerVariante nom e v) := by
  unfold remplacerVariante
  split_ifs
  · exact ⟨[_], rfl, nofun⟩
  · exact .refl e

theorem prolonge_remplacerRacine (barresDAbord : Bool) (nom : String) (e : Etat) (racine : String) :
    Prolonge e (remplacerRacine barresDAbord nom e racine) := by
  unfold remplacerRacine
  dsimp only
  split_ifs
  · exact .refl e
  · exact prolonge_foldl (prolonge_remplacerVariante nom) _ e

theorem prolonge_detecter (nomMotif nom : String) (f : Chercheur) (e : Etat) :
    Prolonge e (detecter u nomMotif nom f e) := by
  refine ⟨_, rfl, fun hrien => ?_⟩
  exact remplacer_eq_self ((trouver_eq_nil 0).mp (List.map_eq_nil_iff.mp hrien))

end Racines

section Envoi

variable {u : Caracteres} {barresDAbord : Bool} {racine : Option Racine} {m : Message}

/-- No address is found in the text, and no spelling of a root that has `longueur` characters
without the separators at its end. -/
structure Propre (u : Caracteres) (longueur : Nat) (racine : Option Racine) (texte : List Char) :
    Prop where
  courriel : finditer (COURRIEL u) texte = []
  adressePrivee : finditer (ADRESSE_PRIVEE u) texte = []
  racine : ∀ r ∈ racine, longueur ≤ (sansSeparateurs r.texte.toList).length →
    ∀ v ∈ r.ecritures, ¬ v <:+: texte

/-- What a decision promises to who sends its messages. -/
structure Respectee (u : Caracteres) (longueur : Nat) (messages : List Message)
    (racine : Option Racine) (d : Decision) : Prop where
  vide : d.verdict ≠ .autorise → d.verdict ≠ .caviarde → d.messages = []
  refuse : ∀ m ∈ messages, ∀ contenu, m.content = some contenu → redact u contenu ≠ contenu →
    d.verdict = .refuse
  autorise : d.verdict = .autorise → d.constats = [] ∧ d.messages = messages
  caviarde : d.verdict = .caviarde →
    List.Forall₂ (fun m m' => m'.role = m.role ∧ m'.autres = m.autres) messages d.messages ∧
      ∀ m' ∈ d.messages, ∀ contenu, m'.content = some contenu →
        Propre u longueur racine contenu.toList

def racines (racine : Option Racine) : List String := (racine.map Racine.texte).toList

theorem propre_examinerLeTexte (nom texte : String) :
    Propre u 4 racine (examinerLeTexte u barresDAbord nom texte (racines racine)).1.toList := by
  unfold examinerLeTexte
  split_ifs with hvide
  · subst hvide
    refine ⟨rfl, rfl, fun r _ hlong v hv hdedans => ?_⟩
    obtain ⟨w, hw, hprefixe⟩ := r.prefixe hv
    have hecriture := (absentes_remplacerRacine false "" ([], []) r hlong w hw).1
    exact hecriture.ne_nil (List.infix_nil.mp (hprefixe.isInfix.trans hdedans))
  · dsimp only
    generalize (if redact u texte ≠ texte then _ else _ : List Constat) = secrets
    rw [String.toList_ofList]
    have hcourriel := detecteur_courriel u
    have hadresse := detecteur_adressePrivee u
    refine ⟨?_, ?_, ?_⟩
    · exact finditer_eq_nil hcourriel
        (sans_conserve hcourriel hadresse (sans_detecte hcourriel none _))
    · exact finditer_eq_nil hadresse (sans_detecte hadresse none _)
    · intro r hr hlong v hv hdedans
      obtain ⟨w, hw, hprefixe⟩ := r.prefixe hv
      cases hr
      obtain ⟨hecriture, habsent⟩ := absentes_remplacerRacine barresDAbord nom
        ((redact u texte).toList, secrets) r hlong w hw
      have hworkspace := hecriture.jetonWorkspace
      have hcaviarde := hecriture.jetonCaviarde
      refine absent_detecter hecriture.ne_nil hcaviarde ?_ (hprefixe.isInfix.trans hdedans)
      refine absent_detecter hecriture.ne_nil hcaviarde ?_
      refine absent_detecter hecriture.ne_nil hworkspace ?_
      refine absent_detecter hecriture.ne_nil hworkspace ?_
      refine absent_detecter hecriture.ne_nil hworkspace ?_
      exact habsent

theorem prolonge_examinerLeTexte (u : Caracteres) (barresDAbord : Bool) (nom : String)
    {texte : String} (hvide : texte ≠ "") (declarees : List String) :
    ∃ trouves, (examinerLeTexte u barresDAbord nom texte declarees).2 =
        (if redact u texte ≠ texte then
          [{ motif := "identifiant", sensibilite := .secret, fragment := nom,
             apercu := "(valeur retirée avant le rapport)" }]
        else []) ++ trouves ∧
      (trouves = [] → (examinerLeTexte u barresDAbord nom texte declarees).1 = redact u texte) := by
  unfold examinerLeTexte
  rw [if_neg hvide]
  dsimp only
  generalize (if redact u texte ≠ texte then _ else _ : List Constat) = secrets
  have hprolonge : Prolonge ((redact u texte).toList, secrets) _ :=
    (prolonge_foldl (prolonge_remplacerRacine barresDAbord nom) declarees _).trans <|
    (prolonge_foldl (fun e r => prolonge_detecter (u := u) "chemin d'utilisateur" nom
      (motif u r JETON_WORKSPACE) e) RACINES _).trans <|
    (prolonge_detecter (u := u) "adresse de courriel" nom (COURRIEL u) _).trans <|
    prolonge_detecter (u := u) "adresse réseau privée" nom (ADRESSE_PRIVEE u) _
  obtain ⟨trouves, hconstats, htexte⟩ := hprolonge
  refine ⟨trouves, hconstats, fun hrien => ?_⟩
  rw [htexte hrien, String.ofList_toList]

theorem redact_vide (u : Caracteres) : redact u "" = "" := by
  have hsub : ∀ f, sub f "" = "" := by
    intro f
    simp [sub, remplacer]
  simp only [redact, hsub]

theorem examinerLeTexte_of_rien {nom texte : String} {declarees : List String}
    (h : (examinerLeTexte u barresDAbord nom texte declarees).2 = []) :
    (examinerLeTexte u barresDAbord nom texte declarees).1 = texte := by
  by_cases hvide : texte = ""
  · rw [examinerLeTexte, if_pos hvide]
  · obtain ⟨trouves, hconstats, htexte⟩ :=
      prolonge_examinerLeTexte u barresDAbord nom hvide declarees
    rw [hconstats] at h
    obtain ⟨hsecrets, hrien⟩ := List.append_eq_nil_iff.mp h
    rw [htexte hrien]
    split_ifs at hsecrets with hredact
    exact not_not.mp hredact

theorem examinerLeTexte_secret {nom texte : String} {declarees : List String}
    (h : redact u texte ≠ texte) :
    ∃ c ∈ (examinerLeTexte u barresDAbord nom texte declarees).2, c.sensibilite = .secret := by
  have hvide : texte ≠ "" := by
    rintro rfl
    exact h (redact_vide u)
  obtain ⟨trouves, hconstats, _⟩ :=
    prolonge_examinerLeTexte u barresDAbord nom hvide declarees
  rw [hconstats, if_pos h]
  exact ⟨_, List.mem_append_left _ List.mem_cons_self, rfl⟩

theorem examinerMessage_of_rien {declarees : List String}
    (h : (examinerMessage u barresDAbord declarees m).2 = []) :
    (examinerMessage u barresDAbord declarees m).1 = m := by
  unfold examinerMessage at h ⊢
  cases hcontenu : m.content with
  | none => rfl
  | some contenu =>
      rw [hcontenu] at h
      dsimp only at h ⊢
      rw [examinerLeTexte_of_rien h, ← hcontenu]

theorem examinerMessage_champs (declarees : List String) :
    (examinerMessage u barresDAbord declarees m).1.role = m.role ∧
      (examinerMessage u barresDAbord declarees m).1.autres = m.autres := by
  unfold examinerMessage
  cases m.content with
  | none => exact ⟨rfl, rfl⟩
  | some contenu => exact ⟨rfl, rfl⟩

theorem examinerMessage_propre {contenu : String}
    (h : (examinerMessage u barresDAbord (racines racine) m).1.content = some contenu) :
    Propre u 4 racine contenu.toList := by
  unfold examinerMessage at h
  cases hcontenu : m.content with
  | none =>
      rw [hcontenu] at h
      exact absurd (hcontenu.symm.trans h) nofun
  | some avant =>
      rw [hcontenu] at h
      cases h
      exact propre_examinerLeTexte _ avant

theorem examinerMessage_secret (barresDAbord : Bool) (declarees : List String) {contenu : String}
    (hcontenu : m.content = some contenu) (h : redact u contenu ≠ contenu) :
    ∃ c ∈ (examinerMessage u barresDAbord declarees m).2, c.sensibilite = .secret := by
  unfold examinerMessage
  rw [hcontenu]
  exact examinerLeTexte_secret h

/-- Every decision keeps its promise, up to the roots that are too short. -/
theorem examiner_respectee (u : Caracteres) (barresDAbord : Bool) (messages : List Message)
    (politique : PolitiqueCloud) (racine : Option Racine) :
    Respectee u 4 messages racine
      (examiner u barresDAbord messages politique (racines racine)) := by
  have hsecret : ∀ m ∈ messages, ∀ contenu, m.content = some contenu → redact u contenu ≠ contenu →
      ((messages.map (examinerMessage u barresDAbord (racines racine))).map
        Prod.snd).flatten.filter (fun c => c.sensibilite = .secret) ≠ [] := by
    intro m hm contenu hcontenu hredact
    obtain ⟨c, hc, hsensibilite⟩ :=
      examinerMessage_secret barresDAbord (racines racine) hcontenu hredact
    refine List.ne_nil_of_mem (List.mem_filter.mpr ⟨?_, decide_eq_true hsensibilite⟩)
    exact List.mem_flatten.mpr ⟨_, List.mem_map_of_mem (List.mem_map_of_mem hm), hc⟩
  unfold examiner
  split
  · exact ⟨fun _ _ => rfl, fun _ _ _ _ _ => rfl, nofun, nofun⟩
  · dsimp only
    split_ifs with hsecrets happrobation hconstats
    · exact ⟨fun _ _ => rfl, fun _ _ _ _ _ => rfl, nofun, nofun⟩
    · exact ⟨fun _ _ => rfl, fun m hm c hc h => absurd (hsecret m hm c hc h) hsecrets, nofun, nofun⟩
    · refine ⟨fun _ h => absurd rfl h, fun m hm c hc h => absurd (hsecret m hm c hc h) hsecrets,
        nofun, fun _ => ⟨?_, ?_⟩⟩
      · rw [List.map_map, List.forall₂_map_right_iff]
        exact List.forall₂_same.mpr fun m _ => examinerMessage_champs _
      · intro m' hm' contenu hcontenu
        obtain ⟨i, hi, rfl⟩ := List.mem_map.mp hm'
        obtain ⟨m, _, rfl⟩ := List.mem_map.mp hi
        exact examinerMessage_propre hcontenu
    · refine ⟨fun h _ => absurd rfl h, fun m hm c hc h => absurd (hsecret m hm c hc h) hsecrets,
        fun _ => ⟨rfl, ?_⟩, nofun⟩
      have hrien := not_not.mp hconstats
      rw [List.map_map]
      refine (List.map_congr_left ?_).trans (List.map_id messages)
      intro m hm
      refine examinerMessage_of_rien (List.eq_nil_iff_forall_not_mem.mpr fun c hc => ?_)
      have hc' := List.mem_flatten.mpr ⟨_, List.mem_map_of_mem (List.mem_map_of_mem hm), hc⟩
      rw [hrien] at hc'
      cases hc'

def racineCourte : Racine where
  texte := "/w"
  absolue := by decide
  sansChevron := List.all_iff_forall_prop.mp (by decide)

/-- A root of two characters is passed over: it leaves along with a marked address. -/
theorem racine_courte :
    ¬ ∀ (u : Caracteres) (barresDAbord : Bool) (messages : List Message)
        (politique : PolitiqueCloud) (racine : Option Racine),
      Respectee u 0 messages racine
        (examiner u barresDAbord messages politique (racines racine)) := by
  intro h
  have hdecision : examiner .ascii false [{ role := "user", content := some "/w a@b.cc" }] .caviarder
      (racines (some racineCourte)) =
        { verdict := .caviarde
          messages := [{ role := "user", content := some "/w [CAVIARDÉ]" }]
          constats := [⟨"adresse de courriel", .interne, "user", "…/w [CAVIARDÉ]…"⟩]
          raison := "envoyé après caviardage : 1 constat(s)" } := by
    decide +kernel
  have hpropre := (h .ascii false _ .caviarder (some racineCourte)).caviarde (by rw [hdecision])
  rw [hdecision] at hpropre
  have habsent := (hpropre.2 _ List.mem_cons_self _ rfl).racine _ rfl (Nat.zero_le _) _
    List.mem_cons_self
  exact habsent ⟨[], " [CAVIARDÉ]".toList, by decide⟩

end Envoi

end Hermes.PareFeu
