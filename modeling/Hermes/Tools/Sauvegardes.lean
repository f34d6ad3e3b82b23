import Hermes.Lib.Instant
import Hermes.Tools.FileTools

/-! # What the backups of the writes keep

A write that replaces a file first copies it under the bare name of the file and the second of the
clock.
-/

namespace Hermes.FileTools

open Lib Lib.Arborescence

/-- A call of `propose_write`, with what the clock reads in UTC when the backup is named. -/
structure Demande where
  path : String
  newContent : String
  backupDir : String
  maintenant : Horodatage

/-- `strftime("%Y%m%dT%H%M%SZ")`. -/
def horodate (h : Horodatage) : String :=
  let c := h.champs
  String.ofList (Horodatage.rempli 4 c.annee ++ (Horodatage.rempli 2 c.mois ++
    (Horodatage.rempli 2 c.jour ++ 'T' :: (Horodatage.rempli 2 c.heure ++
      (Horodatage.rempli 2 c.minute ++ (Horodatage.rempli 2 c.seconde ++ ['Z']))))))

def nomDeSauvegarde (d : Demande) : String :=
  (Chemin.lire d.path).name ++ "." ++ horodate d.maintenant ++ ".bak"

variable {ω : Type*}

structure Ecrasement (ω : Type*) where
  demande : Demande
  backupPath : Option String
  avant : ω

structure Histoire (ω : Type*) where
  arbre : Noeud ω
  ecrasements : List (Ecrasement ω)

def sauvegarde (m : Machine ω) (d : Demande) : Brut :=
  brut m (cheminDeSauvegarde d.path d.backupDir (horodate d.maintenant))

def ecrire (m : Machine ω) (t : Noeud ω) (d : Demande) : Noeud ω × Issue :=
  proposeWrite m t d.path d.newContent d.backupDir (horodate d.maintenant)

/-- What a call overwrites, with the path it answers for it. -/
def ecrase (m : Machine ω) (t : Noeud ω) (d : Demande) (r : FileWriteResult) :
    List (Ecrasement ω) :=
  match contenu t (operande m d.path) with
  | .ok avant => [⟨d, r.backupPath, avant⟩]
  | .error _ => []

def appliquer (m : Machine ω) (s : Histoire ω) (d : Demande) : Option (Histoire ω) :=
  match ecrire m s.arbre d with
  | (t', .ecriture r) =>
      if r.applied then some ⟨t', s.ecrasements ++ ecrase m s.arbre d r⟩ else none
  | _ => none

/-- What a call overwrote is read in the file named by the path it answered. -/
def Lisible (m : Machine ω) (t : Noeud ω) (e : Ecrasement ω) : Prop :=
  ∃ chemin, e.backupPath = some chemin ∧ contenu t (operande m chemin) = .ok e.avant

def Lisibles (m : Machine ω) (s : Histoire ω) : Prop :=
  ∀ e ∈ s.ecrasements, Lisible m s.arbre e

instance [DecidableEq ω] (m : Machine ω) (t : Noeud ω) (e : Ecrasement ω) :
    Decidable (Lisible m t e) :=
  match h : e.backupPath with
  | none => .isFalse (by simp [Lisible, h])
  | some chemin =>
      match hc : contenu t (operande m chemin) with
      | .error _ => .isFalse (by simp [Lisible, h, hc])
      | .ok avant => decidable_of_iff (avant = e.avant) (by simp [Lisible, h, hc])

instance [DecidableEq ω] (m : Machine ω) (s : Histoire ω) : Decidable (Lisibles m s) :=
  inferInstanceAs (Decidable (∀ e ∈ s.ecrasements, _))

def Tient (m : Machine ω) (t : Noeud ω) (d : Demande) : Prop :=
  ∃ octets, m.encode d.newContent = some octets ∧ contenu t (operande m d.path) = .ok octets

/-- The answer of a call says whether the target holds the new content. -/
def Confirme (m : Machine ω) (s : Histoire ω) (d : Demande) : Prop :=
  ∀ t' r, ecrire m s.arbre d = (t', .ecriture r) → (r.verified = true ↔ Tient m t' d)

/-- Nothing overwritten is lost and no answer is wrong, after any of the calls. -/
def Fidele (m : Machine ω) (s : Histoire ω) (demandes : List Demande) : Prop :=
  Always (appliquer m) (Lisibles m) s demandes ∧ Along (appliquer m) (Confirme m) s demandes

/-- One bare name in one second, in one directory of backups. -/
def MemeNom (m : Machine ω) (d d' : Demande) : Prop :=
  (operande m d.backupDir).lieu = (operande m d'.backupDir).lieu ∧
    (Chemin.lire d.path).name = (Chemin.lire d'.path).name ∧
    horodate d.maintenant = horodate d'.maintenant

/-- No call takes the name of an earlier backup for another content, writes another content in
an earlier backup, finds a directory where its backup is to stand, or writes a carriage
return. -/
structure Sure (m : Machine ω) (s : Histoire ω) (d : Demande) : Prop where
  nom : ∀ avant, contenu s.arbre (operande m d.path) = .ok avant →
    ∀ e ∈ s.ecrasements, MemeNom m e.demande d → e.avant = avant
  cible : ∀ e ∈ s.ecrasements, (sauvegarde m e.demande).lieu = (operande m d.path).lieu →
    m.encode d.newContent = some e.avant
  dossier : existe s.arbre (operande m d.path) = true →
    estDossier (mkdir s.arbre (operande m d.backupDir)).1 (sauvegarde m d) = false
  texte : '\r' ∉ d.newContent.toList

/-- What is written in text mode is read back with the ends of lines of the reading. -/
def ModeTexte (m : Machine ω) : Prop :=
  ∀ texte octets, m.encode texte = some octets →
    m.decode octets = some (String.ofList (Texte.universel texte.toList))

section Noms

variable {m : Machine ω} {d d' : Demande}

theorem length_horodate (h : Horodatage) : (horodate h).toList.length = 16 := by
  simp [horodate]

theorem slash_notMem_rempli (k n : Nat) : '/' ∉ Horodatage.rempli k n := by
  induction k with
  | zero => exact List.not_mem_nil
  | succ k ih =>
      have hchiffre : ∀ a < 10, '/' ≠ Nat.digitChar a := by decide
      rw [Horodatage.rempli, List.mem_cons, not_or]
      exact ⟨hchiffre _ (Nat.mod_lt _ (by omega)), ih⟩

theorem slash_notMem_horodate (h : Horodatage) : '/' ∉ (horodate h).toList := by
  simp [horodate, slash_notMem_rempli]

theorem toList_nomDeSauvegarde (d : Demande) :
    (nomDeSauvegarde d).toList =
      (Chemin.lire d.path).name.toList ++
        ('.' :: (horodate d.maintenant).toList ++ ".bak".toList) := by
  simp [nomDeSauvegarde]

theorem length_nomDeSauvegarde (d : Demande) : 20 ≤ (nomDeSauvegarde d).toList.length := by
  have hbak : ".bak".toList.length = 4 := rfl
  rw [toList_nomDeSauvegarde, List.length_append, List.length_append, List.length_cons,
    length_horodate, hbak]
  omega

theorem nomDeSauvegarde_ne {x : String} (hx : x.toList.length < 20) (d : Demande) :
    nomDeSauvegarde d ≠ x := by
  intro heq
  have hlongueur := length_nomDeSauvegarde d
  rw [heq] at hlongueur
  omega

theorem lire_nomDeSauvegarde (d : Demande) :
    Chemin.lire (nomDeSauvegarde d) = ⟨"", [nomDeSauvegarde d]⟩ := by
  refine Chemin.lire_nom ⟨nomDeSauvegarde_ne (by decide) d, nomDeSauvegarde_ne (by decide) d, ?_⟩
  have hname := Chemin.slash_notMem_name d.path
  have hstamp := slash_notMem_horodate d.maintenant
  rw [toList_nomDeSauvegarde]
  simp [hname, hstamp]

theorem cheminDeSauvegarde_eq (d : Demande) :
    cheminDeSauvegarde d.path d.backupDir (horodate d.maintenant) =
      { Chemin.lire d.backupDir with
        parts := (Chemin.lire d.backupDir).parts ++ [nomDeSauvegarde d] } := by
  have hnom : (Chemin.lire d.path).name ++ "." ++ horodate d.maintenant ++ ".bak" =
      nomDeSauvegarde d := rfl
  rw [cheminDeSauvegarde, hnom, lire_nomDeSauvegarde, Chemin.joindre, if_pos rfl]

theorem lieu_sauvegarde (m : Machine ω) (d : Demande) :
    (sauvegarde m d).lieu = (operande m d.backupDir).lieu ++ [nomDeSauvegarde d] := by
  have hremontee : nomDeSauvegarde d ≠ ".." := nomDeSauvegarde_ne (by decide) d
  unfold sauvegarde operande
  rw [cheminDeSauvegarde_eq]
  unfold brut
  dsimp only
  split
  · simp [Brut.lieu, hremontee]
  · simp [Brut.lieu, hremontee]

theorem nomDeSauvegarde_inj :
    nomDeSauvegarde d = nomDeSauvegarde d' ↔
      (Chemin.lire d.path).name = (Chemin.lire d'.path).name ∧
        horodate d.maintenant = horodate d'.maintenant := by
  constructor
  · intro h
    have hlistes := congrArg String.toList h
    rw [toList_nomDeSauvegarde, toList_nomDeSauvegarde] at hlistes
    obtain ⟨hname, hfin⟩ := List.append_inj' hlistes (by simp [length_horodate])
    have hstamp := List.append_cancel_right hfin
    exact ⟨String.toList_inj.mp hname, String.toList_inj.mp (List.cons.inj hstamp).2⟩
  · intro h
    rw [nomDeSauvegarde, nomDeSauvegarde, h.1, h.2]

theorem lieu_sauvegarde_eq_iff :
    (sauvegarde m d).lieu = (sauvegarde m d').lieu ↔ MemeNom m d d' := by
  rw [lieu_sauvegarde, lieu_sauvegarde, MemeNom, ← nomDeSauvegarde_inj]
  constructor
  · intro h
    obtain ⟨hdossier, hnom⟩ := List.append_inj' h rfl
    exact ⟨hdossier, List.singleton_inj.mp hnom⟩
  · intro h
    rw [h.1, h.2]

theorem operande_texte (m : Machine ω) (d : Demande) :
    operande m (cheminDeSauvegarde d.path d.backupDir (horodate d.maintenant)).texte =
      sauvegarde m d := by
  have hnormal : Chemin.Normal (cheminDeSauvegarde d.path d.backupDir (horodate d.maintenant)) :=
    (Chemin.normal_lire d.backupDir).joindre (Chemin.normal_lire _)
  rw [operande, Chemin.lire_texte hnormal, sauvegarde]

end Noms

section Appel

variable {m : Machine ω} {t t' : Noeud ω} {d : Demande}

theorem sauvegarder_cases {t₁ : Noeud ω} {backupPath : Option String}
    (h : sauvegarder m t d.path d.backupDir (horodate d.maintenant) = (t₁, .ok backupPath)) :
    (existe t (operande m d.path) = false ∧ t₁ = t ∧ backupPath = none) ∨
      (existe t (operande m d.path) = true ∧
        backupPath =
          some (cheminDeSauvegarde d.path d.backupDir (horodate d.maintenant)).texte ∧
        copy2 (mkdir t (operande m d.backupDir)).1 (operande m d.path) (sauvegarde m d) =
          .ok t₁) := by
  unfold sauvegarder at h
  split at h
  · next hexiste =>
      right
      split at h
      · cases h
      · split at h
        · cases h
        · next t₀ hmkdir =>
            dsimp only at h
            split at h
            · cases h
            · next hcopie =>
                cases h
                rw [hmkdir]
                exact ⟨hexiste, rfl, hcopie⟩
  · next hexiste =>
      left
      cases h
      exact ⟨Bool.eq_false_of_not_eq_true hexiste, rfl, rfl⟩

theorem ecrire_applique {r : FileWriteResult} (h : ecrire m t d = (t', .ecriture r))
    (happlique : r.applied = true) :
    ∃ t₁ t₂ octets relu avant,
      lireSiExiste m t (operande m d.path) = .ok avant ∧
      sauvegarder m t d.path d.backupDir (horodate d.maintenant) = (t₁, .ok r.backupPath) ∧
      Croit t₁ t₂ ∧ ouvrir t₂ (operande m d.path) = .ok (operande m d.path).lieu ∧
      m.encode d.newContent = some octets ∧
      t' = poser t₂ (operande m d.path).lieu (.fichier octets) ∧
      lireSiExiste m t' (operande m d.path) = .ok relu ∧
      (r.verified = true ↔ existe t' (operande m d.path) = true ∧ relu = d.newContent) := by
  unfold ecrire proposeWrite at h
  split at h
  · cases h
  · cases h
    cases happlique
  · dsimp only at h
    split at h
    · cases h
    · next avant hlu =>
        split at h
        · cases h
        · next t₁ backupPath hsauvegarde =>
            split at h
            · cases h
            · next t₂ hmkdir =>
                have hcroit : Croit t₁ t₂ := by
                  have hcroit := croit_mkdir t₁ (operande m d.path).parent
                  rwa [hmkdir] at hcroit
                unfold ecrireTexte at h
                cases hp : ouvrir t₂ (operande m d.path) with
                | error e =>
                    rw [hp] at h
                    cases h
                | ok p =>
                    have hlieu := lieu_of_ouvrir hp
                    rw [hp] at h
                    dsimp only at h
                    cases hencode : m.encode d.newContent with
                    | none =>
                        rw [hencode] at h
                        cases h
                    | some octets =>
                        rw [hencode] at h
                        dsimp only at h
                        split at h
                        · cases h
                        · next relu hrelu =>
                            cases h
                            refine ⟨t₁, t₂, octets, relu, avant, hlu, hsauvegarde, hcroit,
                              hlieu ▸ hp, rfl, by rw [hlieu], hrelu, ?_⟩
                            rw [Bool.and_eq_true, decide_eq_true_eq]

theorem lireSiExiste_of_contenu {b : Brut} {octets : ω} {relu : String}
    (hc : contenu t b = .ok octets) :
    lireSiExiste m t b = .ok relu ↔ m.decode octets = some relu := by
  obtain ⟨hb, hfichier⟩ := contenu_eq_ok.mp hc
  have hexiste : existe t b = true := by simp [existe, stat, hb, hfichier]
  rw [lireSiExiste, if_pos hexiste, lireTexte, hc]
  dsimp only
  cases m.decode octets with
  | none => simp
  | some texte => simp

theorem existe_of_contenu {b : Brut} {octets : ω} (hc : contenu t b = .ok octets) :
    existe t b = true := by
  obtain ⟨hb, hfichier⟩ := contenu_eq_ok.mp hc
  simp [existe, stat, hb, hfichier]

theorem contenu_of_lireSiExiste {b : Brut} {texte : String} (hexiste : existe t b = true)
    (h : lireSiExiste m t b = .ok texte) : ∃ octets, contenu t b = .ok octets := by
  rw [lireSiExiste, if_pos hexiste, lireTexte] at h
  cases hc : contenu t b with
  | error e =>
      rw [hc] at h
      cases h
  | ok octets => exact ⟨octets, rfl⟩

end Appel

section Etape

variable {m : Machine ω} {s s' : Histoire ω} {d : Demande}

def Nomme (e : Ecrasement ω) : Prop :=
  e.backupPath = some (cheminDeSauvegarde e.demande.path e.demande.backupDir
    (horodate e.demande.maintenant)).texte

theorem lisible_iff {t : Noeud ω} {e : Ecrasement ω} (h : Nomme e) :
    Lisible m t e ↔ contenu t (sauvegarde m e.demande) = .ok e.avant := by
  unfold Lisible
  constructor
  · intro hlisible
    obtain ⟨chemin, hchemin, hc⟩ := hlisible
    rw [h, Option.some.injEq] at hchemin
    rwa [← hchemin, operande_texte] at hc
  · intro hc
    refine ⟨_, h, ?_⟩
    rwa [operande_texte]

theorem appliquer_cases (hm : ModeTexte m) (h : appliquer m s d = some s') :
    ∃ t₂ octets, ouvrir t₂ (operande m d.path) = .ok (operande m d.path).lieu ∧
      m.encode d.newContent = some octets ∧
      s'.arbre = poser t₂ (operande m d.path).lieu (.fichier octets) ∧
      (Confirme m s d ↔ '\r' ∉ d.newContent.toList) ∧
      ((existe s.arbre (operande m d.path) = false ∧ s'.ecrasements = s.ecrasements ∧
          Croit s.arbre t₂) ∨
        ∃ avant t₁, contenu s.arbre (operande m d.path) = .ok avant ∧
          s'.ecrasements = s.ecrasements ++ [⟨d, some (cheminDeSauvegarde d.path d.backupDir
            (horodate d.maintenant)).texte, avant⟩] ∧
          copy2 (mkdir s.arbre (operande m d.backupDir)).1 (operande m d.path) (sauvegarde m d) =
            .ok t₁ ∧ Croit t₁ t₂) := by
  unfold appliquer at h
  split at h
  · next t' r hecrire =>
      split at h
      · next happlique =>
          cases h
          obtain ⟨t₁, t₂, octets, relu, avant, hlu, hsauvegarde, hcroit, hp, hencode, hecrit, hrelu,
            hverified⟩ := ecrire_applique hecrire happlique
          have hcontenu : contenu t' (operande m d.path) = .ok octets := by
            rw [hecrit]
            exact contenu_ecrire hp octets
          refine ⟨t₂, octets, hp, hencode, hecrit, ?_, ?_⟩
          · have htient : Tient m t' d := ⟨octets, hencode, hcontenu⟩
            have hdecode := (lireSiExiste_of_contenu hcontenu).mp hrelu
            rw [hm _ _ hencode, Option.some.injEq] at hdecode
            have hvrai : r.verified = true ↔ '\r' ∉ d.newContent.toList := by
              rw [hverified, ← hdecode, ← Texte.universel_eq_self_iff, ← String.toList_inj,
                String.toList_ofList]
              exact and_iff_right (existe_of_contenu hcontenu)
            rw [← hvrai]
            constructor
            · intro hconfirme
              exact (hconfirme t' r hecrire).mpr htient
            · intro hr t'' r' hecrire'
              rw [hecrire] at hecrire'
              cases hecrire'
              exact iff_of_true hr htient
          · rcases sauvegarder_cases hsauvegarde with ⟨hexiste, rfl, -⟩ | ⟨hexiste, hchemin, hcopie⟩
            · left
              refine ⟨hexiste, ?_, hcroit⟩
              have hrien : ecrase m s.arbre d r = [] := by
                unfold ecrase
                split
                · next hc =>
                    rw [existe_of_contenu hc] at hexiste
                    cases hexiste
                · rfl
              rw [hrien, List.append_nil]
            · right
              obtain ⟨octetsAvant, hc⟩ := contenu_of_lireSiExiste hexiste hlu
              refine ⟨octetsAvant, t₁, hc, ?_, hcopie, hcroit⟩
              rw [ecrase, hc, ← hchemin]
      · cases h
  · cases h

/-- A history that the steps have built and in which nothing was lost. -/
structure Tenue (m : Machine ω) (s : Histoire ω) : Prop where
  nommes : ∀ e ∈ s.ecrasements, Nomme e
  lisibles : ∀ e ∈ s.ecrasements, contenu s.arbre (sauvegarde m e.demande) = .ok e.avant

theorem tenue_iff_lisibles (h : ∀ e ∈ s.ecrasements, Nomme e) : Tenue m s ↔ Lisibles m s := by
  have hlisible : ∀ e ∈ s.ecrasements, _ := fun e he => lisible_iff (m := m) (t := s.arbre) (h e he)
  constructor
  · intro htenue e he
    exact (hlisible e he).mpr (htenue.lisibles e he)
  · intro hlisibles
    exact ⟨h, fun e he => (hlisible e he).mp (hlisibles e he)⟩

theorem nommes_step (hm : ModeTexte m) (h : ∀ e ∈ s.ecrasements, Nomme e)
    (hs : appliquer m s d = some s') : ∀ e ∈ s'.ecrasements, Nomme e := by
  obtain ⟨t₂, octets, -, -, -, -, hcas⟩ := appliquer_cases hm hs
  rcases hcas with ⟨-, hmemes, -⟩ | ⟨avant, t₁, -, hplus, -⟩
  · rw [hmemes]
    exact h
  · rw [hplus]
    intro e he
    cases List.mem_append.mp he with
    | inl he => exact h e he
    | inr he =>
        rw [List.mem_singleton.mp he]
        rfl

theorem tenue_step (hm : ModeTexte m) (h : Tenue m s) (hs : appliquer m s d = some s')
    (hsure : Sure m s d) : Tenue m s' := by
  refine ⟨nommes_step hm h.nommes hs, ?_⟩
  obtain ⟨t₂, octets, hp, hencode, hecrit, -, hcas⟩ := appliquer_cases hm hs
  -- what is readable before the write is readable after it, unless the write takes its place
  have hecriture : ∀ e ∈ s.ecrasements, contenu t₂ (sauvegarde m e.demande) = .ok e.avant →
      contenu s'.arbre (sauvegarde m e.demande) = .ok e.avant := by
    intro e he hc
    rw [hecrit, contenu_ecrire_iff hp hc]
    intro hlieu
    exact Option.some.inj (hencode.symm.trans (hsure.cible e he hlieu))
  rcases hcas with ⟨-, hmemes, hcroit⟩ | ⟨avant, t₁, havant, hplus, hcopie, hcroit⟩
  · rw [hmemes]
    intro e he
    exact hecriture e he (hcroit.contenu (h.lisibles e he))
  · have hdossier := hsure.dossier (existe_of_contenu havant)
    have hmkdir := croit_mkdir s.arbre (operande m d.backupDir)
    obtain ⟨c, hc, hq, hcopie, hdistincts⟩ := copy2_eq_ok hcopie hdossier
    rw [hmkdir.contenu havant, Except.ok.injEq] at hc
    rw [← hc] at hcopie
    rw [hplus]
    intro e he
    cases List.mem_append.mp he with
    | inl he =>
        refine hecriture e he (hcroit.contenu ?_)
        rw [hcopie, contenu_ecrire_iff hq (hmkdir.contenu (h.lisibles e he))]
        intro hlieu
        exact (hsure.nom avant havant e he (lieu_sauvegarde_eq_iff.mp hlieu)).symm
    | inr he =>
        rw [List.mem_singleton.mp he]
        have hcopiee : contenu t₂ (sauvegarde m d) = .ok avant := by
          refine hcroit.contenu ?_
          rw [hcopie]
          exact contenu_ecrire hq avant
        rw [hecrit, contenu_ecrire_iff hp hcopiee]
        exact fun hlieu => absurd hlieu.symm hdistincts

theorem sure_of_tenue (hm : ModeTexte m) (hs : appliquer m s d = some s') (h' : Tenue m s')
    (hconfirme : Confirme m s d) : Sure m s d := by
  obtain ⟨t₂, octets, hp, hencode, hecrit, hvrai, hcas⟩ := appliquer_cases hm hs
  have hdedans : ∀ e ∈ s.ecrasements, e ∈ s'.ecrasements := by
    intro e he
    rcases hcas with ⟨-, hmemes, -⟩ | ⟨avant, t₁, -, hplus, -⟩
    · rwa [hmemes]
    · rw [hplus]
      exact List.mem_append_left _ he
  refine ⟨?_, ?_, ?_, hvrai.mp hconfirme⟩
  · intro avant havant e he hnom
    rcases hcas with ⟨hexiste, -⟩ | ⟨avant', t₁, havant', hplus, -⟩
    · rw [existe_of_contenu havant] at hexiste
      cases hexiste
    · rw [havant, Except.ok.injEq] at havant'
      have hancien := h'.lisibles e (hdedans e he)
      have hnouveau := h'.lisibles _ (hplus ▸ List.mem_append_right _ List.mem_cons_self)
      rw [havant']
      exact contenu_unique (lieu_sauvegarde_eq_iff.mpr hnom) hancien hnouveau
  · intro e he hlieu
    have hancien := h'.lisibles e (hdedans e he)
    have hcible : contenu s'.arbre (operande m d.path) = .ok octets := by
      rw [hecrit]
      exact contenu_ecrire hp octets
    rw [hencode, contenu_unique hlieu hancien hcible]
  · intro hexiste
    rcases hcas with ⟨habsent, -⟩ | ⟨avant, t₁, -, hplus, hcopie, hcroit⟩
    · rw [hexiste] at habsent
      cases habsent
    · by_contra hdossier
      have hdossiers : Dossiers (mkdir s.arbre (operande m d.backupDir)).1 s'.arbre := by
        rw [hecrit]
        exact ((dossiers_copy2 hcopie).trans hcroit.dossiers).trans (dossiers_ecrire hp octets)
      have hnouveau := h'.lisibles _ (hplus ▸ List.mem_append_right _ List.mem_cons_self)
      have hreste := hdossiers.estDossier (Bool.eq_true_of_not_eq_false hdossier)
      exact contenu_ne_of_estDossier hreste _ hnouveau

theorem confirme_of_sure (hm : ModeTexte m) (hs : appliquer m s d = some s')
    (hsure : Sure m s d) : Confirme m s d := by
  obtain ⟨t₂, octets, -, -, -, hvrai, -⟩ := appliquer_cases hm hs
  exact hvrai.mpr hsure.texte

end Etape

theorem fidele_of_tenue {m : Machine ω} (hm : ModeTexte m) {s : Histoire ω} (h : Tenue m s)
    (demandes : List Demande) :
    Fidele m s demandes ↔ Along (appliquer m) (Sure m) s demandes := by
  unfold Fidele
  induction demandes generalizing s with
  | nil => exact iff_of_true ⟨(tenue_iff_lisibles h.nommes).mp h, trivial⟩ trivial
  | cons d demandes ih =>
      constructor
      · intro hfidele s' hs
        obtain ⟨⟨-, halways⟩, halong⟩ := hfidele
        obtain ⟨hconfirme, hsuite⟩ := halong s' hs
        have htenue : Tenue m s' :=
          (tenue_iff_lisibles (nommes_step hm h.nommes hs)).mpr (halways s' hs).head
        exact ⟨sure_of_tenue hm hs htenue hconfirme, (ih htenue).mp ⟨halways s' hs, hsuite⟩⟩
      · intro halong
        refine ⟨⟨(tenue_iff_lisibles h.nommes).mp h, fun s' hs => ?_⟩, fun s' hs => ?_⟩
        · obtain ⟨hsure, hsuite⟩ := halong s' hs
          exact ((ih (tenue_step hm h hs hsure)).mpr hsuite).1
        · obtain ⟨hsure, hsuite⟩ := halong s' hs
          exact ⟨confirme_of_sure hm hs hsure, ((ih (tenue_step hm h hs hsure)).mpr hsuite).2⟩

/-- A run of writes keeps what it overwrites and answers the truth exactly when each of its steps
meets the condition. -/
theorem sauvegardes_fidele_iff (m : Machine ω) (hm : ModeTexte m) (t : Noeud ω)
    (demandes : List Demande) :
    Fidele m ⟨t, []⟩ demandes ↔ Along (appliquer m) (Sure m) ⟨t, []⟩ demandes := by
  refine fidele_of_tenue hm ⟨fun e he => ?_, fun e he => ?_⟩ demandes
  · cases he
  · cases he

def machineDeTexte : Machine String :=
  { machineTemoin with
    decode := fun octets => some (String.ofList (Texte.universel octets.toList)) }

theorem modeTexte_machineDeTexte : ModeTexte machineDeTexte := by
  intro texte octets h
  cases h
  rfl

def midi : Horodatage := ⟨⟨2026, 1, 2, 12, 0, 0, 0, some 0⟩, by decide⟩

def memeSeconde : List Demande :=
  [⟨"w/notes.md", "un", "sauvegardes", midi⟩, ⟨"w/notes.md", "deux", "sauvegardes", midi⟩]

theorem sauvegardes_fidele_iff_memeSeconde :
    Fidele machineDeTexte ⟨arbreTemoin, []⟩ memeSeconde ↔
      Along (appliquer machineDeTexte) (Sure machineDeTexte) ⟨arbreTemoin, []⟩ memeSeconde :=
  sauvegardes_fidele_iff machineDeTexte modeTexte_machineDeTexte arbreTemoin memeSeconde

def Croissantes (demandes : List Demande) : Prop :=
  demandes.Pairwise fun d d' => d.maintenant.champs.instant ≤ d'.maintenant.champs.instant

/-- The second backup takes the place of the first one. -/
theorem sauvegarde_perdue :
    ¬ ∀ (m : Machine String) (t : Noeud String) (demandes : List Demande), ModeTexte m →
        Croissantes demandes →
      (∀ s, run (appliquer m) ⟨t, []⟩ demandes = some s → Lisibles m s) ∧
        Along (appliquer m) (Confirme m) ⟨t, []⟩ demandes := by
  intro h
  have hclock : Croissantes memeSeconde := by
    unfold Croissantes
    decide +kernel
  have hlisibles := (h machineDeTexte arbreTemoin memeSeconde modeTexte_machineDeTexte hclock).1
  have hfin : (run (appliquer machineDeTexte) ⟨arbreTemoin, []⟩ memeSeconde).map
      (fun s => decide (Lisibles machineDeTexte s)) = some false := by
    decide +kernel
  obtain ⟨s, hrun, hperdu⟩ := Option.map_eq_some_iff.mp hfin
  exact of_decide_eq_false hperdu (hlisibles s hrun)

end Hermes.FileTools
