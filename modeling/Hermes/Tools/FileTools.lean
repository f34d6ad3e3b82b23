import Hermes.Lib.Arborescence
import Hermes.Lib.Chemin
import Hermes.Lib.Runs
import Hermes.Lib.Texte

/-! # File tools

The operations agents have on files, under a policy that allows every action.
-/

namespace Hermes.FileTools

open Lib Lib.Arborescence

structure Machine (ω : Type*) where
  cwd : Lieu
  /-- `os.path.expanduser` of a first part such as `~`, when it finds a home. -/
  home : String → Option String
  /-- `read_text(encoding="utf-8")`, on the bytes. -/
  decode : ω → Option String
  encode : String → Option ω
  vide : ω
  concat : ω → ω → ω
  reason : String

inductive Exception where
  | os (e : Erreur)
  | unicode
  | valueError
  | runtimeError
  | fileNotFound (message : String)
  | fichierProtege (message : String)
  deriving DecidableEq

structure FileWriteResult where
  applied : Bool
  verdict : String
  reason : String
  backupPath : Option String := none
  verified : Bool
  deriving DecidableEq

structure FileOpResult where
  success : Bool
  operation : String
  path : String
  verdict : String
  reason : String
  verified : Bool
  deriving DecidableEq

inductive Issue where
  | ecriture (r : FileWriteResult)
  | operation (r : FileOpResult)
  | exception (e : Exception)
  deriving DecidableEq

def fichierProteges : String := ".hermes/proteges.txt"

/-- A null character: the system takes no such path. -/
def nul (s : String) : Bool := s.toList.contains (Char.ofNat 0)

variable {ω : Type*}

def brut (m : Machine ω) (c : Chemin) : Brut :=
  if c.racine = "" then ⟨m.cwd, c.parts⟩ else ⟨[], c.parts⟩

def operande (m : Machine ω) (path : String) : Brut := brut m (Chemin.lire path)

def tilde (c : Chemin) : Bool :=
  match c.racine, c.parts with
  | "", part :: _ => part.startsWith "~"
  | _, _ => false

def expanduser (m : Machine ω) (c : Chemin) : Except Exception Chemin :=
  if tilde c then
    match m.home (c.parts.headD "") with
    | none => .error .runtimeError
    | some home => .ok ((Chemin.lire home).joindre ⟨"", c.parts.tail⟩)
  else .ok c

def lignesRetenues (texte : String) : List String :=
  ((Texte.splitlines texte).map Texte.strip).filter fun ligne =>
    ligne ≠ "" ∧ !ligne.startsWith "#"

/-- The documents that the list of the directory names, if there is a list. -/
def listees (m : Machine ω) (t : Noeud ω) (parent : Lieu) : Option (Except Exception (List Lieu)) :=
  match voir t (parent ++ (Chemin.lire fichierProteges).parts) with
  | some (.fichier octets) =>
      match m.decode octets with
      | none => some (.error .unicode)
      | some texte =>
          if (lignesRetenues texte).any nul then some (.error .valueError)
          else some (.ok ((lignesRetenues texte).map fun ligne =>
            (brut { m with cwd := parent } (Chemin.lire ligne)).lieu))
  | _ => none

def proteges (m : Machine ω) (t : Noeud ω) : List Lieu → Except Exception (List Lieu)
  | [] => .ok []
  | parent :: parents =>
      match listees m t parent with
      | some documents => documents
      | none => proteges m t parents

/-- The directory and those above it, the nearest first. -/
def remontee (chemin : Lieu) : List Lieu := chemin.inits.reverse

def estProtege (m : Machine ω) (t : Noeud ω) (path : String) : Except Exception Bool :=
  match expanduser m (Chemin.lire path) with
  | .error e => .error e
  | .ok c =>
      if nul path then .error .valueError
      else
        let cible := (brut m c).lieu
        match proteges m t (remontee cible.dropLast) with
        | .error e => .error e
        | .ok documents => .ok (cible ∈ documents)

def raisonProtege : String :=
  "Ce fichier definit le travail (voir " ++ fichierProteges ++
    ") et n'est pas modifiable par lui. Lis-le, ne le reecris pas."

def lireTexte (m : Machine ω) (t : Noeud ω) (b : Brut) : Except Exception String :=
  match contenu t b with
  | .error e => .error (.os e)
  | .ok octets =>
      match m.decode octets with
      | none => .error .unicode
      | some texte => .ok texte

def lireSiExiste (m : Machine ω) (t : Noeud ω) (b : Brut) : Except Exception String :=
  if existe t b then lireTexte m t b else .ok ""

/-- `write_text`: the file is truncated before the text is encoded. -/
def ecrireTexte (m : Machine ω) (t : Noeud ω) (b : Brut) (texte : String) :
    Noeud ω × Option Exception :=
  match ouvrir t b with
  | .error e => (t, some (.os e))
  | .ok p =>
      match m.encode texte with
      | none => (poser t p (.fichier m.vide), some .unicode)
      | some octets => (poser t p (.fichier octets), none)

def dejaEcrit (m : Machine ω) (t : Noeud ω) (p : Lieu) : ω :=
  match voir t p with
  | some (.fichier octets) => octets
  | _ => m.vide

/-- `open("a")` and one write. -/
def ajouterTexte (m : Machine ω) (t : Noeud ω) (b : Brut) (texte : String) :
    Noeud ω × Option Exception :=
  match ouvrir t b with
  | .error e => (t, some (.os e))
  | .ok p =>
      match m.encode texte with
      | none => (poser t p (.fichier (dejaEcrit m t p)), some .unicode)
      | some octets => (poser t p (.fichier (m.concat (dejaEcrit m t p) octets)), none)

def cheminDeSauvegarde (path backupDir stamp : String) : Chemin :=
  (Chemin.lire backupDir).joindre
    (Chemin.lire ((Chemin.lire path).name ++ "." ++ stamp ++ ".bak"))

def sauvegarder (m : Machine ω) (t : Noeud ω) (path backupDir stamp : String) :
    Noeud ω × Except Exception (Option String) :=
  if existe t (operande m path) then
    if nul backupDir then (t, .error .valueError)
    else
      match mkdir t (operande m backupDir) with
      | (t', some e) => (t', .error (.os e))
      | (t', none) =>
          let sauvegarde := cheminDeSauvegarde path backupDir stamp
          match copy2 t' (operande m path) (brut m sauvegarde) with
          | .error e => (t', .error (.os e))
          | .ok t'' => (t'', .ok (some sauvegarde.texte))
  else (t, .ok none)

def proposeWrite (m : Machine ω) (t : Noeud ω) (path newContent backupDir stamp : String) :
    Noeud ω × Issue :=
  match estProtege m t path with
  | .error e => (t, .exception e)
  | .ok true =>
      (t, .ecriture { applied := false, verdict := "deny", reason := raisonProtege,
                      verified := false })
  | .ok false =>
      let target := operande m path
      match lireSiExiste m t target with
      | .error e => (t, .exception e)
      | .ok _ =>
          match sauvegarder m t path backupDir stamp with
          | (t', .error e) => (t', .exception e)
          | (t', .ok backupPath) =>
              match mkdir t' target.parent with
              | (t', some e) => (t', .exception (.os e))
              | (t', none) =>
                  match ecrireTexte m t' target newContent with
                  | (t', some e) => (t', .exception e)
                  | (t', none) =>
                      match lireSiExiste m t' target with
                      | .error e => (t', .exception e)
                      | .ok relu =>
                          (t', .ecriture {
                            applied := true, verdict := "allow", reason := m.reason, backupPath,
                            verified := existe t' target && relu = newContent })

def refuse (operation path : String) : Issue :=
  .operation { success := false, operation, path, verdict := "deny", reason := raisonProtege,
               verified := false }

def reussi (m : Machine ω) (operation path : String) (verified : Bool) : Issue :=
  .operation { success := true, operation, path, verdict := "allow", reason := m.reason,
               verified }

def createDirectory (m : Machine ω) (t : Noeud ω) (path : String) : Noeud ω × Issue :=
  match estProtege m t path with
  | .error e => (t, .exception e)
  | .ok true => (t, refuse "create_directory" path)
  | .ok false =>
      match mkdir t (operande m path) with
      | (t', some e) => (t', .exception (.os e))
      | (t', none) => (t', reussi m "mkdir" path (estDossier t' (operande m path)))

def append (m : Machine ω) (t : Noeud ω) (path content : String) : Noeud ω × Issue :=
  match estProtege m t path with
  | .error e => (t, .exception e)
  | .ok true => (t, refuse "append" path)
  | .ok false =>
      let target := operande m path
      match lireSiExiste m t target with
      | .error e => (t, .exception e)
      | .ok before =>
          match mkdir t target.parent with
          | (t', some e) => (t', .exception (.os e))
          | (t', none) =>
              match ajouterTexte m t' target content with
              | (t', some e) => (t', .exception e)
              | (t', none) =>
                  match lireSiExiste m t' target with
                  | .error e => (t', .exception e)
                  | .ok after => (t', reussi m "append" path (after = before ++ content))

/-- `path.exists()`, which answers no to a path the system does not take. -/
def pathExists (m : Machine ω) (t : Noeud ω) (path : String) : Bool :=
  !nul path && existe t (operande m path)

/-- Both ends hold the same bytes, or a read raises. -/
def memesOctets [DecidableEq ω] (t : Noeud ω) (src dst : Brut) : Except Exception Bool :=
  if existe t dst then
    match contenu t dst, contenu t src with
    | .ok a, .ok b => .ok (a = b)
    | .error e, _ => .error (.os e)
    | _, .error e => .error (.os e)
  else .ok false

def copy [DecidableEq ω] (m : Machine ω) (t : Noeud ω) (source destination : String) :
    Noeud ω × Issue :=
  match estProtege m t destination with
  | .error e => (t, .exception e)
  | .ok true =>
      (t, .exception (.fichierProtege
        (destination ++ " definit le travail : la copie ecraserait un document d'entree")))
  | .ok false =>
      if pathExists m t source then
        let src := operande m source
        let dst := operande m destination
        match mkdir t dst.parent with
        | (t', some e) => (t', .exception (.os e))
        | (t', none) =>
            match copy2 t' src dst with
            | .error e => (t', .exception (.os e))
            | .ok t'' =>
                match memesOctets t'' src dst with
                | .error e => (t'', .exception e)
                | .ok verified => (t'', reussi m "copy" destination verified)
      else (t, .exception (.fileNotFound ("No such file: " ++ source)))

def move (m : Machine ω) (t : Noeud ω) (source destination : String) : Noeud ω × Issue :=
  match estProtege m t source with
  | .error e => (t, .exception e)
  | .ok true => (t, refuse "move" source)
  | .ok false =>
      match estProtege m t destination with
      | .error e => (t, .exception e)
      | .ok true => (t, refuse "move" destination)
      | .ok false =>
          if pathExists m t source then
            let src := operande m source
            let dst := operande m destination
            match mkdir t dst.parent with
            | (t', some e) => (t', .exception (.os e))
            | (t', none) =>
                match deplacer t' src dst with
                | (t'', some e) => (t'', .exception (.os e))
                | (t'', none) =>
                    (t'', reussi m "move" destination (!existe t'' src && existe t'' dst))
          else (t, .exception (.fileNotFound ("No such file: " ++ source)))

def delete (m : Machine ω) (t : Noeud ω) (path : String) : Noeud ω × Issue :=
  match estProtege m t path with
  | .error e => (t, .exception e)
  | .ok true => (t, refuse "delete" path)
  | .ok false =>
      let target := operande m path
      match stat t target with
      | none =>
          (t, .operation { success := false, operation := "delete", path, verdict := "allow",
                           reason := "Path does not exist.", verified := false })
      | some .dossier =>
          match rmtree t target with
          | (t', some e) => (t', .exception (.os e))
          | (t', none) => (t', reussi m "delete" path (!existe t' target))
      | some (.fichier _) =>
          match unlink t target with
          | .error e => (t, .exception (.os e))
          | .ok t' => (t', reussi m "delete" path (!existe t' target))

inductive Operation where
  | proposeWrite (path newContent backupDir stamp : String)
  | createDirectory (path : String)
  | append (path content : String)
  | copy (source destination : String)
  | move (source destination : String)
  | delete (path : String)
  deriving DecidableEq

def executer [DecidableEq ω] (m : Machine ω) (t : Noeud ω) : Operation → Noeud ω × Issue
  | .proposeWrite path newContent backupDir stamp =>
      proposeWrite m t path newContent backupDir stamp
  | .createDirectory path => createDirectory m t path
  | .append path content => append m t path content
  | .copy source destination => copy m t source destination
  | .move source destination => move m t source destination
  | .delete path => delete m t path

def pas [DecidableEq ω] (m : Machine ω) (t : Noeud ω) (op : Operation) : Option (Noeud ω) :=
  some (executer m t op).1

/-- The nearest list above the document names it, or cannot be read. -/
def listee (m : Machine ω) (t : Noeud ω) (f : Lieu) : Bool :=
  match proteges m t (remontee f.dropLast) with
  | .ok documents => f ∈ documents
  | .error _ => true

/-- An operand that leads to the document is spelled without a home directory, and the document
is still listed. -/
def Reconnu (m : Machine ω) (t : Noeud ω) (f : Lieu) (path : String) : Prop :=
  (operande m path).lieu = f → tilde (Chemin.lire path) = false ∧ listee m t f = true

/-- What is taken away is neither above the document nor above the working directory. -/
def HorsDe (m : Machine ω) (f : Lieu) (path : String) : Prop :=
  ((operande m path).lieu <+: f → (operande m path).lieu = f) ∧ ¬(operande m path).lieu <+: m.cwd

/-- The steps under which the protection of `f` holds. -/
def Permis (m : Machine ω) (f : Lieu) (t : Noeud ω) : Operation → Prop
  | .proposeWrite path _ backupDir stamp =>
      let sauvegarde := brut m (cheminDeSauvegarde path backupDir stamp)
      Reconnu m t f path ∧
        (existe t (operande m path) = true →
          sauvegarde.lieu ≠ f ∧ (sauvegarde.joindre (operande m path).basename).lieu ≠ f)
  | .createDirectory _ => True
  | .append path _ => Reconnu m t f path
  | .copy source destination =>
      Reconnu m t f destination ∧
        ((operande m destination).joindre (operande m source).basename).lieu ≠ f
  | .move source destination =>
      Reconnu m t f source ∧ Reconnu m t f destination ∧ HorsDe m f source
  | .delete path => Reconnu m t f path ∧ HorsDe m f path

instance (m : Machine ω) (t : Noeud ω) (f : Lieu) (path : String) : Decidable (Reconnu m t f path) :=
  inferInstanceAs (Decidable (_ → _))

instance (m : Machine ω) (f : Lieu) (path : String) : Decidable (HorsDe m f path) :=
  inferInstanceAs (Decidable (_ ∧ _))

instance (m : Machine ω) (f : Lieu) (t : Noeud ω) (op : Operation) : Decidable (Permis m f t op) :=
  match op with
  | .proposeWrite _ _ _ _ => inferInstanceAs (Decidable (_ ∧ (_ → _ ∧ _)))
  | .createDirectory _ => inferInstanceAs (Decidable True)
  | .append _ _ => inferInstanceAs (Decidable (Reconnu _ _ _ _))
  | .copy _ _ => inferInstanceAs (Decidable (_ ∧ _))
  | .move _ _ => inferInstanceAs (Decidable (_ ∧ _ ∧ _))
  | .delete _ => inferInstanceAs (Decidable (_ ∧ _))

section Etape

variable {m : Machine ω} {t t' : Noeud ω} {f : Lieu} {c : ω} {path : String}

theorem ailleurs (h : estProtege m t path = .ok false) (hreconnu : Reconnu m t f path) :
    (operande m path).lieu ≠ f := by
  intro hlieu
  obtain ⟨htilde, hlistee⟩ := hreconnu hlieu
  have hexpand : expanduser m (Chemin.lire path) = .ok (Chemin.lire path) := by
    simp [expanduser, htilde]
  have hcible : (brut m (Chemin.lire path)).lieu = f := hlieu
  unfold estProtege at h
  rw [hexpand] at h
  dsimp only at h
  split at h
  · cases h
  · rw [hcible] at h
    unfold listee at hlistee
    cases hdocuments : proteges m t (remontee f.dropLast) with
    | error e =>
        rw [hdocuments] at h
        cases h
    | ok documents =>
        rw [hdocuments] at h hlistee
        simp only [Except.ok.injEq, decide_eq_false_iff_not] at h
        simp only [decide_eq_true_eq] at hlistee
        exact h hlistee

theorem horsDe_ailleurs (h : estProtege m t path = .ok false) (hreconnu : Reconnu m t f path)
    (hhors : HorsDe m f path) : ¬(operande m path).lieu <+: f :=
  fun hprec => ailleurs h hreconnu (hhors.1 hprec)

theorem mkdir_intact {b : Brut} {e : Option Erreur} (h : mkdir t b = (t', e))
    (hf : voir t f = some (.fichier c)) : voir t' f = some (.fichier c) := by
  have hcroit := croit_mkdir t b
  rw [h] at hcroit
  exact hcroit f _ hf

theorem ecrit_intact {b : Brut} {p : Lieu} {octets : ω} (hp : ouvrir t b = .ok p)
    (hb : b.lieu ≠ f) (hf : voir t f = some (.fichier c)) :
    voir (poser t p (.fichier octets)) f = some (.fichier c) := by
  have hne : f ≠ p := fun heq => hb ((lieu_of_ouvrir hp).trans heq.symm)
  rw [voir_ecrire hp, if_neg hne]
  exact hf

theorem ecrireTexte_intact {b : Brut} {texte : String} {e : Option Exception}
    (h : ecrireTexte m t b texte = (t', e)) (hb : b.lieu ≠ f)
    (hf : voir t f = some (.fichier c)) : voir t' f = some (.fichier c) := by
  unfold ecrireTexte at h
  split at h
  · cases h
    exact hf
  · next p hp =>
      split at h
      · cases h
        exact ecrit_intact hp hb hf
      · cases h
        exact ecrit_intact hp hb hf

theorem ajouterTexte_intact {b : Brut} {texte : String} {e : Option Exception}
    (h : ajouterTexte m t b texte = (t', e)) (hb : b.lieu ≠ f)
    (hf : voir t f = some (.fichier c)) : voir t' f = some (.fichier c) := by
  unfold ajouterTexte at h
  split at h
  · cases h
    exact hf
  · next p hp =>
      split at h
      · cases h
        exact ecrit_intact hp hb hf
      · cases h
        exact ecrit_intact hp hb hf

theorem copy2_intact {src dst : Brut} (h : copy2 t src dst = .ok t') (hdst : dst.lieu ≠ f)
    (hdans : (dst.joindre src.basename).lieu ≠ f) (hf : voir t f = some (.fichier c)) :
    voir t' f = some (.fichier c) := by
  rw [voir_copy2 h]
  · exact hf
  · unfold cibleDeCopie
    split
    · exact hdans
    · exact hdst

theorem sauvegarder_intact {backupDir stamp : String} {r : Except Exception (Option String)}
    (h : sauvegarder m t path backupDir stamp = (t', r))
    (hailleurs : existe t (operande m path) = true →
      (brut m (cheminDeSauvegarde path backupDir stamp)).lieu ≠ f ∧
        ((brut m (cheminDeSauvegarde path backupDir stamp)).joindre
          (operande m path).basename).lieu ≠ f)
    (hf : voir t f = some (.fichier c)) : voir t' f = some (.fichier c) := by
  unfold sauvegarder at h
  split at h
  · next hexiste =>
      obtain ⟨hlieu, hdans⟩ := hailleurs hexiste
      split at h
      · cases h
        exact hf
      · split at h
        · next hmkdir =>
            cases h
            exact mkdir_intact hmkdir hf
        · next t₁ hmkdir =>
            have hf₁ := mkdir_intact hmkdir hf
            dsimp only at h
            split at h
            · cases h
              exact hf₁
            · next hcopie =>
                cases h
                exact copy2_intact hcopie hlieu hdans hf₁
  · cases h
    exact hf

theorem proposeWrite_intact {newContent backupDir stamp : String}
    (h : Permis m f t (.proposeWrite path newContent backupDir stamp))
    (hf : voir t f = some (.fichier c)) :
    voir (proposeWrite m t path newContent backupDir stamp).1 f = some (.fichier c) := by
  obtain ⟨hreconnu, hsauvegarde⟩ := h
  unfold proposeWrite
  split
  · exact hf
  · exact hf
  · next hpasse =>
      have hlieu := ailleurs hpasse hreconnu
      dsimp only
      split
      · exact hf
      · split
        · next h₁ => exact sauvegarder_intact h₁ hsauvegarde hf
        · next h₁ =>
            have hf₁ := sauvegarder_intact h₁ hsauvegarde hf
            split
            · next h₂ => exact mkdir_intact h₂ hf₁
            · next h₂ =>
                have hf₂ := mkdir_intact h₂ hf₁
                split
                · next h₃ => exact ecrireTexte_intact h₃ hlieu hf₂
                · next h₃ =>
                    have hf₃ := ecrireTexte_intact h₃ hlieu hf₂
                    split
                    · exact hf₃
                    · exact hf₃

theorem createDirectory_intact (hf : voir t f = some (.fichier c)) :
    voir (createDirectory m t path).1 f = some (.fichier c) := by
  unfold createDirectory
  split
  · exact hf
  · exact hf
  · split
    · next h => exact mkdir_intact h hf
    · next h => exact mkdir_intact h hf

theorem append_intact {content : String} (h : Permis m f t (.append path content))
    (hf : voir t f = some (.fichier c)) :
    voir (append m t path content).1 f = some (.fichier c) := by
  unfold append
  split
  · exact hf
  · exact hf
  · next hpasse =>
      have hlieu := ailleurs hpasse h
      dsimp only
      split
      · exact hf
      · split
        · next h₁ => exact mkdir_intact h₁ hf
        · next h₁ =>
            have hf₁ := mkdir_intact h₁ hf
            split
            · next h₂ => exact ajouterTexte_intact h₂ hlieu hf₁
            · next h₂ =>
                have hf₂ := ajouterTexte_intact h₂ hlieu hf₁
                split
                · exact hf₂
                · exact hf₂

theorem copy_intact [DecidableEq ω] {source destination : String}
    (h : Permis m f t (.copy source destination)) (hf : voir t f = some (.fichier c)) :
    voir (copy m t source destination).1 f = some (.fichier c) := by
  unfold copy
  split
  · exact hf
  · exact hf
  · next hpasse =>
      have hlieu := ailleurs hpasse h.1
      split
      · dsimp only
        split
        · next h₁ => exact mkdir_intact h₁ hf
        · next h₁ =>
            have hf₁ := mkdir_intact h₁ hf
            split
            · exact hf₁
            · next h₂ =>
                have hf₂ := copy2_intact h₂ hlieu h.2 hf₁
                split
                · exact hf₂
                · exact hf₂
      · exact hf

theorem move_intact {source destination : String} (h : Permis m f t (.move source destination))
    (hf : voir t f = some (.fichier c)) :
    voir (move m t source destination).1 f = some (.fichier c) := by
  obtain ⟨hsource, hdestination, hhors⟩ := h
  unfold move
  split
  · exact hf
  · exact hf
  · next hpasse =>
      have hsrc := horsDe_ailleurs hpasse hsource hhors
      split
      · exact hf
      · exact hf
      · next hpasse' =>
          have hdst := ailleurs hpasse' hdestination
          split
          · dsimp only
            split
            · next h₁ => exact mkdir_intact h₁ hf
            · next t₁ h₁ =>
                have hf₁ := mkdir_intact h₁ hf
                have hf₂ := voir_deplacer hsrc hdst hf₁
                split
                · next h₂ =>
                    rw [h₂] at hf₂
                    exact hf₂
                · next h₂ =>
                    rw [h₂] at hf₂
                    exact hf₂
          · exact hf

theorem delete_intact (h : Permis m f t (.delete path)) (hf : voir t f = some (.fichier c)) :
    voir (delete m t path).1 f = some (.fichier c) := by
  unfold delete
  split
  · exact hf
  · exact hf
  · next hpasse =>
      have hlieu := horsDe_ailleurs hpasse h.1 h.2
      dsimp only
      split
      · exact hf
      · have hf₁ : voir (rmtree t (operande m path)).1 f = some (.fichier c) := by
          rw [voir_rmtree hlieu]
          exact hf
        split
        · next h₁ =>
            rw [h₁] at hf₁
            exact hf₁
        · next h₁ =>
            rw [h₁] at hf₁
            exact hf₁
      · split
        · exact hf
        · next h₁ =>
            rw [voir_unlink h₁ hlieu]
            exact hf

theorem executer_intact [DecidableEq ω] (op : Operation) (h : Permis m f t op)
    (hf : voir t f = some (.fichier c)) : voir (executer m t op).1 f = some (.fichier c) := by
  cases op with
  | proposeWrite path newContent backupDir stamp => exact proposeWrite_intact h hf
  | createDirectory path => exact createDirectory_intact hf
  | append path content => exact append_intact h hf
  | copy source destination => exact copy_intact h hf
  | move source destination => exact move_intact h hf
  | delete path => exact delete_intact h hf

end Etape

/-- The files that the list of the workspace names. -/
def inscrits (m : Machine ω) (t : Noeud ω) (workspace : Lieu) : List Lieu :=
  match listees m t workspace with
  | some (.ok documents) => documents.filter fun f =>
      match voir t f with
      | some (.fichier _) => true
      | _ => false
  | _ => []

theorem fichier_of_inscrits {m : Machine ω} {t : Noeud ω} {workspace f : Lieu}
    (h : f ∈ inscrits m t workspace) : ∃ c, voir t f = some (.fichier c) := by
  unfold inscrits at h
  split at h
  · have hfichier := (List.mem_filter.mp h).2
    cases hv : voir t f with
    | none =>
        rw [hv] at hfichier
        cases hfichier
    | some v =>
        cases v with
        | fichier c => exact ⟨c, rfl⟩
        | dossier =>
            rw [hv] at hfichier
            cases hfichier
  · cases h

/-- Every file listed at the start keeps its content throughout a run whose steps are permitted
for each of them. -/
theorem inscrits_intacts [DecidableEq ω] (m : Machine ω) (t : Noeud ω) (workspace : Lieu)
    (ops : List Operation)
    (hpermis : Along (pas m) (fun t' op => ∀ f ∈ inscrits m t workspace, Permis m f t' op) t ops) :
    Always (pas m) (fun t' => ∀ f ∈ inscrits m t workspace, voir t' f = voir t f) t ops := by
  apply always_of_along _ _ hpermis
  · intro t₁ op t₂ hgarde hop hpas f hf
    cases hpas
    obtain ⟨c, hc⟩ := fichier_of_inscrits hf
    have hf₁ : voir t₁ f = some (.fichier c) := (hgarde f hf).trans hc
    rw [executer_intact op (hop f hf) hf₁, hc]
  · intro f _
    rfl

def machineTemoin : Machine String where
  cwd := ["srv"]
  home := fun part => if part = "~" then some "/home/hermes" else none
  decode := some
  encode := some
  vide := ""
  concat := fun a b => a ++ b
  reason := "autorise"

def arbreTemoin : Noeud String :=
  .dossier [("srv", .dossier [
    ("w", .dossier [
      (".hermes", .dossier [("proteges.txt", .fichier "# documents d'entree\ncahier.md\n")]),
      ("cahier.md", .fichier "le cahier"), ("notes.md", .fichier "des notes")]),
    ("depot", .dossier [("cahier.md", .fichier "un autre")])])]

theorem inscrits_intacts_ecritures :
    Always (pas machineTemoin)
      (fun t' => ∀ f ∈ inscrits machineTemoin arbreTemoin ["srv", "w"], voir t' f =
        voir arbreTemoin f)
      arbreTemoin
      [.delete "w/cahier.md", .proposeWrite "w/notes.md" "d'autres notes" "sauvegardes" "1",
        .move "w/notes.md" "depot"] := by
  apply inscrits_intacts
  intro t₁ h₁
  refine ⟨by decide +kernel, ?_⟩
  cases h₁
  intro t₂ h₂
  refine ⟨by decide +kernel, ?_⟩
  cases h₂
  intro t₃ h₃
  exact ⟨by decide +kernel, trivial⟩

/-- Four ways through: the directory above, the list itself, a directory as the destination of a
copy, and a home that only the protection expands. -/
theorem inscrit_perdu :
    ["srv", "w", "cahier.md"] ∈ inscrits machineTemoin arbreTemoin ["srv", "w"] ∧
      ∀ ops ∈ [[Operation.delete "w"],
        [.proposeWrite "w/.hermes/proteges.txt" "" "sauvegardes" "1", .delete "w/cahier.md"],
        [.copy "depot/cahier.md" "w"],
        [.proposeWrite "~/../w/cahier.md" "" "sauvegardes" "1"]],
      ∃ t', run (pas machineTemoin) arbreTemoin ops = some t' ∧
        voir t' ["srv", "w", "cahier.md"] ≠ voir arbreTemoin ["srv", "w", "cahier.md"] := by
  constructor
  · decide +kernel
  · intro ops hops
    have hfin : (run (pas machineTemoin) arbreTemoin ops).map (fun t' =>
        decide (voir t' ["srv", "w", "cahier.md"] ≠
          voir arbreTemoin ["srv", "w", "cahier.md"])) = some true := by
      revert ops
      decide +kernel
    obtain ⟨t', hrun, hperdu⟩ := Option.map_eq_some_iff.mp hfin
    exact ⟨t', hrun, of_decide_eq_true hperdu⟩

end Hermes.FileTools
