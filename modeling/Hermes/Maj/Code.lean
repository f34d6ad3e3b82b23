import Hermes.Maj.Paquet

/-! # Replacing the code

The roots of a package are emptied in the installation and copied in their place, names that
belong to the user left where they are.
-/

namespace Hermes.Maj.Code

open Lib Lib.Arborescence

/-- What an update never touches, even below a root it replaces. -/
def preserveEnPlace : List String :=
  [".git", ".venv", "venv", "node_modules", ".env", ".env.local", "__pycache__", ".next",
    ".pytest_cache"]

def preserve (nom : String) : Bool := nom ∈ preserveEnPlace

structure SauvegardeCode where
  chemin : Lieu
  priseLe : String
  racines : List String := []
  preserves : List String := []
  deriving DecidableEq

inductive Exception where
  | os (e : Erreur)
  | remplacementImpossible (message : String)
  deriving DecidableEq

variable {ω : Type*}

mutual

/-- The entries that are left once the others are removed: the preserved ones, and the directories
that still hold some. -/
def vider : List (String × Noeud ω) → List (String × Noeud ω)
  | [] => []
  | (nom, n) :: es =>
      if preserve nom then (nom, n) :: vider es
      else
        match viderEntree n with
        | none => vider es
        | some reste => (nom, reste) :: vider es

def viderEntree : Noeud ω → Option (Noeud ω)
  | .fichier _ => none
  | .dossier es =>
      match vider es with
      | [] => none
      | e :: reste => some (.dossier (e :: reste))

end

/-- The last part of the path, as it is spelled. -/
def nomDe (b : Brut) : String := (b.base ++ b.parts).getLastD ""

def viderRacine (t : Noeud ω) (cible : Brut) : Noeud ω × Option Erreur :=
  match atteindre t cible with
  | .error _ => (t, none)
  | .ok p =>
      match Arborescence.lire t p with
      | none => (t, none)
      | some n =>
          if preserve (nomDe cible) then (t, none)
          else
            match n with
            | .fichier _ => (t, some .notADirectory)
            | .dossier es => (poser t p (.dossier (vider es)), none)

/-- One root emptied, then copied from its source. -/
def installerRacine (t : Noeud ω) (source cible : Brut) : Noeud ω × Option Erreur :=
  match viderRacine t cible with
  | (t', some e) => (t', some e)
  | (t', none) => copytree preserve t' source cible

def remplacer (installation paquet : Lieu) : List String → Noeud ω →
    Noeud ω × Except Exception (List String)
  | [], t => (t, .ok [])
  | nom :: noms, t =>
      if estDossier t (sousRacine paquet nom) then
        match installerRacine t (sousRacine paquet nom) (sousRacine installation nom) with
        | (t', some e) => (t', .error (.os e))
        | (t', none) =>
            match remplacer installation paquet noms t' with
            | (t'', .error e) => (t'', .error e)
            | (t'', .ok remplacees) => (t'', .ok (nom :: remplacees))
      else
        (t, .error (.remplacementImpossible
          ("le paquet ne contient pas " ++ nom ++
            " — un remplacement partiel laisserait un arbre incohérent")))

def remettre (installation source : Lieu) : List String → Noeud ω →
    Noeud ω × Except Exception (List String)
  | [], t => (t, .ok [])
  | nom :: noms, t =>
      if estDossier t (sousRacine source nom) then
        match installerRacine t (sousRacine source nom) (sousRacine installation nom) with
        | (t', some e) => (t', .error (.os e))
        | (t', none) =>
            match remettre installation source noms t' with
            | (t'', .error e) => (t'', .error e)
            | (t'', .ok rendues) => (t'', .ok (nom :: rendues))
      else remettre installation source noms t

def restaurer (t : Noeud ω) (installation : Lieu) (sauvegarde : SauvegardeCode) :
    Noeud ω × Except Exception (List String) :=
  match voir t sauvegarde.chemin with
  | some .dossier => remettre installation sauvegarde.chemin sauvegarde.racines t
  | _ => (t, .error (.remplacementImpossible "sauvegarde de code introuvable"))

section Vider

variable {t : Noeud ω} {es : List (String × Noeud ω)}

theorem get?_vider (hkeys : (Dict.keys es).Nodup) (x : String) :
    Dict.get? (vider es) x =
      if preserve x then Dict.get? es x else (Dict.get? es x).bind viderEntree := by
  induction es with
  | nil => simp [vider, Dict.get?]
  | cons e es ih =>
      obtain ⟨nom, n⟩ := e
      obtain ⟨hnot, hrest⟩ := List.nodup_cons.mp hkeys
      have hih := ih hrest
      have habsent : x = nom → Dict.get? (vider es) x = none := by
        intro hx
        rw [hih, hx, Dict.get?_eq_none hnot]
        simp
      rw [vider, Dict.get?_cons]
      cases hnom : preserve nom with
      | true =>
          rw [if_pos rfl, Dict.get?_cons, hih]
          by_cases hx : x = nom
          · simp [hx, hnom]
          · simp [hx]
      | false =>
          rw [if_neg Bool.false_ne_true]
          by_cases hx : x = nom
          · subst hx
            rw [if_pos rfl, hnom, if_neg Bool.false_ne_true, Option.bind_some]
            cases hreste : viderEntree n with
            | none => exact habsent rfl
            | some reste => rw [Dict.get?_cons, if_pos rfl]
          · rw [if_neg hx, ← hih]
            cases viderEntree n with
            | none => rfl
            | some reste => rw [Dict.get?_cons, if_neg hx]

theorem voir_vider_preserve (h : Valide (.dossier es)) (q : Lieu)
    (hq : ∃ x ∈ q, preserve x = true) :
    voir (.dossier (vider es)) q = voir (.dossier es) q := by
  induction q generalizing es with
  | nil => exact absurd rfl (ne_nil_of_ignore hq)
  | cons x q ih =>
      rw [voir_dossier_cons, voir_dossier_cons, get?_vider h.keys]
      split
      · rfl
      · next hx =>
          have hq' := ignore_tail hq (by simpa using hx)
          have hne := ne_nil_of_ignore hq'
          cases hn : Dict.get? es x with
          | none => rfl
          | some n =>
              cases n with
              | fichier c => simp [viderEntree, voir_fichier_ne hne]
              | dossier es' =>
                  have hih := ih (h.enfant hn) hq'
                  rw [Option.bind_some, Option.bind_some, viderEntree]
                  split
                  · next hvide =>
                      rw [hvide, voir_dossier_nil_ne hne] at hih
                      exact hih
                  · next e reste hreste =>
                      rw [hreste] at hih
                      exact hih

theorem keys_vider (es : List (String × Noeud ω)) :
    (Dict.keys (vider es)).Sublist (Dict.keys es) := by
  induction es with
  | nil => exact .slnil
  | cons e es ih =>
      obtain ⟨nom, n⟩ := e
      rw [vider]
      split
      · exact ih.cons_cons nom
      · split
        · exact ih.cons nom
        · exact ih.cons_cons nom

mutual

theorem valide_vider : ∀ es : List (String × Noeud ω), Valide (.dossier es) →
    Valide (.dossier (vider es))
  | [], h => h
  | (nom, n) :: es, h => by
      have hnot : nom ∉ Dict.keys (vider es) := fun hmem => h.tete.1 ((keys_vider es).subset hmem)
      have hrest := valide_vider es h.queue
      rw [vider]
      split
      · exact hrest.cons hnot h.tete.2
      · split
        · exact hrest
        · next reste hreste =>
            exact hrest.cons hnot (valide_viderEntree n h.tete.2 reste hreste)

theorem valide_viderEntree : ∀ n : Noeud ω, Valide n → ∀ reste, viderEntree n = some reste →
    Valide reste
  | .fichier _, _, _, hreste => by
      rw [viderEntree] at hreste
      cases hreste
  | .dossier es, h, reste, hreste => by
      have hrest := valide_vider es h
      rw [viderEntree] at hreste
      split at hreste
      · cases hreste
      · next e reste' heq =>
          cases hreste
          rw [heq] at hrest
          exact hrest

end

end Vider

/-- A root that is spelled as what it is: relative, below the installation, nothing of the
user's on the way. -/
def Sain (nom : String) : Prop :=
  (Chemin.lire nom).racine = "" ∧ (Chemin.lire nom).parts ≠ [] ∧ ".." ∉ (Chemin.lire nom).parts ∧
    ∀ x ∈ (Chemin.lire nom).parts, preserve x = false

instance (nom : String) : Decidable (Sain nom) := inferInstanceAs (Decidable (_ ∧ _))

def lieuDe (installation : Lieu) (nom : String) : Lieu := (sousRacine installation nom).lieu

/-- Changes stay strictly below the declared roots, of which missing ones are made, and off the
preserved names. -/
structure Confinee (installation : Lieu) (racines : List String) (t t' : Noeud ω) : Prop where
  descendantes : ∀ nom ∈ racines, installation <+: lieuDe installation nom ∧
    lieuDe installation nom ≠ installation
  changement : ∀ q, voir t' q ≠ voir t q →
    (∃ nom ∈ racines, lieuDe installation nom <+: q ∧ lieuDe installation nom ≠ q) ∨
      (voir t q = none ∧ voir t' q = some .dossier ∧ ∃ nom ∈ racines, q <+: lieuDe installation nom)
  strict : (∀ nom ∈ racines, (voir t (lieuDe installation nom)).isSome) →
    ∀ q, voir t' q ≠ voir t q →
      ∃ nom ∈ racines, lieuDe installation nom <+: q ∧ lieuDe installation nom ≠ q
  preserves : ∀ r, (∃ x ∈ r, preserve x = true) →
    voir t' (installation ++ r) = voir t (installation ++ r)

/-- What a sequence of installed roots may have done at `q`. -/
def Suit (installation : Lieu) (racines : List String) (t t' : Noeud ω) (q : Lieu) : Prop :=
  voir t' q = voir t q ∨
    (voir t q = none ∧ voir t' q = some .dossier ∧ ∃ nom ∈ racines, q <+: lieuDe installation nom) ∨
    ∃ nom ∈ racines, Dessous preserve (lieuDe installation nom) q

section Confinement

variable {t t' t'' : Noeud ω} {installation source : Lieu} {racines noms : List String}
  {nom : String} {q : Lieu}

theorem lieuDe_sain (h : Sain nom) (installation : Lieu) :
    lieuDe installation nom = installation ++ (Chemin.lire nom).parts := by
  unfold lieuDe sousRacine
  rw [if_pos h.1]
  exact lieu_sans_remontee h.2.2.1

theorem Suit.refl (t : Noeud ω) : Suit installation racines t t q := .inl rfl

theorem Suit.trans (h : Suit installation racines t t' q)
    (h' : Suit installation racines t' t'' q) : Suit installation racines t t'' q := by
  rcases h with hsame | ⟨hnone, hdossier, hsous⟩ | hdessous
  · rcases h' with hsame' | ⟨hnone', hdossier', hsous'⟩ | hdessous'
    · exact .inl (hsame'.trans hsame)
    · exact .inr (.inl ⟨hsame ▸ hnone', hdossier', hsous'⟩)
    · exact .inr (.inr hdessous')
  · rcases h' with hsame' | ⟨hnone', _, _⟩ | hdessous'
    · exact .inr (.inl ⟨hnone, hsame'.trans hdossier, hsous⟩)
    · rw [hdossier] at hnone'
      cases hnone'
    · exact .inr (.inr hdessous')
  · exact .inr (.inr hdessous)

theorem valide_viderRacine (ht : Valide t) (cible : Brut) : Valide (viderRacine t cible).1 := by
  unfold viderRacine
  split
  · exact ht
  · split
    · exact ht
    · next n hn =>
        split
        · exact ht
        · split
          · exact ht
          · exact ht.poser (valide_vider _ (ht.lire hn)) _

theorem valide_installerRacine (ht : Valide t) (src cible : Brut) :
    Valide (installerRacine t src cible).1 := by
  have hvide := valide_viderRacine ht cible
  unfold installerRacine
  split
  · next h =>
      rw [h] at hvide
      exact hvide
  · next h =>
      rw [h] at hvide
      exact valide_copytree hvide preserve src cible

theorem voir_viderRacine (ht : Valide t) (cible : Brut) (q : Lieu) :
    voir (viderRacine t cible).1 q = voir t q ∨ Dessous preserve cible.lieu q := by
  unfold viderRacine
  split
  · exact .inl rfl
  · next p hp =>
      rw [lieu_of_atteindre hp]
      split
      · exact .inl rfl
      · next n hn =>
          split
          · exact .inl rfl
          · split
            · exact .inl rfl
            · exact voir_poser_entrees hn
                (fun r hr => voir_vider_preserve (ht.lire hn) r hr) q

theorem suit_installerRacine (ht : Valide t) (hnom : nom ∈ racines) (hsain : Sain nom)
    (src : Brut) (q : Lieu) :
    Suit installation racines t (installerRacine t src (sousRacine installation nom)).1 q := by
  have hcible : sousRacine installation nom = ⟨installation, (Chemin.lire nom).parts⟩ :=
    if_pos hsain.1
  have hlieu : installation ++ (Chemin.lire nom).parts = lieuDe installation nom :=
    (lieuDe_sain hsain installation).symm
  have hvide : Suit installation racines t (viderRacine t (sousRacine installation nom)).1 q := by
    rcases voir_viderRacine ht (sousRacine installation nom) q with hsame | hdessous
    · exact .inl hsame
    · exact .inr (.inr ⟨nom, hnom, hdessous⟩)
  unfold installerRacine
  split
  · next h =>
      rw [h] at hvide
      exact hvide
  · next t' h =>
      rw [h] at hvide
      apply hvide.trans
      rw [hcible]
      rcases voir_copytree preserve t' src ⟨installation, (Chemin.lire nom).parts⟩ hsain.2.2.1 q
        with (hsame | ⟨hnone, hdossier, hsous⟩) | hdessous
      · exact .inl hsame
      · exact .inr (.inl ⟨hnone, hdossier, nom, hnom, hlieu ▸ hsous⟩)
      · rw [hlieu] at hdessous
        exact .inr (.inr ⟨nom, hnom, hdessous⟩)

theorem suit_remplacer (ht : Valide t) (hnoms : ∀ nom ∈ noms, nom ∈ racines)
    (hsains : ∀ nom ∈ noms, Sain nom) (q : Lieu) :
    Suit installation racines t (remplacer installation source noms t).1 q ∧
      Valide (remplacer installation source noms t).1 := by
  induction noms generalizing t with
  | nil => exact ⟨Suit.refl t, ht⟩
  | cons nom noms ih =>
      rw [remplacer]
      split
      · have hstep := @suit_installerRacine ω t installation racines nom ht
          (hnoms nom List.mem_cons_self) (hsains nom List.mem_cons_self) (sousRacine source nom) q
        have hvalide := valide_installerRacine ht (sousRacine source nom)
          (sousRacine installation nom)
        split
        · next h =>
            rw [h] at hstep hvalide
            exact ⟨hstep, hvalide⟩
        · next t' h =>
            rw [h] at hstep hvalide
            have hrest := ih hvalide (fun nom hnom => hnoms nom (List.mem_cons_of_mem _ hnom))
              fun nom hnom => hsains nom (List.mem_cons_of_mem _ hnom)
            split
            · next hrec =>
                rw [hrec] at hrest
                exact ⟨hstep.trans hrest.1, hrest.2⟩
            · next hrec =>
                rw [hrec] at hrest
                exact ⟨hstep.trans hrest.1, hrest.2⟩
      · exact ⟨Suit.refl t, ht⟩

theorem suit_remettre (ht : Valide t) (hnoms : ∀ nom ∈ noms, nom ∈ racines)
    (hsains : ∀ nom ∈ noms, Sain nom) (q : Lieu) :
    Suit installation racines t (remettre installation source noms t).1 q := by
  induction noms generalizing t with
  | nil => exact Suit.refl t
  | cons nom noms ih =>
      have hnoms' : ∀ nom ∈ noms, nom ∈ racines :=
        fun nom hnom => hnoms nom (List.mem_cons_of_mem _ hnom)
      have hsains' : ∀ nom ∈ noms, Sain nom :=
        fun nom hnom => hsains nom (List.mem_cons_of_mem _ hnom)
      rw [remettre]
      split
      · have hstep := @suit_installerRacine ω t installation racines nom ht
          (hnoms nom List.mem_cons_self) (hsains nom List.mem_cons_self) (sousRacine source nom) q
        have hvalide := valide_installerRacine ht (sousRacine source nom)
          (sousRacine installation nom)
        split
        · next h =>
            rw [h] at hstep
            exact hstep
        · next t' h =>
            rw [h] at hstep hvalide
            have hrest := ih hvalide hnoms' hsains'
            split
            · next hrec =>
                rw [hrec] at hrest
                exact hstep.trans hrest
            · next hrec =>
                rw [hrec] at hrest
                exact hstep.trans hrest
      · exact ih ht hnoms' hsains'

theorem confinee_of_suit (hsains : ∀ nom ∈ racines, Sain nom)
    (hsuit : ∀ q, Suit installation racines t t' q) : Confinee installation racines t t' where
  descendantes := by
    intro nom hnom
    rw [lieuDe_sain (hsains nom hnom)]
    refine ⟨List.prefix_append _ _, ?_⟩
    intro heq
    exact (hsains nom hnom).2.1 (List.append_right_eq_self.mp heq)
  changement := by
    intro q hq
    rcases hsuit q with hsame | hcree | ⟨nom, hnom, r, hr, heq, _⟩
    · exact absurd hsame hq
    · exact .inr hcree
    · left
      refine ⟨nom, hnom, heq ▸ List.prefix_append _ _, ?_⟩
      intro hsame
      rw [hsame] at heq
      exact hr (List.append_right_eq_self.mp heq.symm)
  strict := by
    intro hpresents q hq
    rcases hsuit q with hsame | ⟨hnone, _, nom, hnom, hsous⟩ | ⟨nom, hnom, r, hr, heq, _⟩
    · exact absurd hsame hq
    · exfalso
      obtain ⟨v, hv⟩ := Option.isSome_iff_exists.mp (hpresents nom hnom)
      by_cases hqL : q = lieuDe installation nom
      · rw [hqL, hv] at hnone
        cases hnone
      · rw [dossier_au_dessus hsous hqL hv] at hnone
        cases hnone
    · refine ⟨nom, hnom, heq ▸ List.prefix_append _ _, ?_⟩
      intro hsame
      rw [hsame] at heq
      exact hr (List.append_right_eq_self.mp heq.symm)
  preserves := by
    intro r ⟨x, hx, hpreserve⟩
    rcases hsuit (installation ++ r) with hsame | ⟨_, _, nom, hnom, hsous⟩ | ⟨nom, hnom, r', _, heq, hr'⟩
    · exact hsame
    · exfalso
      rw [lieuDe_sain (hsains nom hnom), List.prefix_append_right_inj] at hsous
      rw [(hsains nom hnom).2.2.2 x (hsous.subset hx)] at hpreserve
      cases hpreserve
    · exfalso
      rw [lieuDe_sain (hsains nom hnom), List.append_assoc, List.append_cancel_left_eq] at heq
      rw [heq] at hx
      rcases List.mem_append.mp hx with hx | hx
      · rw [(hsains nom hnom).2.2.2 x hx] at hpreserve
        cases hpreserve
      · rw [hr' x hx] at hpreserve
        cases hpreserve

end Confinement

/-- A replacement, followed or not by a restoration of the same roots, is confined when each name
is spelled as what it is. -/
theorem confinee_de_sains (h : Hote ω) (a : Arbre ω) (installation racine : Lieu) (paquet : Paquet)
    (sauvegarde : SauvegardeCode) (_ : lire h a.racine racine = .ok paquet)
    (hsains : ∀ nom ∈ paquet.racines, Sain nom)
    (hsauvegarde : ∀ nom ∈ sauvegarde.racines, nom ∈ paquet.racines) :
    Confinee installation paquet.racines a.racine
        (remplacer installation racine paquet.racines a.racine).1 ∧
      Confinee installation paquet.racines a.racine
        (restaurer (remplacer installation racine paquet.racines a.racine).1 installation
          sauvegarde).1 := by
  have hremplacer := fun q => @suit_remplacer ω a.racine installation racine _ _
    a.valide (fun nom hnom => hnom) hsains q
  constructor
  · exact confinee_of_suit hsains fun q => (hremplacer q).1
  · apply confinee_of_suit hsains
    intro q
    apply (hremplacer q).1.trans
    unfold restaurer
    split
    · exact suit_remettre (hremplacer q).2 hsauvegarde
        (fun nom hnom => hsains nom (hsauvegarde nom hnom)) q
    · exact Suit.refl _

/-- A host that reads the manifests of one root, whose text is the name of that root. -/
def hoteTemoin : Hote String where
  isdigit := Char.isDigit
  int := fun texte =>
    if texte = "" then none
    else some (texte.toList.foldl (fun n c => 10 * n + (c.toNat - 48)) 0)
  loads := fun texte => some (.objet [("version", .texte "1.1.0"),
    ("racines", .tableau [.texte texte])])
  repr := fun _ => ""

def disque (nom : String) : Noeud String :=
  .dossier [
    ("paquet", .dossier [("hermes.json", .fichier nom),
      ("backend", .dossier [("neuf.py", .fichier "neuf")]),
      (".git", .dossier [("hooks", .dossier [("pre-commit", .fichier "du paquet")])])]),
    ("app", .dossier [("lisez-moi", .fichier "la racine"),
      ("backend", .dossier [("vieux.py", .fichier "vieux"),
        (".venv", .dossier [("python", .fichier "binaire")])]),
      (".git", .dossier [("HEAD", .fichier "ref")])])]

def arbreTemoin : Arbre String where
  racine := disque "backend"
  valide := valide_of_distincts _ (by decide +kernel)

theorem confinee_de_sains_backend :
    Confinee ["app"] ["backend"] arbreTemoin.racine
      (remplacer ["app"] ["paquet"] ["backend"] arbreTemoin.racine).1 :=
  (confinee_de_sains hoteTemoin arbreTemoin ["app"] ["paquet"]
    { chemin := ["paquet"], version := "1.1.0", racines := ["backend"] }
    { chemin := [], priseLe := "" } (by decide +kernel) (by decide +kernel) nofun).1

/-- Two packages that are accepted: the one whose root is `.git` writes there, and the one whose
root is the package itself empties the installation. -/
theorem racine_du_depot :
    ((lire hoteTemoin (disque ".git") ["paquet"]).toOption.map Paquet.racines = some [".git"] ∧
      ¬Confinee ["app"] [".git"] (disque ".git")
        (remplacer ["app"] ["paquet"] [".git"] (disque ".git")).1) ∧
    (lire hoteTemoin (disque "./") ["paquet"]).toOption.map Paquet.racines = some ["./"] ∧
      voir (remplacer ["app"] ["paquet"] ["./"] (disque "./")).1 ["app", "lisez-moi"] = none ∧
      ¬Confinee ["app"] ["./"] (disque "./")
        (remplacer ["app"] ["paquet"] ["./"] (disque "./")).1 := by
  refine ⟨⟨by decide +kernel, ?_⟩, by decide +kernel, by decide +kernel, ?_⟩
  · intro h
    have hfige := h.preserves [".git", "hooks"] ⟨".git", by decide, by decide⟩
    have hecrit : voir (remplacer ["app"] ["paquet"] [".git"] (disque ".git")).1
        ["app", ".git", "hooks"] = some .dossier := by decide +kernel
    have habsent : voir (disque ".git") ["app", ".git", "hooks"] = none := by decide +kernel
    have heq := hecrit.symm.trans (hfige.trans habsent)
    cases heq
  · intro h
    exact (h.descendantes "./" (by decide)).2 (by decide +kernel)

end Hermes.Maj.Code
