import Hermes.Lib.Fenetre
import Hermes.Lib.Flottant

/-! # Watching what an agent says while it speaks

The output comes in blocks, and a secret may be cut in two by the way they are cut. Each block is
searched after the last `REPORT` characters of what came before it.
-/

namespace Hermes.Surveillance

open Hermes.Lib.Fenetre
open Hermes.Lib.Flottant

def REPORT : Nat := 512

def LONGUEUR_MIN_SECRET : Nat := 8

inductive Motif where
  | canary
  | secret
  | silence
  | cout
  deriving DecidableEq

structure Alerte where
  motif : Motif
  detail : String
  deriving DecidableEq

structure SurveillanceFlux where
  canary : String
  secrets : List String
  silenceS : Binaire
  coutMax : Option Binaire
  report : String
  derniereSortie : Rat
  silenceSignale : Bool
  alertes : List Alerte

/-- `a in b` on strings. -/
def contient (b a : String) : Bool := decide (a.toList <:+: b.toList)

theorem contient_iff {a b : String} : contient b a = true ↔ a.toList <:+: b.toList :=
  decide_eq_true_iff

/-- `SurveillanceFlux(canary=…, secrets_connus=…, silence_s=…, cout_max=…)`. -/
def init (canary : String) (secretsConnus : List String) (silenceS : Binaire)
    (coutMax : Option Binaire) (maintenant : Rat) : SurveillanceFlux where
  canary := canary
  secrets := secretsConnus.filter fun s => decide (s ≠ "" ∧ LONGUEUR_MIN_SECRET ≤ s.length)
  silenceS := silenceS
  coutMax := coutMax
  report := ""
  derniereSortie := maintenant
  silenceSignale := false
  alertes := []

def texteCanary : String :=
  "la valeur témoin plantée dans l'environnement est ressortie — l'agent lit et recrache son " ++
  "environnement, donc les vrais secrets sont exposés de la même façon"

def texteSecret (longueur : Nat) : String :=
  "un secret connu de " ++ toString longueur ++ " caractères est apparu dans la sortie"

/-- `f"{x:.4f}"`. -/
def quatreDecimales : Binaire → String
  | .fini q =>
      let n := (pair (|q| * 10000)).toNat
      let decimales := toString (n % 10000)
      (if q < 0 then "-" else "") ++ toString (n / 10000) ++ "."
        ++ String.ofList (List.replicate (4 - decimales.length) '0') ++ decimales
  | .infini negatif => if negatif then "-inf" else "inf"
  | .nan => "nan"

def texteCout (cout coutMax : Binaire) : String :=
  quatreDecimales cout ++ " dépasse le plafond de " ++ quatreDecimales coutMax

def texteSilence (silence : Rat) : String :=
  "aucune sortie depuis " ++ sansDecimale silence ++ " s — un agent qui se tait n'échoue pas, " ++
  "il attend, et l'attente ressemble au travail"

def Alerte.deFuite (a : Alerte) : Bool := a.motif = .canary || a.motif = .secret

def SurveillanceFlux.coupee (m : SurveillanceFlux) : Bool := m.alertes.any Alerte.deFuite

def SurveillanceFlux.lever (m : SurveillanceFlux) (a : Alerte) : Option Alerte × SurveillanceFlux :=
  (some a, { m with alertes := m.alertes ++ [a] })

/-- What the search of the window finds: the canary first, then the secrets in their order. -/
def SurveillanceFlux.fuite (m : SurveillanceFlux) (fenetre : String) : Option Alerte :=
  if m.canary ≠ "" ∧ contient fenetre m.canary = true then some ⟨.canary, texteCanary⟩
  else (m.secrets.find? (contient fenetre)).map fun s => ⟨.secret, texteSecret s.length⟩

/-- `bloc(texte)`, with the time at which it is called. -/
def SurveillanceFlux.bloc (m : SurveillanceFlux) (maintenant : Rat) (texte : String) :
    Option Alerte × SurveillanceFlux :=
  if texte = "" then (none, m)
  else
    let fenetre := m.report ++ texte
    let m' := { m with
      derniereSortie := maintenant
      silenceSignale := false
      report := String.ofList (fenetre.toList.rtake REPORT) }
    match m.fuite fenetre with
    | some a => m'.lever a
    | none => (none, m')

/-- The cost and its ceiling, when the cost is above it. -/
def depassement (cout coutMax : Option Binaire) : Option (Binaire × Binaire) :=
  match cout, coutMax with
  | some c, some plafond => if plafond.lt c then some (c, plafond) else none
  | _, _ => none

/-- `tic(cout=…)`, with the time at which it is called. -/
def SurveillanceFlux.tic (m : SurveillanceFlux) (maintenant : Rat) (cout : Option Binaire) :
    Option Alerte × SurveillanceFlux :=
  match depassement cout m.coutMax with
  | some (c, plafond) => m.lever ⟨.cout, texteCout c plafond⟩
  | none =>
      let silence := arrondir (maintenant - m.derniereSortie)
      if m.silenceS.le (.fini silence) = true ∧ m.silenceSignale = false then
        { m with silenceSignale := true }.lever ⟨.silence, texteSilence silence⟩
      else (none, m)

inductive Appel where
  | bloc (maintenant : Rat) (texte : String)
  | tic (maintenant : Rat) (cout : Option Binaire)

def SurveillanceFlux.suivre (m : SurveillanceFlux) : Appel → SurveillanceFlux
  | .bloc maintenant texte => (m.bloc maintenant texte).2
  | .tic maintenant cout => (m.tic maintenant cout).2

def SurveillanceFlux.apres (m : SurveillanceFlux) (appels : List Appel) : SurveillanceFlux :=
  appels.foldl SurveillanceFlux.suivre m

def Appel.texte : Appel → String
  | .bloc _ texte => texte
  | .tic _ _ => ""

def flux (appels : List Appel) : String := String.join (appels.map Appel.texte)

section Suivi

variable {m : SurveillanceFlux} {u : List Char}

/-- The canary or one of the secrets is in what was said. -/
def Expose (canary : String) (secrets : List String) (u : List Char) : Prop :=
  canary.toList <:+: u ∨ ∃ s ∈ secrets, s.toList <:+: u

theorem fuite_eq_none_iff (htemoin : m.canary ≠ "") {fenetre : String} :
    m.fuite fenetre = none ↔ ¬ Expose m.canary m.secrets fenetre.toList := by
  unfold SurveillanceFlux.fuite Expose
  split
  case isTrue hcanary => simp [contient_iff.mp hcanary.2]
  case isFalse hcanary =>
    have habsent : ¬ m.canary.toList <:+: fenetre.toList :=
      fun h => hcanary ⟨htemoin, contient_iff.mpr h⟩
    rw [Option.map_eq_none_iff, List.find?_eq_none]
    simp [habsent, contient_iff]

theorem fuite_deFuite {fenetre : String} {a : Alerte} (h : m.fuite fenetre = some a) :
    a.deFuite = true := by
  unfold SurveillanceFlux.fuite at h
  split at h
  · cases h
    rfl
  · obtain ⟨s, -, rfl⟩ := Option.map_eq_some_iff.mp h
    rfl

theorem bloc_snd (maintenant : Rat) {texte : String} (htexte : texte ≠ "") :
    (m.bloc maintenant texte).2 = { m with
      derniereSortie := maintenant
      silenceSignale := false
      report := String.ofList ((m.report ++ texte).toList.rtake REPORT)
      alertes := m.alertes ++ (m.fuite (m.report ++ texte)).toList } := by
  unfold SurveillanceFlux.bloc
  rw [if_neg htexte]
  dsimp only
  cases hfuite : m.fuite (m.report ++ texte) with
  | none => rw [Option.toList_none, List.append_nil]
  | some a => rfl

theorem tic_snd (maintenant : Rat) (cout : Option Binaire) :
    ∃ silenceSignale ajout, (m.tic maintenant cout).2 = { m with
      silenceSignale := silenceSignale
      alertes := m.alertes ++ ajout } ∧ ∀ a ∈ ajout,
        (∃ c plafond, m.coutMax = some plafond ∧ a = ⟨.cout, texteCout c plafond⟩) ∨
          ∃ silence, a = ⟨.silence, texteSilence silence⟩ := by
  unfold SurveillanceFlux.tic
  split
  case h_1 c plafond hcout =>
    have hplafond : m.coutMax = some plafond := by
      unfold depassement at hcout
      split at hcout
      · split at hcout
        · cases hcout
          assumption
        · cases hcout
      · cases hcout
    refine ⟨m.silenceSignale, [⟨.cout, texteCout c plafond⟩], rfl, fun a ha => .inl ?_⟩
    exact ⟨c, plafond, hplafond, List.mem_singleton.mp ha⟩
  case h_2 =>
    dsimp only
    split
    · refine ⟨true, [⟨.silence, texteSilence (arrondir (maintenant - m.derniereSortie))⟩], rfl,
        fun a ha => .inr ?_⟩
      exact ⟨_, List.mem_singleton.mp ha⟩
    · refine ⟨m.silenceSignale, [], ?_, fun a ha => ?_⟩
      · rw [List.append_nil]
      · cases ha

/-- The carry-over is the end of the stream, and a leak is told exactly when there is one. -/
structure Suivi (m : SurveillanceFlux) (u : List Char) : Prop where
  temoin : m.canary ≠ ""
  bornes : m.canary.length ≤ REPORT ∧ ∀ s ∈ m.secrets, s.length ≤ REPORT
  report : m.report.toList = u.rtake REPORT
  coupee : m.coupee = true ↔ Expose m.canary m.secrets u

theorem expose_append_iff (h : Suivi m u) (v : List Char) :
    Expose m.canary m.secrets (u ++ v) ↔
      Expose m.canary m.secrets u ∨ Expose m.canary m.secrets (u.rtake REPORT ++ v) := by
  have hcanary : m.canary.toList <:+: u ++ v ↔ _ := infix_append_iff h.bornes.1 u v
  have hsecret : ∀ s ∈ m.secrets, (s.toList <:+: u ++ v ↔ _) :=
    fun s hs => infix_append_iff (h.bornes.2 s hs) u v
  have hsecrets : (∃ s ∈ m.secrets, s.toList <:+: u ++ v) ↔
      (∃ s ∈ m.secrets, s.toList <:+: u) ∨ ∃ s ∈ m.secrets, s.toList <:+: u.rtake REPORT ++ v := by
    rw [← exists_or]
    refine exists_congr fun s => ?_
    rw [← and_or_left]
    exact and_congr_right (hsecret s)
  unfold Expose
  rw [hcanary, hsecrets]
  exact or_or_or_comm

theorem any_alertes_fuite (htemoin : m.canary ≠ "") (fenetre : String) :
    (m.alertes ++ (m.fuite fenetre).toList).any Alerte.deFuite = true ↔
      m.coupee = true ∨ Expose m.canary m.secrets fenetre.toList := by
  rw [List.any_append, Bool.or_eq_true]
  refine or_congr Iff.rfl ?_
  cases hfuite : m.fuite fenetre with
  | none =>
      have habsent := (fuite_eq_none_iff htemoin).mp hfuite
      simp [habsent]
  | some a =>
      have hpresent : Expose m.canary m.secrets fenetre.toList := by
        by_contra habsent
        rw [(fuite_eq_none_iff htemoin).mpr habsent] at hfuite
        cases hfuite
      simp [fuite_deFuite hfuite, hpresent]

theorem Suivi.bloc (h : Suivi m u) (maintenant : Rat) (texte : String) :
    Suivi (m.bloc maintenant texte).2 (u ++ texte.toList) := by
  by_cases htexte : texte = ""
  · have hrien : (m.bloc maintenant texte).2 = m := by rw [SurveillanceFlux.bloc, if_pos htexte]
    rw [hrien, htexte, String.toList_empty, List.append_nil]
    exact h
  · have hfenetre : (m.report ++ texte).toList = u.rtake REPORT ++ texte.toList := by
      rw [String.toList_append, h.report]
    rw [bloc_snd maintenant htexte]
    refine ⟨h.temoin, h.bornes, ?_, ?_⟩
    · rw [String.toList_ofList, hfenetre, rtake_rtake_append]
    · have hsuite := expose_append_iff h texte.toList
      rw [← hfenetre, ← h.coupee] at hsuite
      exact (any_alertes_fuite h.temoin (m.report ++ texte)).trans hsuite.symm

theorem Suivi.tic (h : Suivi m u) (maintenant : Rat) (cout : Option Binaire) :
    Suivi (m.tic maintenant cout).2 u := by
  obtain ⟨silenceSignale, ajout, htic, hajout⟩ := tic_snd (m := m) maintenant cout
  rw [htic]
  refine ⟨h.temoin, h.bornes, h.report, ?_⟩
  have hsans : ajout.any Alerte.deFuite = false := by
    rw [List.any_eq_false]
    intro a ha
    rcases hajout a ha with ⟨c, plafond, -, rfl⟩ | ⟨silence, rfl⟩
    · exact Bool.false_ne_true
    · exact Bool.false_ne_true
  have hcoupee : (m.alertes ++ ajout).any Alerte.deFuite = m.coupee := by
    rw [List.any_append, hsans, Bool.or_false, SurveillanceFlux.coupee]
  exact (Bool.eq_iff_iff.mp hcoupee).trans h.coupee

theorem Suivi.suivre (h : Suivi m u) (a : Appel) : Suivi (m.suivre a) (u ++ a.texte.toList) := by
  cases a with
  | bloc maintenant texte => exact h.bloc maintenant texte
  | tic maintenant cout =>
      rw [Appel.texte, String.toList_empty, List.append_nil]
      exact h.tic maintenant cout

@[simp] theorem flux_nil : (flux []).toList = [] := rfl

@[simp] theorem flux_cons (a : Appel) (appels : List Appel) :
    (flux (a :: appels)).toList = a.texte.toList ++ (flux appels).toList := by
  simp [flux, String.join_cons]

theorem Suivi.apres (h : Suivi m u) (appels : List Appel) :
    Suivi (m.apres appels) (u ++ (flux appels).toList) := by
  induction appels generalizing m u with
  | nil =>
      rw [flux_nil, List.append_nil]
      exact h
  | cons a appels ih =>
      rw [flux_cons, ← List.append_assoc]
      exact ih (h.suivre a)

/-- An alert is a fixed sentence in which only numbers vary. -/
def Libelle (secrets : List String) (coutMax : Option Binaire) (a : Alerte) : Prop :=
  match a.motif with
  | .canary => a.detail = texteCanary
  | .secret => ∃ s ∈ secrets, a.detail = texteSecret s.length
  | .cout => ∃ c plafond, coutMax = some plafond ∧ a.detail = texteCout c plafond
  | .silence => ∃ silence, a.detail = texteSilence silence

theorem fuite_libelle {fenetre : String} {a : Alerte} (coutMax : Option Binaire)
    (h : m.fuite fenetre = some a) : Libelle m.secrets coutMax a := by
  unfold SurveillanceFlux.fuite at h
  split at h
  · cases h
    rfl
  · obtain ⟨s, hs, rfl⟩ := Option.map_eq_some_iff.mp h
    exact ⟨s, List.mem_of_find?_eq_some hs, rfl⟩

/-- The watch looks for what it was given, and words its alerts with nothing else. -/
structure Redige (canary : String) (secrets : List String) (coutMax : Option Binaire)
    (m : SurveillanceFlux) : Prop where
  alertes : ∀ a ∈ m.alertes, Libelle secrets coutMax a
  canary : m.canary = canary
  secrets : m.secrets = secrets
  coutMax : m.coutMax = coutMax

variable {canary : String} {secrets : List String} {coutMax : Option Binaire}

theorem Redige.suivre (h : Redige canary secrets coutMax m) (a : Appel) :
    Redige canary secrets coutMax (m.suivre a) := by
  cases a with
  | bloc maintenant texte =>
      by_cases htexte : texte = ""
      · have hrien : m.suivre (.bloc maintenant texte) = m := by
          rw [SurveillanceFlux.suivre, SurveillanceFlux.bloc, if_pos htexte]
        rw [hrien]
        exact h
      · rw [SurveillanceFlux.suivre, bloc_snd maintenant htexte]
        refine ⟨fun a ha => ?_, h.canary, h.secrets, h.coutMax⟩
        cases List.mem_append.mp ha with
        | inl ha => exact h.alertes a ha
        | inr ha =>
            rw [← h.secrets]
            exact fuite_libelle coutMax (Option.mem_toList.mp ha)
  | tic maintenant cout =>
      obtain ⟨silenceSignale, ajout, htic, hajout⟩ := tic_snd (m := m) maintenant cout
      rw [SurveillanceFlux.suivre, htic]
      refine ⟨fun a ha => ?_, h.canary, h.secrets, h.coutMax⟩
      cases List.mem_append.mp ha with
      | inl ha => exact h.alertes a ha
      | inr ha =>
          rcases hajout a ha with ⟨c, plafond, hplafond, rfl⟩ | ⟨silence, rfl⟩
          · exact ⟨c, plafond, h.coutMax.symm.trans hplafond, rfl⟩
          · exact ⟨silence, rfl⟩

theorem Redige.apres (h : Redige canary secrets coutMax m) (appels : List Appel) :
    Redige canary secrets coutMax (m.apres appels) := by
  induction appels generalizing m with
  | nil => exact h
  | cons a appels ih => exact ih (h.suivre a)

end Suivi

section Garde

variable {canary : String} {secretsConnus : List String} {silenceS : Binaire}
  {coutMax : Option Binaire} {maintenant : Rat}

/-- The secrets to look for, none of them too short or longer than the carry-over. -/
def Cherchables (secretsConnus : List String) : Prop :=
  ∀ s ∈ secretsConnus, LONGUEUR_MIN_SECRET ≤ s.length ∧ s.length ≤ REPORT

theorem secrets_init (h : Cherchables secretsConnus) :
    (init canary secretsConnus silenceS coutMax maintenant).secrets = secretsConnus := by
  refine List.filter_eq_self.mpr fun s hs => decide_eq_true ?_
  refine ⟨?_, (h s hs).1⟩
  rintro rfl
  exact absurd (h "" hs).1 (by decide)

theorem suivi_init (htemoin : canary ≠ "") (hcanary : canary.length ≤ REPORT)
    (h : Cherchables secretsConnus) :
    Suivi (init canary secretsConnus silenceS coutMax maintenant) [] := by
  have hsecrets : (init canary secretsConnus silenceS coutMax maintenant).secrets = secretsConnus :=
    secrets_init h
  refine ⟨htemoin, ⟨hcanary, ?_⟩, rfl, ?_⟩
  · rw [hsecrets]
    exact fun s hs => (h s hs).2
  · rw [hsecrets]
    refine ⟨fun habsurde => (Bool.false_ne_true habsurde).elim, fun hfuite => ?_⟩
    -- no pattern is empty
    cases hfuite with
    | inl hfuite => exact absurd (String.toList_inj.mp (List.infix_nil.mp hfuite)) htemoin
    | inr hfuite =>
        obtain ⟨s, hs, hfuite⟩ := hfuite
        have hvide : s = "" := String.toList_inj.mp (List.infix_nil.mp hfuite)
        rw [hvide] at hs
        exact absurd (h "" hs).1 (by decide)

theorem redige_init (h : Cherchables secretsConnus) :
    Redige canary secretsConnus coutMax
      (init canary secretsConnus silenceS coutMax maintenant) where
  alertes _ ha := (List.not_mem_nil ha).elim
  canary := rfl
  secrets := secrets_init h
  coutMax := rfl

theorem coupee_iff (htemoin : canary ≠ "") (hcanary : canary.length ≤ REPORT)
    (h : Cherchables secretsConnus) (appels : List Appel) :
    ((init canary secretsConnus silenceS coutMax maintenant).apres appels).coupee = true ↔
      Expose canary secretsConnus (flux appels).toList := by
  let depart := init canary secretsConnus silenceS coutMax maintenant
  have hdepart : Suivi depart [] := suivi_init htemoin hcanary h
  have hregle : Redige canary secretsConnus coutMax (depart.apres appels) :=
    (redige_init h).apres appels
  have hcoupee := (hdepart.apres appels).coupee
  rw [hregle.canary, hregle.secrets, List.nil_append] at hcoupee
  exact hcoupee

/-- However the stream is cut into blocks, a leak is told exactly when there is one; the words of
an alert are its own, the numbers in them apart. -/
theorem surveillance_fidele (htemoin : canary ≠ "") (hcanary : canary.length ≤ REPORT)
    (h : Cherchables secretsConnus) (appels : List Appel) :
    let apres := (init canary secretsConnus silenceS coutMax maintenant).apres
    ((apres appels).coupee = true ↔
        contient (flux appels) canary = true ∨
          ∃ s ∈ secretsConnus, contient (flux appels) s = true) ∧
      (∀ appels', flux appels' = flux appels → (apres appels').coupee = (apres appels).coupee) ∧
      ∀ a ∈ (apres appels).alertes, Libelle secretsConnus coutMax a := by
  intro apres
  have hcoupee : ∀ appels, (apres appels).coupee = true ↔
      Expose canary secretsConnus (flux appels).toList := coupee_iff htemoin hcanary h
  refine ⟨?_, fun appels' hflux => ?_, ((redige_init h).apres appels).alertes⟩
  · simp only [contient_iff]
    exact hcoupee appels
  · rw [Bool.eq_iff_iff, hcoupee, hcoupee, hflux]

end Garde

def secretsDuFlux : List String := ["un secret connu"]

def appelsDuFlux : List Appel :=
  [.bloc 0 "la clé : un sec", .tic 1 (some (.fini 2)), .bloc 2 "ret connu, dit-il"]

/-- A secret cut in two blocks. -/
theorem surveillance_fidele_coupe :
    let apres := (init "hos-canary-00" secretsDuFlux (.fini 120) none 0).apres
    ((apres appelsDuFlux).coupee = true ↔
        contient (flux appelsDuFlux) "hos-canary-00" = true ∨
          ∃ s ∈ secretsDuFlux, contient (flux appelsDuFlux) s = true) ∧
      (∀ appels', flux appels' = flux appelsDuFlux →
        (apres appels').coupee = (apres appelsDuFlux).coupee) ∧
      ∀ a ∈ (apres appelsDuFlux).alertes, Libelle secretsDuFlux none a :=
  surveillance_fidele (by decide) (by decide) (by unfold Cherchables; decide) appelsDuFlux

/-- A secret that is a piece of the sentence that reports it. -/
theorem secret_dans_alerte :
    ¬ ∀ (canary : String) (secretsConnus : List String) (silenceS : Binaire)
        (coutMax : Option Binaire) (maintenant : Rat) (appels : List Appel),
      canary ≠ "" → canary.length ≤ REPORT → Cherchables secretsConnus →
      let apres := (init canary secretsConnus silenceS coutMax maintenant).apres
      ((apres appels).coupee = true ↔
          contient (flux appels) canary = true ∨
            ∃ s ∈ secretsConnus, contient (flux appels) s = true) ∧
        (∀ appels', flux appels' = flux appels → (apres appels').coupee = (apres appels).coupee) ∧
        ∀ a ∈ (apres appels).alertes, ∀ s ∈ secretsConnus, contient a.detail s = false := by
  intro h
  have hsans := (h "hos-canary-00" secretsDuFlux (.fini 120) none 0 appelsDuFlux (by decide)
    (by decide) (by unfold Cherchables; decide)).2.2
  have halerte : (⟨.secret, texteSecret 15⟩ : Alerte) ∈
      ((init "hos-canary-00" secretsDuFlux (.fini 120) none 0).apres appelsDuFlux).alertes := by
    decide +kernel
  have hdedans : contient (texteSecret 15) "un secret connu" = true := by decide +kernel
  have habsent := hsans _ halerte "un secret connu" List.mem_cons_self
  rw [hdedans] at habsent
  cases habsent

end Hermes.Surveillance
