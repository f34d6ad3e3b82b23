import Hermes.Execution.TaskExecutor

/-! # Which runtime a task gets

The runtime of the assignment goes through two lists of words that mean no choice: that of the
executor, which reads such a word as Hermes Agent, and that of the arbitration, which passes over
the proposal.
-/

namespace Hermes.TaskExecutor

open Lib Ressources Arbitrage

variable {x : RealTaskExecutor} {t : Task} {a : Avis}

/-- One of the two lists has the assigned word. -/
def SansChoix (a : Avis) : Prop :=
  (Texte.strip a.runtimeBrut).toLower ∈ NON_CHOISI_RUNTIME ∨
    (Texte.strip a.runtimeBrut).toLower ∈ NON_CHOISI

def Avis.demandeLeCloud (a : Avis) : Bool := propre a.runtimeFor = MONTEE_AUTORISEE

structure Arbitree (x : RealTaskExecutor) (t : Task) (a : Avis) : Prop where
  nomme : ¬ SansChoix a → ¬ (a.demandeLeCloud ∧ x.cloudChat) →
    (x.decider t a).runtime = Texte.strip a.runtimeBrut
  sansChoix : SansChoix a → ¬ (a.demandeLeCloud ∧ x.cloudChat) →
    (x.decider t a).runtime = "hermes-agent"
  monte : a.demandeLeCloud → x.cloudChat → (x.decider t a).runtime = MONTEE_AUTORISEE
  repli : a.demandeLeCloud → ¬ x.cloudChat → Texte.strip a.runtimeBrut ≠ MONTEE_AUTORISEE →
    (x.decider t a).impossible = "" ∧ (x.decider t a).repli ≠ ""
  impossible : (x.decider t a).impossible ≠ "" ↔
    Texte.strip a.runtimeBrut = MONTEE_AUTORISEE ∧ ¬ x.cloudChat

/-- What the proposal of the assignment says, once through both lists. -/
def Avis.assigne (a : Avis) : String := propre (some (runtimeDemande a.runtimeBrut))

/-- The runtime before any raise: the assignment, else the decider, else the default. -/
def Avis.retenu (a : Avis) : String :=
  if a.assigne ≠ "" then a.assigne
  else if propre a.runtimeFor ≠ "" then propre a.runtimeFor else "hermes-agent"

theorem mem_nonChoisi_iff {nom : String} :
    nom ∈ NON_CHOISI ↔ nom ∈ NON_CHOISI_RUNTIME ∨ nom = "null" := by
  simp only [NON_CHOISI, NON_CHOISI_RUNTIME, List.mem_cons, List.not_mem_nil, or_false]
  tauto

theorem sansChoix_iff : SansChoix a ↔ (Texte.strip a.runtimeBrut).toLower ∈ NON_CHOISI := by
  unfold SansChoix
  rw [mem_nonChoisi_iff]
  tauto

theorem assigne_eq (a : Avis) :
    a.assigne =
      if (Texte.strip a.runtimeBrut).toLower ∈ NON_CHOISI_RUNTIME then "hermes-agent"
      else if (Texte.strip a.runtimeBrut).toLower = "null" then ""
      else Texte.strip a.runtimeBrut := by
  unfold Avis.assigne runtimeDemande
  split_ifs with hexecuteur hnull
  · decide +kernel
  · rw [propre, Option.getD_some, Texte.strip_strip, hnull]
    rfl
  · rw [propre, Option.getD_some, Texte.strip_strip, if_neg]
    rw [mem_nonChoisi_iff]
    tauto

theorem runtimePropose_fst (source source' : String) (modele : Option String) :
    (runtimePropose
      [{ source, runtime := some (runtimeDemande a.runtimeBrut) },
        { source := source', runtime := a.runtimeFor, modele, peutMonter := true }]
      "hermes-agent").1 = a.retenu := by
  unfold runtimePropose Avis.retenu
  by_cases hassigne : a.assigne = ""
  · have hpasse : propre (some (runtimeDemande a.runtimeBrut)) = "" := hassigne
    by_cases hdecideur : propre a.runtimeFor = ""
    · simp [Proposition.proposeUnRuntime, hpasse, hdecideur, hassigne]
    · simp [Proposition.proposeUnRuntime, hpasse, hdecideur, hassigne]
  · have hpropose : propre (some (runtimeDemande a.runtimeBrut)) ≠ "" := hassigne
    simp [Proposition.proposeUnRuntime, hpropose, Avis.assigne]

/-- Some proposal that has the right to raises the execution to the cloud. -/
def demandeMontee (propositions : List Proposition) : Bool :=
  (propositions.find? fun p => p.peutMonter && propre p.runtime = MONTEE_AUTORISEE).isSome

theorem monter_spec (propositions : List Proposition) (choisi : String × String)
    (cloudJoignable : Bool) :
    (monter propositions choisi cloudJoignable).1.1 =
        (if demandeMontee propositions && cloudJoignable then MONTEE_AUTORISEE else choisi.1) ∧
      ((monter propositions choisi cloudJoignable).2 ≠ "" ↔
        demandeMontee propositions ∧ choisi.1 ≠ MONTEE_AUTORISEE ∧ cloudJoignable = false) := by
  unfold monter demandeMontee
  cases propositions.find? fun p => p.peutMonter && propre p.runtime = MONTEE_AUTORISEE with
  | none => simp
  | some p =>
      by_cases hchoisi : choisi.1 = MONTEE_AUTORISEE <;>
        cases cloudJoignable <;> simp [hchoisi]

theorem arbitrer_spec (propositions : List Proposition) (defautRuntime defautModele : String)
    (cloudJoignable : Bool) :
    let d := arbitrer propositions defautRuntime defautModele cloudJoignable
    let choisi := (runtimePropose propositions defautRuntime).1
    d.runtime = (if demandeMontee propositions && cloudJoignable then MONTEE_AUTORISEE else choisi) ∧
      (d.repli ≠ "" ↔
        demandeMontee propositions ∧ choisi ≠ MONTEE_AUTORISEE ∧ cloudJoignable = false) ∧
      (d.impossible ≠ "" ↔ choisi = MONTEE_AUTORISEE ∧ cloudJoignable = false) := by
  intro d choisi
  obtain ⟨hruntime, hrepli⟩ :=
    monter_spec propositions (runtimePropose propositions defautRuntime) cloudJoignable
  have himpossible : d.impossible ≠ "" ↔
      d.runtime = MONTEE_AUTORISEE ∧ cloudJoignable = false := by
    have hmessage : d.impossible =
        if d.runtime = MONTEE_AUTORISEE && !cloudJoignable then
          "runtime '" ++ d.runtime ++ "' was explicitly assigned by " ++ d.sourceRuntime
            ++ " but is unavailable: no cloud provider is configured"
        else "" := rfl
    rw [hmessage]
    split_ifs with h <;> simpa using h
  refine ⟨hruntime, hrepli, himpossible.trans ?_⟩
  have hd : d.runtime = if demandeMontee propositions && cloudJoignable then _ else _ := hruntime
  cases cloudJoignable <;> simp [hd, choisi]

theorem decider_spec (x : RealTaskExecutor) (t : Task) (a : Avis) :
    ((x.decider t a).runtime =
        if a.demandeLeCloud ∧ x.cloudChat then MONTEE_AUTORISEE else a.retenu) ∧
      ((x.decider t a).repli ≠ "" ↔
        a.demandeLeCloud ∧ a.retenu ≠ MONTEE_AUTORISEE ∧ x.cloudChat = false) ∧
      ((x.decider t a).impossible ≠ "" ↔ a.retenu = MONTEE_AUTORISEE ∧ x.cloudChat = false) := by
  have hspec := arbitrer_spec
    [ { source := if propre (some a.runtimeBrut) ≠ "" then "assignation explicite"
          else "défaut HOS-142 — aucun runtime choisi"
        runtime := some (runtimeDemande a.runtimeBrut) },
      { source := "décideur de la tâche"
        runtime := a.runtimeFor
        modele := some (x.resolveModel t a)
        peutMonter := true } ]
    "hermes-agent" x.defaultModel x.cloudChat
  rw [runtimePropose_fst] at hspec
  simpa [RealTaskExecutor.decider, demandeMontee, Avis.demandeLeCloud] using hspec

/-- What the law lets the decider ask of an assignment that only the second list has. -/
def Avis.sansEcart (x : RealTaskExecutor) (a : Avis) : Prop :=
  (Texte.strip a.runtimeBrut).toLower = "null" →
    propre a.runtimeFor = "" ∨ propre a.runtimeFor = "hermes-agent" ∨
      (propre a.runtimeFor = MONTEE_AUTORISEE ∧ x.cloudChat)

theorem retenu_eq (h : a.sansEcart x) (hmonte : ¬ (a.demandeLeCloud ∧ x.cloudChat)) :
    a.retenu =
      if (Texte.strip a.runtimeBrut).toLower ∈ NON_CHOISI then "hermes-agent"
      else Texte.strip a.runtimeBrut := by
  unfold Avis.retenu
  rw [assigne_eq]
  by_cases hexecuteur : (Texte.strip a.runtimeBrut).toLower ∈ NON_CHOISI_RUNTIME
  · have hnon : (Texte.strip a.runtimeBrut).toLower ∈ NON_CHOISI :=
      mem_nonChoisi_iff.mpr (Or.inl hexecuteur)
    simp [hexecuteur, hnon]
  · by_cases hnull : (Texte.strip a.runtimeBrut).toLower = "null"
    · have hnon : (Texte.strip a.runtimeBrut).toLower ∈ NON_CHOISI :=
        mem_nonChoisi_iff.mpr (Or.inr hnull)
      rw [if_neg hexecuteur, if_pos hnull, if_pos hnon, if_neg (by simp)]
      rcases h hnull with hrien | hagent | ⟨hdemande, hcloud⟩
      · rw [hrien, if_neg (by simp)]
      · rw [hagent, ite_id]
      · exact absurd ⟨decide_eq_true hdemande, hcloud⟩ hmonte
    · have hnon : (Texte.strip a.runtimeBrut).toLower ∉ NON_CHOISI := by
        rw [mem_nonChoisi_iff, not_or]
        exact ⟨hexecuteur, hnull⟩
      have hplein : Texte.strip a.runtimeBrut ≠ "" := by
        intro hvide
        apply hexecuteur
        rw [hvide]
        decide +kernel
      rw [if_neg hexecuteur, if_neg hnull, if_neg hnon, if_pos hplein]

/-- The arbitration keeps its law exactly when the assigned word is not one that the second list
alone has, unless the decider then asks for nothing that the law would not give. -/
theorem arbitree_iff (x : RealTaskExecutor) (t : Task) (a : Avis) :
    Arbitree x t a ↔ a.sansEcart x := by
  obtain ⟨hruntime, hrepli, himpossible⟩ := decider_spec x t a
  constructor
  · intro h hnull
    have hsans : SansChoix a := sansChoix_iff.mpr (by rw [hnull]; decide)
    by_cases hcloud : a.demandeLeCloud ∧ x.cloudChat
    · exact Or.inr (Or.inr ⟨of_decide_eq_true hcloud.1, hcloud.2⟩)
    · have hagent := h.sansChoix hsans hcloud
      have hpasse : a.assigne = "" := by
        rw [assigne_eq, hnull]
        rfl
      rw [hruntime, if_neg hcloud, Avis.retenu, if_neg (not_not_intro hpasse)] at hagent
      split_ifs at hagent with hdecideur
      · exact Or.inr (Or.inl hagent)
      · exact Or.inl (not_not.mp hdecideur)
  · intro h
    have hcloud : ¬ x.cloudChat →
        (a.retenu = MONTEE_AUTORISEE ↔ Texte.strip a.runtimeBrut = MONTEE_AUTORISEE) := by
      intro hcloud
      rw [retenu_eq h fun hmonte => hcloud hmonte.2]
      split_ifs with hnon
      · constructor
        · intro heq
          exact absurd heq (by decide)
        · intro heq
          rw [heq] at hnon
          exact absurd hnon (by decide +kernel)
      · exact Iff.rfl
    refine ⟨?_, ?_, ?_, ?_, ?_⟩
    · intro hchoix hmonte
      rw [hruntime, if_neg hmonte, retenu_eq h hmonte, if_neg (mt sansChoix_iff.mpr hchoix)]
    · intro hsans hmonte
      rw [hruntime, if_neg hmonte, retenu_eq h hmonte, if_pos (sansChoix_iff.mp hsans)]
    · intro hdemande hjoint
      rw [hruntime, if_pos ⟨hdemande, hjoint⟩]
    · intro hdemande hjoint hassigne
      have hretenu : a.retenu ≠ MONTEE_AUTORISEE := mt (hcloud hjoint).mp hassigne
      constructor
      · by_contra hnot
        exact hretenu (himpossible.mp hnot).1
      · exact hrepli.mpr ⟨hdemande, hretenu, by simpa using hjoint⟩
    · rw [himpossible]
      constructor
      · rintro ⟨hretenu, hjoint⟩
        have hjoint' : ¬ x.cloudChat := by simp [hjoint]
        exact ⟨(hcloud hjoint').mp hretenu, hjoint'⟩
      · rintro ⟨hassigne, hjoint⟩
        exact ⟨(hcloud hjoint).mpr hassigne, by simpa using hjoint⟩

/-- `"null"` is assigned, which only the arbitration reads as no choice, and the decider recommends
another runtime: the task goes there. -/
theorem null_suit_le_decideur :
    ¬ ∀ (x : RealTaskExecutor) (t : Task) (a : Avis), Arbitree x t a := by
  intro h
  let x : RealTaskExecutor :=
    { chat := false
      cloudChat := false
      defaultModel := "qwen3"
      fallbackModel := ""
      harnaisActif := true
      missionMaxToolRounds := 8
      vramGbFor := fun _ => none }
  let a : Avis :=
    { runtimeBrut := "null"
      runtimeFor := some "ollama"
      reprise := none
      modelFor := none
      repliLocal := none
      impose := ""
      secours := ""
      capableAdmission := fun _ => none
      capableChat := fun _ => none }
  have hsans : SansChoix a := sansChoix_iff.mpr (by decide +kernel)
  have hagent := (h x { missionId := "m", retries := 0, workspace := none } a).sansChoix hsans
    (by decide +kernel)
  revert hagent
  decide +kernel

end Hermes.TaskExecutor
