import Hermes.Lib.Table
import Hermes.Lib.Tri
import Hermes.Memory.Confiance
import Hermes.Memory.DeuxBackends

/-! # The long-term memories and what an agent finds of them

The rows of `memory_long`: one for each content of a type in a project. A row keeps its origin;
its promotion is written once.
-/

namespace Hermes.Memory.Episodic

open Lib

/-- A row of `memory_long`. -/
structure MemoryEntry where
  id : Nat
  projectId : Option String
  type_ : String
  content : String
  contentHash : String
  tags : String
  createdAt : Int
  origine : Option String
  source : Option String
  promuPar : Option String
  verifieLe : Option Int
  deriving DecidableEq

def MemoryEntry.provenance (maintenant : Int) (e : MemoryEntry) : Provenance :=
  match e.origine.bind Origine.lire with
  | none => {}
  | some origine =>
      let base := Provenance.depuis maintenant origine (e.source.getD "")
      if e.promuPar.getD "" = "" then base
      else { base with confiance := .fiable, promuPar := e.promuPar, verifieLe := e.verifieLe }

/-- What the functions take from elsewhere: SHA-256 in hexadecimal, and `str.lower`. -/
structure Hote where
  sha256 : String → String
  lower : String → String

section Ecriture

variable (h : Hote)

def hash (content : String) : String := h.sha256 (Texte.strip content)

inductive Erreur where
  | multipleResultsFound
  | promotionRefusee
  | keyError (id : Nat)
  | dejaPromue (id : Nat) (promuPar : Option String) (verifieLe : Option Int)
  | nonEffective (id : Nat)
  deriving DecidableEq

structure Base where
  table : Table MemoryEntry.id := .vide
  prochain : Nat := 0

structure Ajout where
  type_ : String
  content : String
  tags : List String
  projectId : Option String
  provenance : Option Provenance
  deriving DecidableEq

def nouvelle (b : Base) (maintenant : Int) (a : Ajout) : MemoryEntry where
  id := b.prochain
  projectId := a.projectId
  type_ := a.type_
  content := a.content
  contentHash := hash h a.content
  tags := ",".intercalate a.tags
  createdAt := maintenant
  origine := a.provenance.map fun p => p.origine.value
  source := (a.provenance.map Provenance.source).filter (· ≠ "")
  promuPar := a.provenance.bind Provenance.promuPar
  verifieLe := a.provenance.bind Provenance.verifieLe

def double (a : Ajout) (e : MemoryEntry) : Bool :=
  e.type_ = a.type_ && e.contentHash = hash h a.content && e.projectId = a.projectId

def addMemory (b : Base) (maintenant : Int) (a : Ajout) : Except Erreur MemoryEntry × Base :=
  match b.table.lignes.filter (double h a) with
  | [] =>
      let entry := nouvelle h b maintenant a
      (.ok entry,
        { table := (b.table.inserer entry).getD b.table
          prochain := b.prochain + 1 })
  | [existing] => (.ok existing, b)
  | _ => (.error .multipleResultsFound, b)

def promue (par : String) (maintenant : Int) (e : MemoryEntry) : MemoryEntry :=
  { e with promuPar := some (Texte.strip par), verifieLe := some maintenant }

theorem promue_id {id : Nat} (par : String) (maintenant : Int) (e : MemoryEntry)
    (he : e.id = id) : (promue par maintenant e).id = id := he

def promouvoir (b : Base) (maintenant : Int) (id : Nat) (par : String) :
    Except Erreur MemoryEntry × Base :=
  if Provenance.sansActeur par then (.error .promotionRefusee, b)
  else
    match b.table.lire id with
    | none => (.error (.keyError id), b)
    | some entree =>
        if entree.promuPar.getD "" ≠ "" then
          (.error (.dejaPromue id entree.promuPar entree.verifieLe), b)
        else
          let b' := { b with
            table := b.table.modifier id (promue par maintenant) (promue_id par maintenant) }
          -- the row is read again: one without an origin is written, and stays in quarantine
          if ((promue par maintenant entree).provenance maintenant).enQuarantaine then
            (.error (.nonEffective id), b')
          else (.ok (promue par maintenant entree), b')

def deleteMemory (b : Base) (id : Nat) : Bool × Base :=
  ((b.table.lire id).isSome, { b with table := b.table.retirer id })

end Ecriture

section Recherche

variable (h : Hote)

/-- `query.split()`. -/
def termes (query : String) : List String :=
  ((query.toList.splitOnP Texte.estBlanc).filter (· ≠ [])).map String.ofList

def porteeDeLAgent (projectId : Option String) (e : MemoryEntry) : Bool :=
  match projectId with
  | none => e.projectId = none
  | some _ => e.projectId = projectId || e.projectId = none

def correspond (terms : List String) (e : MemoryEntry) : Bool :=
  terms.any (fun t => ilikeSqlite ("%" ++ t ++ "%") e.content) ||
    terms.any fun t => ilikeSqlite ("%" ++ t ++ "%") e.tags

def score (terms : List String) (e : MemoryEntry) : Nat :=
  terms.countP fun t => contient (h.lower t) (h.lower (e.content ++ " " ++ e.tags))

/-- The rows as the query returns them, the ties of date in the order of the scan, then ranked. -/
def classees (terms : List String) (projectId : Option String) (lignes : List MemoryEntry) :
    List MemoryEntry :=
  let rows := (lignes.filter fun e => porteeDeLAgent projectId e && correspond terms e).insertionSort
    fun a b => b.createdAt ≤ a.createdAt
  rows.insertionSort fun a b => score h terms b ≤ score h terms a

/-- `search_pour_agent` over the rows in the order of a scan. -/
def searchPourAgent (maintenant : Int) (lignes : List MemoryEntry) (query : String) (limit : Int)
    (projectId : Option String) : List MemoryEntry :=
  let terms := termes query
  if terms = [] then []
  else
    Page.slice (filtrerQuarantaine (MemoryEntry.provenance maintenant) false
      (classees h terms projectId lignes)) 0 (some limit)

end Recherche

/-- What a writer says of the origin of a memory. -/
structure Declaration where
  maintenant : Int
  origine : Origine
  source : String
  deriving DecidableEq

structure Demande where
  type_ : String
  content : String
  tags : List String
  projectId : Option String
  declaration : Option Declaration
  deriving DecidableEq

def Demande.ajout (d : Demande) : Ajout where
  type_ := d.type_
  content := d.content
  tags := d.tags
  projectId := d.projectId
  provenance := d.declaration.map fun dit => Provenance.depuis dit.maintenant dit.origine dit.source

inductive Action where
  | addMemory (maintenant : Int) (d : Demande)
  | promouvoir (maintenant : Int) (id : Nat) (par : String)
  | deleteMemory (id : Nat)
  deriving DecidableEq

def agir (h : Hote) (b : Base) : Action → Base
  | .addMemory maintenant d => (addMemory h b maintenant d.ajout).2
  | .promouvoir maintenant id par => (promouvoir b maintenant id par).2
  | .deleteMemory id => (deleteMemory b id).2

def jouer (h : Hote) (actions : List Action) : Base := actions.foldl (agir h) {}

structure Saine (h : Hote) (b : Base) : Prop where
  empreintes : ∀ e ∈ b.table.lignes, e.contentHash = hash h e.content
  doubles : ∀ e ∈ b.table.lignes, ∀ e' ∈ b.table.lignes, e.type_ = e'.type_ →
    e.contentHash = e'.contentHash → e.projectId = e'.projectId → e = e'
  tirees : ∀ e ∈ b.table.lignes, e.id < b.prochain

def MemoryEntry.sure (e : MemoryEntry) : Prop := ∃ o ∈ ORIGINES_DE_CONFIANCE, e.origine = some o.value

/-- A promotion of the row, whose actor and date it bears. -/
def MemoryEntry.promueParmi (actions : List Action) (e : MemoryEntry) : Prop :=
  ∃ maintenant par, Action.promouvoir maintenant e.id par ∈ actions ∧ Texte.strip par ≠ "" ∧
    e.promuPar = some (Texte.strip par) ∧ e.verifieLe = some maintenant

/-- Whoever is named by a row is its origin, or the actor of a promotion. -/
def Nommees (actions : List Action) (b : Base) : Prop :=
  ∀ e ∈ b.table.lignes, e.promuPar.getD "" ≠ "" → e.sure ∨ e.promueParmi actions

/-- What a later state keeps of the rows that it still has. -/
structure Suit (b b' : Base) : Prop where
  prochain : b.prochain ≤ b'.prochain
  ancienne : ∀ id e', id < b.prochain → b'.table.lire id = some e' →
    ∃ e, b.table.lire id = some e ∧ e'.origine = e.origine ∧
      (e.promuPar.getD "" ≠ "" → e'.promuPar = e.promuPar ∧ e'.verifieLe = e.verifieLe)

section Etapes

variable {h : Hote} {b b' b'' : Base}

theorem Suit.refl (b : Base) : Suit b b := by
  constructor
  · exact Nat.le_refl _
  · intro id e _ he
    exact ⟨e, he, rfl, fun _ => ⟨rfl, rfl⟩⟩

theorem Suit.trans (hb : Suit b b') (hb' : Suit b' b'') : Suit b b'' := by
  constructor
  · exact Nat.le_trans hb.prochain hb'.prochain
  · intro id e'' hid he''
    have hid' : id < b'.prochain := Nat.lt_of_lt_of_le hid hb.prochain
    obtain ⟨e', he', horigine', hpromue'⟩ := hb'.ancienne id e'' hid' he''
    obtain ⟨e, he, horigine, hpromue⟩ := hb.ancienne id e' hid he'
    refine ⟨e, he, horigine'.trans horigine, fun hnommee => ?_⟩
    obtain ⟨hpar, hdate⟩ := hpromue hnommee
    rw [← hpar] at hnommee
    obtain ⟨hpar', hdate'⟩ := hpromue' hnommee
    exact ⟨hpar'.trans hpar, hdate'.trans hdate⟩

theorem addMemory_cas (hsaine : Saine h b) (maintenant : Int) (a : Ajout) :
    (∃ e ∈ b.table.lignes, addMemory h b maintenant a = (.ok e, b)) ∨
      ((∀ e ∈ b.table.lignes, double h a e = false) ∧ ∃ t,
        b.table.inserer (nouvelle h b maintenant a) = some t ∧
          addMemory h b maintenant a =
            (.ok (nouvelle h b maintenant a), { table := t, prochain := b.prochain + 1 })) := by
  unfold addMemory
  split
  · next hvide =>
      refine .inr ⟨fun e he => ?_, ?_⟩
      · have hno := List.filter_eq_nil_iff.mp hvide e he
        simpa using hno
      · have hlibre : (nouvelle h b maintenant a).id ∉ b.table.lignes.map MemoryEntry.id := by
          intro hmem
          obtain ⟨e, he, heq⟩ := List.mem_map.mp hmem
          have hlt := hsaine.tirees e he
          have hid : e.id = b.prochain := heq
          omega
        have hinserer : ∃ t, b.table.inserer (nouvelle h b maintenant a) = some t := by
          unfold Table.inserer
          rw [dif_neg hlibre]
          exact ⟨_, rfl⟩
        obtain ⟨t, ht⟩ := hinserer
        exact ⟨t, ht, by dsimp only; rw [ht]; rfl⟩
  · next existing hun =>
      have hmem : existing ∈ b.table.lignes.filter (double h a) := by
        rw [hun]
        exact List.mem_singleton.mpr rfl
      exact .inl ⟨existing, (List.mem_filter.mp hmem).1, rfl⟩
  · next hvide hun =>
      -- two rows that the content doubles would be one
      exfalso
      cases hfiltre : b.table.lignes.filter (double h a) with
      | nil => exact hvide hfiltre
      | cons e suite =>
          cases suite with
          | nil => exact hun e hfiltre
          | cons e' suite =>
              have hnodup : (e :: e' :: suite).Nodup := by
                rw [← hfiltre]
                exact b.table.uniques.of_map.filter _
              have hdouble : ∀ x ∈ e :: e' :: suite, x ∈ b.table.lignes ∧
                  x.type_ = a.type_ ∧ x.contentHash = hash h a.content ∧
                    x.projectId = a.projectId := by
                intro x hx
                rw [← hfiltre] at hx
                obtain ⟨hmem, hx⟩ := List.mem_filter.mp hx
                simp only [double, Bool.and_eq_true, decide_eq_true_eq] at hx
                exact ⟨hmem, hx.1.1, hx.1.2, hx.2⟩
              obtain ⟨hmem, htype, hhash, hprojet⟩ := hdouble e List.mem_cons_self
              obtain ⟨hmem', htype', hhash', hprojet'⟩ :=
                hdouble e' (List.mem_cons_of_mem _ List.mem_cons_self)
              have heq : e = e' := hsaine.doubles e hmem e' hmem' (htype.trans htype'.symm)
                (hhash.trans hhash'.symm) (hprojet.trans hprojet'.symm)
              rw [heq] at hnodup
              exact (List.nodup_cons.mp hnodup).1 List.mem_cons_self

theorem promouvoir_cas (b : Base) (maintenant : Int) (id : Nat) (par : String) :
    (promouvoir b maintenant id par).2 = b ∨
      ∃ e, b.table.lire id = some e ∧ e.promuPar.getD "" = "" ∧ Texte.strip par ≠ "" ∧
        (promouvoir b maintenant id par).2 =
          { b with table := b.table.modifier id (promue par maintenant) (promue_id par maintenant) } := by
  unfold promouvoir
  split
  · exact .inl rfl
  · next hpar =>
      split
      · exact .inl rfl
      · next entree hlire =>
          split
          · exact .inl rfl
          · next hnommee =>
              have hpar : Texte.strip par ≠ "" := by simpa [Provenance.sansActeur] using hpar
              refine .inr ⟨entree, hlire, not_not.mp hnommee, hpar, ?_⟩
              dsimp only
              split <;> rfl

theorem suit_agir (hsaine : Saine h b) (action : Action) : Suit b (agir h b action) := by
  cases action with
  | addMemory maintenant d =>
      rw [agir]
      rcases addMemory_cas hsaine maintenant d.ajout with ⟨e, _, heq⟩ | ⟨_, t, hinserer, heq⟩
      · rw [heq]
        exact .refl b
      · rw [heq]
        refine ⟨Nat.le_succ _, fun id e' hid he' => ?_⟩
        dsimp only at he'
        rw [Table.lire_inserer hinserer] at he'
        split at he'
        · next heq => exact absurd heq (Nat.ne_of_lt hid)
        · exact ⟨e', he', rfl, fun _ => ⟨rfl, rfl⟩⟩
  | promouvoir maintenant id par =>
      rw [agir]
      rcases promouvoir_cas b maintenant id par with heq | ⟨e, he, hnommee, _, heq⟩
      · rw [heq]
        exact .refl b
      · rw [heq]
        refine ⟨Nat.le_refl _, fun id' e' _ he' => ?_⟩
        dsimp only at he'
        rw [Table.lire_modifier] at he'
        split at he'
        · next hid =>
            subst hid
            rw [he] at he'
            cases he'
            exact ⟨e, he, rfl, fun hne => absurd hnommee hne⟩
        · exact ⟨e', he', rfl, fun _ => ⟨rfl, rfl⟩⟩
  | deleteMemory id =>
      refine ⟨Nat.le_refl _, fun id' e' _ he' => ?_⟩
      dsimp only [agir, deleteMemory] at he'
      rw [Table.lire_retirer] at he'
      split at he'
      · cases he'
      · exact ⟨e', he', rfl, fun _ => ⟨rfl, rfl⟩⟩

theorem mem_promue {id : Nat} {par : String} {maintenant : Int} {e' : MemoryEntry}
    (he' : e' ∈ (b.table.modifier id (promue par maintenant)
      (promue_id par maintenant)).lignes) :
    ∃ e ∈ b.table.lignes, e' = (if e.id = id then promue par maintenant e else e) ∧
      e'.id = e.id ∧ e'.type_ = e.type_ ∧ e'.content = e.content ∧
      e'.contentHash = e.contentHash ∧ e'.projectId = e.projectId := by
  obtain ⟨e, he, rfl⟩ := List.mem_map.mp he'
  refine ⟨e, he, rfl, ?_⟩
  split <;> exact ⟨rfl, rfl, rfl, rfl, rfl⟩

theorem saine_agir (hsaine : Saine h b) (action : Action) : Saine h (agir h b action) := by
  cases action with
  | addMemory maintenant d =>
      rw [agir]
      rcases addMemory_cas hsaine maintenant d.ajout with ⟨e, _, heq⟩ | ⟨hdouble, t, hinserer, heq⟩
      · rw [heq]
        exact hsaine
      · rw [heq]
        have hlignes := (Table.inserer_eq_some hinserer).2
        have hseule : ∀ e ∈ b.table.lignes, ¬(e.type_ = d.type_ ∧
            e.contentHash = hash h d.content ∧ e.projectId = d.projectId) := by
          intro e he hsame
          have hno := hdouble e he
          simp [double, Demande.ajout, hsame] at hno
        constructor
        · intro e he
          rw [hlignes] at he
          rcases List.mem_append.mp he with he | he
          · exact hsaine.empreintes e he
          · cases List.mem_singleton.mp he
            rfl
        · intro e he e' he' htype hhash hprojet
          rw [hlignes] at he he'
          rcases List.mem_append.mp he with he | he
          · rcases List.mem_append.mp he' with he' | he'
            · exact hsaine.doubles e he e' he' htype hhash hprojet
            · cases List.mem_singleton.mp he'
              exact absurd ⟨htype, hhash, hprojet⟩ (hseule e he)
          · rcases List.mem_append.mp he' with he' | he'
            · cases List.mem_singleton.mp he
              exact absurd ⟨htype.symm, hhash.symm, hprojet.symm⟩ (hseule e' he')
            · cases List.mem_singleton.mp he
              cases List.mem_singleton.mp he'
              rfl
        · intro e he
          rw [hlignes] at he
          rcases List.mem_append.mp he with he | he
          · exact Nat.lt_succ_of_lt (hsaine.tirees e he)
          · cases List.mem_singleton.mp he
            exact Nat.lt_succ_self _
  | promouvoir maintenant id par =>
      rw [agir]
      rcases promouvoir_cas b maintenant id par with heq | ⟨_, _, _, _, heq⟩
      · rw [heq]
        exact hsaine
      · rw [heq]
        constructor
        · intro e' he'
          obtain ⟨e, he, _, _, _, hcontent, hhash, _⟩ := mem_promue he'
          rw [hhash, hcontent]
          exact hsaine.empreintes e he
        · intro e₁' he₁' e₂' he₂' htype hhash hprojet
          obtain ⟨e₁, he₁, heq₁, _, htype₁, _, hhash₁, hprojet₁⟩ := mem_promue he₁'
          obtain ⟨e₂, he₂, heq₂, _, htype₂, _, hhash₂, hprojet₂⟩ := mem_promue he₂'
          rw [htype₁, htype₂] at htype
          rw [hhash₁, hhash₂] at hhash
          rw [hprojet₁, hprojet₂] at hprojet
          rw [heq₁, heq₂, hsaine.doubles e₁ he₁ e₂ he₂ htype hhash hprojet]
        · intro e' he'
          obtain ⟨e, he, _, hid, _⟩ := mem_promue he'
          rw [hid]
          exact hsaine.tirees e he
  | deleteMemory id =>
      have hmem : ∀ e ∈ (b.table.retirer id).lignes, e ∈ b.table.lignes := fun e he =>
        (List.mem_filter.mp he).1
      constructor
      · exact fun e he => hsaine.empreintes e (hmem e he)
      · exact fun e he e' he' => hsaine.doubles e (hmem e he) e' (hmem e' he')
      · exact fun e he => hsaine.tirees e (hmem e he)

theorem MemoryEntry.promueParmi.append {e : MemoryEntry} {actions : List Action}
    (he : e.promueParmi actions) (action : Action) : e.promueParmi (actions ++ [action]) := by
  obtain ⟨maintenant, par, hmem, hreste⟩ := he
  exact ⟨maintenant, par, List.mem_append_left _ hmem, hreste⟩

theorem nouvelle_sure {maintenant : Int} {d : Demande}
    (hnommee : (nouvelle h b maintenant d.ajout).promuPar.getD "" ≠ "") :
    (nouvelle h b maintenant d.ajout).sure := by
  cases hdit : d.declaration with
  | none => simp [nouvelle, Demande.ajout, hdit] at hnommee
  | some dit =>
      have horigine : (nouvelle h b maintenant d.ajout).origine = some dit.origine.value := by
        simp [nouvelle, Demande.ajout, hdit, Provenance.depuis]
      by_cases hsure : dit.origine ∈ ORIGINES_DE_CONFIANCE
      · exact ⟨dit.origine, hsure, horigine⟩
      · simp [nouvelle, Demande.ajout, hdit, Provenance.depuis, hsure] at hnommee

theorem nommees_agir (hsaine : Saine h b) {actions : List Action} (hnommees : Nommees actions b)
    (action : Action) : Nommees (actions ++ [action]) (agir h b action) := by
  have hanciennes : Nommees (actions ++ [action]) b := by
    intro e he hnommee
    rcases hnommees e he hnommee with hsure | hpromue
    · exact .inl hsure
    · exact .inr (hpromue.append action)
  cases action with
  | addMemory maintenant d =>
      rw [agir]
      rcases addMemory_cas hsaine maintenant d.ajout with ⟨e, _, heq⟩ | ⟨_, t, hinserer, heq⟩
      · rw [heq]
        exact hanciennes
      · rw [heq]
        intro e he hnommee
        rw [(Table.inserer_eq_some hinserer).2] at he
        rcases List.mem_append.mp he with he | he
        · exact hanciennes e he hnommee
        · cases List.mem_singleton.mp he
          exact .inl (nouvelle_sure hnommee)
  | promouvoir maintenant id par =>
      rw [agir]
      rcases promouvoir_cas b maintenant id par with heq | ⟨_, _, _, hpar, heq⟩
      · rw [heq]
        exact hanciennes
      · rw [heq]
        intro e' he' hnommee
        obtain ⟨e, he, heq, _⟩ := mem_promue he'
        split at heq
        · next hid =>
            subst heq
            subst hid
            exact .inr ⟨maintenant, par, List.mem_append_right _ (List.mem_singleton.mpr rfl), hpar,
              rfl, rfl⟩
        · subst heq
          exact hanciennes e' he hnommee
  | deleteMemory id =>
      intro e he hnommee
      exact hanciennes e (List.mem_filter.mp he).1 hnommee

end Etapes

theorem jouer_append (h : Hote) (debut suite : List Action) :
    jouer h (debut ++ suite) = suite.foldl (agir h) (jouer h debut) := List.foldl_append

theorem saine_jouer (h : Hote) (actions : List Action) :
    Saine h (jouer h actions) ∧ Nommees actions (jouer h actions) := by
  induction actions using List.reverseRecOn with
  | nil =>
      have hvide (e : MemoryEntry) : e ∉ (jouer h []).table.lignes := List.not_mem_nil
      exact ⟨⟨fun e he => absurd he (hvide e), fun e he => absurd he (hvide e),
        fun e he => absurd he (hvide e)⟩, fun e he => absurd he (hvide e)⟩
  | append_singleton actions action ih =>
      rw [jouer_append]
      exact ⟨saine_agir ih.1 action, nommees_agir ih.1 ih.2 action⟩

theorem suit_jouer (h : Hote) (debut suite : List Action) :
    Suit (jouer h debut) (jouer h (debut ++ suite)) := by
  induction suite using List.reverseRecOn with
  | nil =>
      rw [List.append_nil]
      exact .refl _
  | append_singleton suite action ih =>
      rw [← List.append_assoc, jouer_append h (debut ++ suite)]
      exact ih.trans (suit_agir (saine_jouer h (debut ++ suite)).1 action)

section Trouvees

variable {h : Hote}

theorem lire_sure {texte : String} {o : Origine} (ho : Origine.lire texte = some o) :
    texte = o.value := by
  have hfind : ORIGINES.find? (fun o => decide (o.value = texte)) = some o := ho
  have hvalue := List.find?_some hfind
  exact (of_decide_eq_true hvalue).symm

theorem sure_of_provenance {maintenant : Int} {e : MemoryEntry}
    (he : (e.provenance maintenant).enQuarantaine = false) : e.sure ∨ e.promuPar.getD "" ≠ "" := by
  unfold MemoryEntry.provenance at he
  cases horigine : e.origine.bind Origine.lire with
  | none => simp [horigine, Provenance.enQuarantaine] at he
  | some o =>
      by_cases hnommee : e.promuPar.getD "" = ""
      · rw [horigine] at he
        simp only [hnommee, if_true] at he
        rw [Provenance.depuis_enQuarantaine, decide_eq_false_iff_not, not_not] at he
        obtain ⟨texte, htexte, hlire⟩ := Option.bind_eq_some_iff.mp horigine
        exact .inl ⟨o, he, by rw [htexte, lire_sure hlire]⟩
      · exact .inr hnommee

theorem mem_searchPourAgent {maintenant : Int} {lignes : List MemoryEntry} {query : String}
    {limit : Int} {projectId : Option String} {e : MemoryEntry}
    (he : e ∈ searchPourAgent h maintenant lignes query limit projectId) :
    e ∈ lignes ∧ porteeDeLAgent projectId e = true ∧
      (e.provenance maintenant).enQuarantaine = false := by
  unfold searchPourAgent at he
  dsimp only at he
  split at he
  · cases he
  · have hmem := List.mem_of_mem_take (List.mem_of_mem_drop he)
    obtain ⟨hclassee, hsure⟩ := mem_filtrerQuarantaine.mp hmem
    simp only [classees, List.mem_insertionSort, List.mem_filter, Bool.and_eq_true] at hclassee
    exact ⟨hclassee.1, hclassee.2.1, hsure⟩

theorem filter_classees (p : MemoryEntry → Bool) (terms : List String)
    (projectId : Option String) (lignes : List MemoryEntry) :
    (classees h terms projectId lignes).filter p =
      classees h terms projectId (lignes.filter p) := by
  have : IsTrans MemoryEntry fun a b => b.createdAt ≤ a.createdAt :=
    ⟨fun _ _ _ hab hbc => Int.le_trans hbc hab⟩
  have : Std.Total fun a b : MemoryEntry => b.createdAt ≤ a.createdAt :=
    ⟨fun a b => Int.le_total b.createdAt a.createdAt⟩
  have : IsTrans MemoryEntry fun a b => score h terms b ≤ score h terms a :=
    ⟨fun _ _ _ hab hbc => Nat.le_trans hbc hab⟩
  have : Std.Total fun a b => score h terms b ≤ score h terms a :=
    ⟨fun a b => Nat.le_total (score h terms b) (score h terms a)⟩
  unfold classees
  dsimp only
  rw [filter_insertionSort, filter_insertionSort, List.filter_filter, List.filter_filter]
  simp only [Bool.and_comm]

theorem searchPourAgent_fiables (maintenant : Int) (lignes : List MemoryEntry) (query : String)
    (limit : Int) (projectId : Option String) :
    searchPourAgent h maintenant lignes query limit projectId =
      searchPourAgent h maintenant
        (lignes.filter fun e => !(e.provenance maintenant).enQuarantaine) query limit projectId := by
  have hfiltre (l : List MemoryEntry) :
      filtrerQuarantaine (MemoryEntry.provenance maintenant) false l =
        l.filter fun e => !(e.provenance maintenant).enQuarantaine := rfl
  unfold searchPourAgent
  dsimp only
  split
  · rfl
  · rw [hfiltre, hfiltre, ← filter_classees, List.filter_filter]
    simp only [Bool.and_self]

theorem place_prise {maintenant : Int} {lignes : List MemoryEntry} {query : String} {limit : Int}
    {projectId : Option String} {e : MemoryEntry} (hlimit : 0 ≤ limit) (he : e ∈ lignes)
    (hportee : porteeDeLAgent projectId e = true)
    (hcorrespond : correspond (termes query) e = true)
    (hsure : (e.provenance maintenant).enQuarantaine = false)
    (habsente : e ∉ searchPourAgent h maintenant lignes query limit projectId) :
    ((searchPourAgent h maintenant lignes query limit projectId).length : Int) = limit := by
  have hmem : e ∈ filtrerQuarantaine (MemoryEntry.provenance maintenant) false
      (classees h (termes query) projectId lignes) := by
    refine mem_filtrerQuarantaine.mpr ⟨?_, hsure⟩
    simp [classees, he, hportee, hcorrespond]
  have htermes : termes query ≠ [] := by
    intro hvide
    rw [hvide] at hcorrespond
    cases hcorrespond
  rw [searchPourAgent] at habsente ⊢
  simp only [htermes, if_false] at habsente ⊢
  rw [Page.slice_debut _ hlimit] at habsente ⊢
  rw [List.length_take]
  by_cases hplace : limit.toNat ≤ (filtrerQuarantaine (MemoryEntry.provenance maintenant) false
      (classees h (termes query) projectId lignes)).length
  · omega
  · rw [List.take_of_length_le (by omega)] at habsente
    exact absurd hmem habsente

end Trouvees

/-- A row of the result is one that the agent may read. -/
def Lisible (actions : List Action) (projectId : Option String) (e : MemoryEntry) : Prop :=
  (e.projectId = none ∨ (projectId ≠ none ∧ e.projectId = projectId)) ∧
    (e.sure ∨ e.promueParmi actions)

/-- Over every history: one row for each content of a type in a project; an agent finds the rows
of its scope that are trusted or promoted, and a trusted one gives its place to no other; the
origin of a row is never changed, nor are the actor and the date of its first promotion. -/
theorem histoire_tenue (h : Hote) (actions : List Action) :
    (∀ e ∈ (jouer h actions).table.lignes, ∀ e' ∈ (jouer h actions).table.lignes,
      e.type_ = e'.type_ → Texte.strip e.content = Texte.strip e'.content →
        e.projectId = e'.projectId → e = e') ∧
    (∀ lignes, lignes.Perm (jouer h actions).table.lignes →
      ∀ maintenant query limit projectId,
        (∀ e ∈ searchPourAgent h maintenant lignes query limit projectId,
          e ∈ (jouer h actions).table.lignes ∧ Lisible actions projectId e) ∧
        (0 ≤ limit → ∀ e ∈ lignes, porteeDeLAgent projectId e = true →
          correspond (termes query) e = true → (e.provenance maintenant).enQuarantaine = false →
            e ∉ searchPourAgent h maintenant lignes query limit projectId →
              ((searchPourAgent h maintenant lignes query limit projectId).length : Int) =
                limit) ∧
        searchPourAgent h maintenant lignes query limit projectId =
          searchPourAgent h maintenant
            (lignes.filter fun e => !(e.provenance maintenant).enQuarantaine) query limit
            projectId) ∧
    ∀ debut suite, actions = debut ++ suite → ∀ id e e',
      (jouer h debut).table.lire id = some e → (jouer h actions).table.lire id = some e' →
        e'.origine = e.origine ∧
          (e.promuPar.getD "" ≠ "" → e'.promuPar = e.promuPar ∧ e'.verifieLe = e.verifieLe) := by
  obtain ⟨hsaine, hnommees⟩ := saine_jouer h actions
  refine ⟨?_, ?_, ?_⟩
  · intro e he e' he' htype hcontent hprojet
    apply hsaine.doubles e he e' he' htype _ hprojet
    rw [hsaine.empreintes e he, hsaine.empreintes e' he', hash, hash, hcontent]
  · intro lignes hlignes maintenant query limit projectId
    refine ⟨fun e he => ?_, fun hlimit e he => place_prise hlimit he,
      searchPourAgent_fiables maintenant lignes query limit projectId⟩
    obtain ⟨hmem, hportee, hsure⟩ := mem_searchPourAgent he
    have htable := hlignes.mem_iff.mp hmem
    refine ⟨htable, ?_, ?_⟩
    · cases projectId with
      | none => exact .inl (of_decide_eq_true hportee)
      | some projet =>
          simp only [porteeDeLAgent, Bool.or_eq_true, decide_eq_true_eq] at hportee
          rcases hportee with hprojet | hpermanent
          · exact .inr ⟨nofun, hprojet⟩
          · exact .inl hpermanent
    · rcases sure_of_provenance hsure with hsure | hnommee
      · exact .inl hsure
      · exact hnommees e htable hnommee
  · intro debut suite hactions id e e' he he'
    subst hactions
    have hid : id < (jouer h debut).prochain := by
      have htiree := (saine_jouer h debut).1.tirees e (Table.mem_of_lire he)
      rw [Table.cle_of_lire he] at htiree
      exact htiree
    obtain ⟨e₀, he₀, hgarde⟩ := (suit_jouer h debut suite).ancienne id e' hid he'
    rw [he] at he₀
    cases he₀
    exact hgarde

def hoteTemoin : Hote where
  sha256 := id
  lower := id

def debutTemoin : List Action :=
  [.addMemory 1
      { type_ := "fact"
        content := " le port est 8080 "
        tags := []
        projectId := none
        declaration := some { maintenant := 1, origine := .agent, source := "session 7" } },
    .promouvoir 2 0 "ana"]

/-- A second promotion keeps the name and the date of the first. -/
theorem histoire_tenue_secondePromotion :
    ((jouer hoteTemoin (debutTemoin ++ [.promouvoir 3 0 "bob"])).table.lire 0).map
      (fun e => (e.origine, e.promuPar, e.verifieLe)) =
        some (some "agent", some "ana", some 2) := by
  have hdebut : ((jouer hoteTemoin debutTemoin).table.lire 0).map
      (fun e => (e.origine, e.promuPar, e.verifieLe)) =
        some (some "agent", some "ana", some 2) := by decide +kernel
  obtain ⟨e, he, heq⟩ := Option.map_eq_some_iff.mp hdebut
  have hreste : ((jouer hoteTemoin (debutTemoin ++ [.promouvoir 3 0 "bob"])).table.lire
      0).isSome = true := by decide +kernel
  obtain ⟨e', he'⟩ := Option.isSome_iff_exists.mp hreste
  obtain ⟨_, _, hgarde⟩ := histoire_tenue hoteTemoin (debutTemoin ++ [.promouvoir 3 0 "bob"])
  obtain ⟨horigine, hpromue⟩ := hgarde debutTemoin _ rfl 0 e e' he he'
  simp only [Prod.mk.injEq] at heq
  obtain ⟨hpar, hdate⟩ := hpromue (by rw [heq.2.1]; decide)
  rw [he', Option.map_some, horigine, hpar, hdate, heq.1, heq.2.1, heq.2.2]

end Hermes.Memory.Episodic
