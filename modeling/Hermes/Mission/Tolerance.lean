import Hermes.Mission.Persistance

/-! # Documents of another version

A document of a mission may come from a version that had other members in its enumerations and
other fields in its records. A field that is not known is passed over.
-/

namespace Hermes.Persistance

open Lib

inductive Nature where
  | enumeration (e : Enumeration)
  | record (classe : Classe)
  | liste (classe : Classe)
  | feuille
  deriving DecidableEq

def natureDe (type : String) : Nature :=
  match ENUMERATIONS.find? fun e => contient type e.1 with
  | some e => .enumeration e.2
  | none =>
      if type = "MissionContext" then .record .context
      else if type = "list[MissionNode]" then .liste .node
      else if type = "list[MissionEdge]" then .liste .edge
      else .feuille

def Classe.instancier (classe : Classe) (f : Champ → Objet) : Objet :=
  .instance classe (classe.champs.map fun c => (c.nom, f c))

def connue (e : Enumeration) : Json → Bool
  | .texte s => s ∈ e.valeurs
  | _ => false

section

variable (u : Usine)

/-- `v` is stored for the field `c` of a mission where the field is `o`. -/
def ValeurEcrite (ecrit : Classe → Json → Objet → Prop) (c : Champ) (v : Json) (o : Objet) :
    Prop :=
  match natureDe c.type with
  | .enumeration e =>
      (∃ s ∈ e.valeurs, v = .texte s ∧ o = .membre e s) ∨ (connue e v = false ∧ o = c.defaut u)
  | .record classe => ecrit classe v o
  | .liste classe => ∃ vs os, v = .tableau vs ∧ o = .liste os ∧ List.Forall₂ (ecrit classe) vs os
  | .feuille => v = enBrut o

/-- The document holds every field of the record under its name, in any order and among any others.
-/
def Ecrit : Nat → Classe → Json → Objet → Prop
  | 0, _, _, _ => False
  | n + 1, classe, d, o =>
      ∃ items f, d = .objet items ∧ (items.map Prod.fst).Nodup ∧ o = classe.instancier f ∧
        ∀ c ∈ classe.champs, ∃ v, Dict.get? items c.nom = some v ∧
          ValeurEcrite u (Ecrit n) c v (f c)

end

def ValeurConnue (connu : Classe → Json → Prop) (c : Champ) (v : Json) : Prop :=
  match natureDe c.type with
  | .enumeration e => connue e v = true
  | .record classe => connu classe v
  | .liste classe => ∀ vs, v = .tableau vs → ∀ w ∈ vs, connu classe w
  | .feuille => True

/-- Each field of the document that announces a member names one, at any depth. -/
def Connu : Nat → Classe → Json → Prop
  | 0, _, _ => True
  | n + 1, classe, d =>
      ∀ items, d = .objet items → ∀ c ∈ classe.champs, ∀ v, Dict.get? items c.nom = some v →
        ValeurConnue (Connu n) c v

theorem natureDe_types :
    natureDe "str" = .feuille ∧ natureDe "float" = .feuille ∧ natureDe "list[str]" = .feuille ∧
      natureDe "dict[str, Any]" = .feuille ∧ natureDe "datetime" = .feuille ∧
      natureDe "Optional[datetime]" = .feuille ∧
      natureDe "MissionStatus" = .enumeration .missionStatus ∧
      natureDe "MissionPriority" = .enumeration .missionPriority ∧
      natureDe "MissionType" = .enumeration .missionType ∧
      natureDe "NodeStatus" = .enumeration .nodeStatus ∧
      natureDe "MissionContext" = .record .context ∧
      natureDe "list[MissionNode]" = .liste .node ∧
      natureDe "list[MissionEdge]" = .liste .edge := by decide +kernel

theorem defaut_membre {classe : Classe} {c : Champ} {e : Enumeration} (hc : c ∈ classe.champs)
    (h : natureDe c.type = .enumeration e) (u : Usine) : ∃ s, c.defaut u = .membre e s := by
  revert h
  revert c
  cases classe <;>
    simp [Classe.champs, champsMission, champsNode, champsEdge, champsContext, natureDe_types]

theorem lireMembre_of_connue {e : Enumeration} {v : Json} (h : connue e v = false) :
    lireMembre e v = .donnee .null := by
  cases v with
  | texte s =>
      have hs : s ∉ e.valeurs := by simpa [connue] using h
      simp [lireMembre, hs]
  | _ => rfl

section

variable {relire : Classe → Json → Option Objet}

theorem convertir_enumeration {type : String} {e : Enumeration}
    (h : natureDe type = .enumeration e) (v : Json) :
    convertir relire type v = some (lireMembre e v) := by
  unfold natureDe at h
  split at h
  · next x hfind =>
      cases h
      cases v <;> simp [convertir, hfind, lireMembre]
  · split_ifs at h

theorem type_of_record {type : String} {classe : Classe} (h : natureDe type = .record classe) :
    type = "MissionContext" ∧ classe = .context := by
  unfold natureDe at h
  split at h
  · cases h
  · split_ifs at h with hcontext
    cases h
    exact ⟨hcontext, rfl⟩

theorem type_of_liste {type : String} {classe : Classe} (h : natureDe type = .liste classe) :
    (type = "list[MissionNode]" ∧ classe = .node) ∨
      (type = "list[MissionEdge]" ∧ classe = .edge) := by
  unfold natureDe at h
  split at h
  · cases h
  · split_ifs at h with _ hnodes hedges
    · cases h
      exact .inl ⟨hnodes, rfl⟩
    · cases h
      exact .inr ⟨hedges, rfl⟩

theorem convertir_record {type : String} {classe : Classe} (h : natureDe type = .record classe)
    {items : List (String × Json)} :
    convertir relire type (.objet items) = relire classe (.objet items) := by
  obtain ⟨rfl, rfl⟩ := type_of_record h
  simp [convertir, noms_context.enumeration, noms_context.context]

theorem convertir_liste {type : String} {classe : Classe} (h : natureDe type = .liste classe)
    (vs : List Json) :
    convertir relire type (.tableau vs) = (vs.mapM (relire classe)).map .liste := by
  rcases type_of_liste h with ⟨rfl, rfl⟩ | ⟨rfl, rfl⟩
  · simp [convertir, noms_nodes.enumeration, noms_nodes.context, noms_nodes.node, parcourir]
  · simp [convertir, noms_edges.enumeration, noms_edges.context, noms_edges.node,
      noms_edges.edge, parcourir]

variable {classe : Classe} {items : List (String × Json)} {valeurs : List (String × Objet)}

theorem get?_lireChamps (h : lireChamps relire classe items = some valeurs) {c : Champ}
    (hc : c ∈ classe.champs) {v : Json} (hv : Dict.get? items c.nom = some v) :
    ∃ o, convertir relire c.type v = some o ∧ Dict.get? valeurs c.nom = some o := by
  induction items generalizing valeurs with
  | nil => cases hv
  | cons item items ih =>
      obtain ⟨nom, valeur⟩ := item
      rw [lireChamps] at h
      rw [Dict.get?_cons] at hv
      cases hfind : classe.champs.find? fun c => c.nom = nom with
      | none =>
          rw [hfind] at h
          have hne : c.nom ≠ nom := by
            have hnone := List.find?_eq_none.mp hfind c hc
            simpa using hnone
          rw [if_neg hne] at hv
          exact ih h hv
      | some c' =>
          rw [hfind] at h
          obtain ⟨o, ho, h⟩ := Option.bind_eq_some_iff.mp h
          obtain ⟨suite, hsuite, h⟩ := Option.bind_eq_some_iff.mp h
          cases h
          rw [Dict.get?_cons]
          by_cases heq : c.nom = nom
          · rw [← heq, find?_champs hc] at hfind
            rw [if_pos heq] at hv
            cases hfind
            cases hv
            exact ⟨o, ho, if_pos heq⟩
          · rw [if_neg heq] at hv ⊢
            exact ih hsuite hv

theorem isSome_lireChamps
    (h : ∀ c ∈ classe.champs, ∀ v, (c.nom, v) ∈ items → (convertir relire c.type v).isSome) :
    (lireChamps relire classe items).isSome := by
  induction items with
  | nil => rfl
  | cons item items ih =>
      obtain ⟨nom, valeur⟩ := item
      have hsuite := ih fun c hc v hv => h c hc v (List.mem_cons_of_mem _ hv)
      rw [lireChamps]
      cases hfind : classe.champs.find? fun c => c.nom = nom with
      | none => exact hsuite
      | some c =>
          have hnom : c.nom = nom := by simpa using List.find?_some hfind
          have hc := List.mem_of_find?_eq_some hfind
          have ho := h c hc valeur (by rw [hnom]; exact List.mem_cons_self)
          obtain ⟨o, ho⟩ := Option.isSome_iff_exists.mp ho
          obtain ⟨suite, hsuite⟩ := Option.isSome_iff_exists.mp hsuite
          simp [ho, hsuite]

variable {u : Usine} {n : Nat} {f g : Champ → Objet}

theorem instancier_inj : classe.instancier f = classe.instancier g ↔
    ∀ c ∈ classe.champs, f c = g c := by
  simp [Classe.instancier, List.map_inj_left]

theorem enObjet_of_champs (hcles : (items.map Prod.fst).Nodup)
    (h : ∀ c ∈ classe.champs, ∃ v, Dict.get? items c.nom = some v ∧
      convertir (enObjet u n) c.type v = some (f c)) :
    enObjet u (n + 1) classe (.objet items) = some (classe.instancier f) := by
  have hsome : (lireChamps (enObjet u n) classe items).isSome := by
    refine isSome_lireChamps fun c hc v hv => ?_
    obtain ⟨v', hv', ho⟩ := h c hc
    rw [Dict.get?_of_mem hcles hv] at hv'
    rw [Option.some.inj hv', ho]
    rfl
  obtain ⟨lues, hlues⟩ := Option.isSome_iff_exists.mp hsome
  rw [enObjet, hlues, Option.map_some]
  refine congrArg some (instancier_inj.mpr fun c hc => ?_)
  obtain ⟨v, hv, ho⟩ := h c hc
  obtain ⟨o, ho', hlue⟩ := get?_lireChamps hlues hc hv
  rw [ho] at ho'
  rw [Dict.getD, hlue, Option.getD_some, Option.some.inj ho']

theorem enItems_map (l : List Champ) :
    enItems (l.map fun c => (c.nom, f c)) = l.map fun c => (c.nom, enBrut (f c)) := by
  induction l with
  | nil => rfl
  | cons c l ih => rw [List.map_cons, enItems, ih, List.map_cons]

theorem convertir_of_relu
    (h : enObjet u (n + 1) classe (enBrut (classe.instancier f)) = some (classe.instancier f))
    {c : Champ} (hc : c ∈ classe.champs) :
    convertir (enObjet u n) c.type (enBrut (f c)) = some (f c) := by
  rw [Classe.instancier, enBrut, enObjet, enItems_map] at h
  obtain ⟨lues, hlues, heq⟩ := Option.map_eq_some_iff.mp h
  have hv : Dict.get? (classe.champs.map fun c => (c.nom, enBrut (f c))) c.nom
      = some (enBrut (f c)) := by
    refine Dict.get?_of_mem ?_ (List.mem_map.mpr ⟨c, hc, rfl⟩)
    have hcles := nodup_champs classe
    simpa [Dict.keys, Function.comp_def] using hcles
  obtain ⟨o, ho, hlue⟩ := get?_lireChamps hlues hc hv
  have hf := instancier_inj.mp heq c hc
  rw [Dict.getD, hlue, Option.getD_some] at hf
  rw [ho, hf]

end

section

variable {u : Usine} {n : Nat}

/-- What is read of a document that a record describes: the record, when every member is known. -/
def SeLit (u : Usine) (n : Nat) : Prop :=
  ∀ classe d o, Ecrit u n classe d o → enObjet u n classe (enBrut o) = some o →
    ∃ o', enObjet u n classe d = some o' ∧ (o' = o ↔ Connu n classe d)

theorem mapM_ecrits (hlit : SeLit u n) {classe : Classe} {vs : List Json} {os : List Objet}
    (h : List.Forall₂ (Ecrit u n classe) vs os)
    (hrelu : (enBruts os).mapM (enObjet u n classe) = some os) :
    ∃ os', vs.mapM (enObjet u n classe) = some os' ∧
      (os' = os ↔ ∀ w ∈ vs, Connu n classe w) := by
  induction h with
  | nil => exact ⟨[], rfl, by simp⟩
  | @cons v o vs os hecrit _ ih =>
      rw [enBruts, List.mapM_cons] at hrelu
      obtain ⟨o₁, ho₁, hrelu⟩ := Option.bind_eq_some_iff.mp hrelu
      obtain ⟨os₁, hos₁, hrelu⟩ := Option.bind_eq_some_iff.mp hrelu
      cases hrelu
      obtain ⟨o', hread, hiff⟩ := hlit classe v o hecrit ho₁
      obtain ⟨os', hreads, hiffs⟩ := ih hos₁
      refine ⟨o' :: os', by simp [hread, hreads], ?_⟩
      rw [List.cons.injEq, hiff, hiffs, List.forall_mem_cons]

theorem convertir_ecrite (hlit : SeLit u n) {classe : Classe} {c : Champ}
    (hc : c ∈ classe.champs) {v : Json} {o : Objet}
    (h : ValeurEcrite u (Ecrit u n) c v o)
    (hrelu : convertir (enObjet u n) c.type (enBrut o) = some o) :
    ∃ o', convertir (enObjet u n) c.type v = some o' ∧
      (o' = o ↔ ValeurConnue (Connu n) c v) := by
  unfold ValeurEcrite at h
  unfold ValeurConnue
  cases hnature : natureDe c.type with
  | enumeration e =>
      simp only [hnature] at h ⊢
      refine ⟨lireMembre e v, convertir_enumeration hnature v, ?_⟩
      rcases h with ⟨s, hs, rfl, rfl⟩ | ⟨hinconnue, rfl⟩
      · simp [lireMembre, connue, hs]
      · -- nothing was read, and the default is a member
        obtain ⟨s, hs⟩ := defaut_membre hc hnature u
        rw [lireMembre_of_connue hinconnue, hs, hinconnue]
        simp
  | record classe' =>
      simp only [hnature] at h ⊢
      cases n with
      | zero => exact h.elim
      | succ n =>
          obtain ⟨items, f, rfl, -, rfl, -⟩ := id h
          rw [Classe.instancier, enBrut, convertir_record hnature, ← enBrut] at hrelu
          obtain ⟨o', hread, hiff⟩ := hlit classe' _ _ h hrelu
          exact ⟨o', by rw [convertir_record hnature, hread], hiff⟩
  | liste classe' =>
      simp only [hnature] at h ⊢
      obtain ⟨vs, os, rfl, rfl, hall⟩ := h
      rw [enBrut, convertir_liste hnature] at hrelu
      obtain ⟨os₁, hos₁, heq⟩ := Option.map_eq_some_iff.mp hrelu
      cases heq
      obtain ⟨os', hread, hiff⟩ := mapM_ecrits hlit hall hos₁
      refine ⟨.liste os', by rw [convertir_liste hnature, hread, Option.map_some], ?_⟩
      rw [Objet.liste.injEq, hiff]
      simp
  | feuille =>
      simp only [hnature] at h ⊢
      subst h
      exact ⟨o, hrelu, by simp⟩

theorem seLit (u : Usine) (n : Nat) : SeLit u n := by
  induction n with
  | zero => exact fun classe d o h => h.elim
  | succ n ih =>
      rintro classe d o ⟨items, f, rfl, hcles, rfl, hchamps⟩ hrelu
      have hlues : ∀ c, ∃ o', c ∈ classe.champs → ∃ v, Dict.get? items c.nom = some v ∧
          convertir (enObjet u n) c.type v = some o' ∧
          (o' = f c ↔ ValeurConnue (Connu n) c v) := by
        intro c
        by_cases hc : c ∈ classe.champs
        · obtain ⟨v, hv, hecrite⟩ := hchamps c hc
          obtain ⟨o', hread, hiff⟩ := convertir_ecrite ih hc hecrite (convertir_of_relu hrelu hc)
          exact ⟨o', fun _ => ⟨v, hv, hread, hiff⟩⟩
        · exact ⟨.donnee .null, fun hc' => absurd hc' hc⟩
      choose g hg using hlues
      refine ⟨classe.instancier g, enObjet_of_champs hcles fun c hc => ?_, ?_⟩
      · obtain ⟨v, hv, hread, -⟩ := hg c hc
        exact ⟨v, hv, hread⟩
      · rw [instancier_inj]
        constructor
        · rintro heq items' hitems c hc v hv
          cases hitems
          obtain ⟨v', hv', -, hiff⟩ := hg c hc
          rw [hv] at hv'
          cases hv'
          exact hiff.mp (heq c hc)
        · intro hconnu c hc
          obtain ⟨v, hv, -, hiff⟩ := hg c hc
          exact hiff.mpr (hconnu items rfl c hc v hv)

theorem MissionContext.ecrit (u : Usine) (c : MissionContext) :
    Ecrit u 1 .context (enBrut c.objet) c.objet := by
  refine ⟨enItems c.champs, fun x => Dict.getD c.champs x.nom (x.defaut u), by
    rw [MissionContext.objet, enBrut], ?_,
    (construire_fidele (c.fidele : Fidele (fun _ _ => none) .context c.champs) u).symm, ?_⟩
  · simp [MissionContext.champs, enItems]
  · simp [Classe.champs, champsContext, ValeurEcrite, natureDe_types, Dict.get?_cons, Dict.getD,
      MissionContext.champs, enItems]

theorem MissionNode.ecrit (u : Usine) (n : MissionNode) :
    Ecrit u 1 .node (enBrut n.objet) n.objet := by
  have hpriority : n.priority.value ∈ Enumeration.missionPriority.valeurs := by
    cases n.priority <;> decide
  have hstatus : nodeStatusValue n.status ∈ Enumeration.nodeStatus.valeurs := by
    cases n.status <;> decide
  refine ⟨enItems n.champs, fun x => Dict.getD n.champs x.nom (x.defaut u), by
    rw [MissionNode.objet, enBrut], ?_,
    (construire_fidele (n.fidele : Fidele (fun _ _ => none) .node n.champs) u).symm, ?_⟩
  · simp [MissionNode.champs, enItems]
  · simp [Classe.champs, champsNode, ValeurEcrite, natureDe_types, Dict.get?_cons, Dict.getD,
      MissionNode.champs, enItems, enBrut, hpriority, hstatus]

/-- A mission that nothing has been done to, with one node. -/
def brouillon : Mission where
  missionId := "m1"
  title := "Audit"
  description := ""
  objective := ""
  type := .custom
  priority := .normal
  status := .created
  context :=
    { projectId := "", userId := "", repository := "", branch := "", localPath := "",
      tags := [], metadata := ⟨[], itemsVides⟩ }
  nodes :=
    [{ nodeId := "n1", missionId := "m1", title := "Lire", description := "", type := "task",
       priority := .high, status := .running, preferredAgent := "", preferredRuntime := "",
       benchmarkProfile := "", requiredSkills := [],
       estimatedResources := ⟨[], itemsVides⟩, estimatedDurationMs := .entier 0,
       dependsOn := [], validationCriteria := [], expectedOutputs := [], startedAt := none,
       completedAt := none, actualDurationMs := .entier 0, resultSummary := "" }]
  edges := []
  metadata := ⟨[], itemsVides⟩
  maxDurationSeconds := .entier 3600
  createdAt := ⟨⟨2026, 1, 1, 0, 0, 0, 0, some 0⟩, nouvelAn⟩
  updatedAt := none
  startedAt := none
  completedAt := none

/-- Its document in a version that has one more field, with this text as its status. -/
def documentFutur (statut : String) : Json :=
  .objet (("epoque", .entier 2) :: Dict.set (enItems brouillon.champs) "status" (.texte statut))

theorem valide_documentFutur (statut : String) : (documentFutur statut).Valide := by
  simp [documentFutur, brouillon, Mission.champs, enItems, enBrut, enBruts, Dict.set, Json.Valide,
    Json.ItemsValides, Json.ValeursValides, MissionContext.objet, MissionContext.champs,
    MissionNode.objet, MissionNode.champs, Nombre.json, Objet.dateOuRien]

theorem lire_documentFutur (statut : String) :
    Json.lire (String.ofList (Json.ecrire (documentFutur statut))).toList
      = some (documentFutur statut) := by
  rw [String.toList_ofList, Json.lire_ecrire (valide_documentFutur statut)]

theorem ecrit_documentFutur (u : Usine) {statut : String}
    (h : statut = "created" ∨ statut ∉ Enumeration.missionStatus.valeurs) :
    Ecrit u PROFONDEUR .mission (documentFutur statut) brouillon.objet := by
  refine ⟨_, fun c => Dict.getD brouillon.champs c.nom (c.defaut u), rfl, ?_,
    (construire_fidele (brouillon.fidele (u := u)) u).symm, ?_⟩
  · simp [brouillon, Mission.champs, enItems, Dict.set]
  · have hcontext := MissionContext.ecrit u brouillon.context
    have hnodes := fun n => MissionNode.ecrit u n
    simp [Classe.champs, champsMission, ValeurEcrite, natureDe_types, Dict.get?_cons, Dict.getD,
      brouillon, Mission.champs, enItems, Dict.set, enBrut, enBruts, hnodes] at hcontext ⊢
    refine ⟨.inl (by decide), .inl (by decide), ?_, hcontext⟩
    rcases h with h | h
    · exact .inl ⟨by decide, h⟩
    · exact .inr ⟨by simpa [connue] using h, rfl⟩

theorem connu_documentFutur (statut : String) :
    Connu PROFONDEUR .mission (documentFutur statut) ↔
      statut ∈ Enumeration.missionStatus.valeurs := by
  have hvaleurs : connue .missionType (.texte MissionType.custom.value) = true ∧
      connue .missionPriority (.texte MissionPriority.normal.value) = true ∧
      connue .missionPriority (.texte MissionPriority.high.value) = true ∧
      connue .nodeStatus (.texte (nodeStatusValue .running)) = true := by decide
  have hstatut : connue .missionStatus (.texte statut) = true ↔
      statut ∈ Enumeration.missionStatus.valeurs := by simp [connue]
  simp [Connu, PROFONDEUR, documentFutur, Classe.champs, champsMission, champsContext, champsNode,
    ValeurConnue, natureDe_types, Dict.get?_cons, brouillon, Mission.champs, enItems, Dict.set,
    enBrut, enBruts, MissionNode.objet, MissionNode.champs, MissionContext.objet,
    MissionContext.champs, hvaleurs, hstatut]

theorem depuis_ecrit (u : Usine) {texte : String} {d : Json} {m : Mission}
    (hlu : Json.lire texte.toList = some d) (h : Ecrit u PROFONDEUR .mission d m.objet) :
    ∃ o, depuis u texte = some o ∧ (o = m.objet ↔ Connu PROFONDEUR .mission d) := by
  obtain ⟨champs, -, hrelu⟩ := m.relu (u := u)
  obtain ⟨o, hread, hiff⟩ := seLit u PROFONDEUR .mission d m.objet h hrelu
  exact ⟨o, by rw [depuis, hlu, Option.bind_some, hread], hiff⟩

/-- A document that describes a mission is read as that mission, with the default of each member
that is not known, exactly when every member is known. -/
theorem relecture_iff (u : Usine) {texte : String} {d : Json} {m : Mission}
    (hlu : Json.lire texte.toList = some d) (h : Ecrit u PROFONDEUR .mission d m.objet) :
    depuis u texte = some m.objet ↔ Connu PROFONDEUR .mission d := by
  obtain ⟨o, hread, hiff⟩ := depuis_ecrit u hlu h
  rw [hread, Option.some.injEq, hiff]

def usine : Usine where
  uuid := "f0"
  maintenant := ⟨⟨2026, 1, 3, 0, 0, 0, 0, some 0⟩, by decide⟩

theorem relecture_iff_documentFutur :
    depuis usine (String.ofList (Json.ecrire (documentFutur "created"))) = some brouillon.objet :=
  (relecture_iff usine (lire_documentFutur "created") (ecrit_documentFutur usine (.inl rfl))).mpr
    ((connu_documentFutur "created").mpr (by decide))

/-- A status that another version wrote does not give way to the default. -/
theorem statut_inconnu_sans_defaut :
    Json.lire (String.ofList (Json.ecrire (documentFutur "archived"))).toList
        = some (documentFutur "archived") ∧
      Ecrit usine PROFONDEUR .mission (documentFutur "archived") brouillon.objet ∧
      depuis usine (String.ofList (Json.ecrire (documentFutur "archived")))
        ≠ some brouillon.objet := by
  have hecrit : Ecrit usine PROFONDEUR .mission (documentFutur "archived") brouillon.objet :=
    ecrit_documentFutur usine (.inr (by decide))
  obtain ⟨o, hread, hiff⟩ := depuis_ecrit usine (lire_documentFutur "archived") hecrit
  refine ⟨lire_documentFutur "archived", hecrit, fun heq => ?_⟩
  rw [hread] at heq
  have hconnu := hiff.mp (Option.some.inj heq)
  exact absurd ((connu_documentFutur "archived").mp hconnu) (by decide)

end

end Hermes.Persistance
