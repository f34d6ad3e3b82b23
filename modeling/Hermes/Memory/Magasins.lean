import Hermes.Lib.Tri
import Hermes.Memory.Confiance
import Hermes.Memory.UnifiedMemory
import Mathlib.Data.Rat.Defs
import Mathlib.Algebra.Order.Ring.Rat

/-! # The stores of the memory manager

Four kinds of memories, each object with the provenance that was attached to it, and the indexes
of the stores, which hold references to the objects: an object that a caller still has in hand is
the one that the store holds.
-/

namespace Hermes.Memory.Manager

open Lib

/-- What the interpreter answers: `str.lower`, formatted numbers, the order of a set. -/
structure Hote where
  lower : String → String
  lower_vide : lower "" = ""
  dureeMoyenne : ℚ → Int → String
  pourcent : ℚ → String
  arrondi : ℚ → ℚ
  liste : List String → List String
  liste_perm : ∀ textes, (liste textes).Perm textes

structure EpisodicMemory where
  episodeId : String
  missionId : String := ""
  missionTitle : String := ""
  missionType : String := ""
  success : Bool := true
  totalNodes : Int := 0
  completedNodes : Int := 0
  failedNodes : Int := 0
  durationSeconds : ℚ := 0
  modelsUsed : List String := []
  /-- `incident.get("description", "")` of each incident. -/
  incidents : List String := []
  lessonsLearned : List String := []
  improvements : List String := []
  tags : List String := []
  provenance : Option Provenance := none
  deriving DecidableEq

structure SemanticMemory where
  conceptId : String
  name : String := ""
  category : String := ""
  description : String := ""
  tags : List String := []
  provenance : Option Provenance := none
  deriving DecidableEq

structure ProceduralMemory where
  procedureId : String
  name : String := ""
  description : String := ""
  category : String := ""
  successRate : ℚ := 0
  usageCount : Nat := 0
  tags : List String := []
  provenance : Option Provenance := none
  deriving DecidableEq

structure DocumentMemory where
  documentId : String
  title : String := ""
  content : String := ""
  summary : String := ""
  tags : List String := []
  provenance : Option Provenance := none
  deriving DecidableEq

inductive Souvenir where
  | episode (e : EpisodicMemory)
  | concept (c : SemanticMemory)
  | procedure (p : ProceduralMemory)
  | document (d : DocumentMemory)
  deriving DecidableEq

namespace Souvenir

def provenance : Souvenir → Option Provenance
  | .episode e => e.provenance
  | .concept c => c.provenance
  | .procedure p => p.provenance
  | .document d => d.provenance

def provenanceDe (v : Souvenir) : Provenance := v.provenance.getD {}

def enQuarantaine (v : Souvenir) : Bool := v.provenanceDe.enQuarantaine

def avecProvenance (p : Option Provenance) : Souvenir → Souvenir
  | .episode e => .episode { e with provenance := p }
  | .concept c => .concept { c with provenance := p }
  | .procedure v => .procedure { v with provenance := p }
  | .document d => .document { d with provenance := p }

def sourceType : Souvenir → String
  | .episode _ => "episodic"
  | .concept _ => "semantic"
  | .procedure _ => "procedural"
  | .document _ => "document"

def sourceId : Souvenir → String
  | .episode e => e.episodeId
  | .concept c => c.conceptId
  | .procedure p => p.procedureId
  | .document d => d.documentId

def textes : Souvenir → List String
  | .episode e => [e.missionTitle, e.missionType] ++ e.tags
  | .concept c => [c.name, c.description] ++ c.tags
  | .procedure p => [p.name, p.description] ++ p.tags
  | .document d => [d.title, d.content, d.summary] ++ d.tags

def correspond (h : Hote) (query : String) (v : Souvenir) : Bool :=
  v.textes.any fun texte => contient (h.lower query) (h.lower texte)

end Souvenir

/-- The objects, and the indexes of the stores; the indexes that no search reads are left out. -/
structure Etat where
  objets : List Souvenir := []
  episodes : Dict String Nat := []
  byTag : Dict String (List String) := []
  concepts : Dict String Nat := []
  procedures : Dict String (List Nat) := []
  documents : Dict String (List Nat) := []
  deriving DecidableEq

namespace Etat

def episodeDe (s : Etat) (ref : Nat) : Option EpisodicMemory :=
  match s.objets[ref]? with
  | some (.episode e) => some e
  | _ => none

def conceptDe (s : Etat) (ref : Nat) : Option SemanticMemory :=
  match s.objets[ref]? with
  | some (.concept c) => some c
  | _ => none

def procedureDe (s : Etat) (ref : Nat) : Option ProceduralMemory :=
  match s.objets[ref]? with
  | some (.procedure p) => some p
  | _ => none

def documentDe (s : Etat) (ref : Nat) : Option DocumentMemory :=
  match s.objets[ref]? with
  | some (.document d) => some d
  | _ => none

/-- `_episodes.values()`. -/
def lesEpisodes (s : Etat) : List EpisodicMemory :=
  s.episodes.filterMap fun item => s.episodeDe item.2

def lesConcepts (s : Etat) : List SemanticMemory :=
  s.concepts.filterMap fun item => s.conceptDe item.2

def lesProcedures (s : Etat) : List ProceduralMemory :=
  s.procedures.filterMap fun item => item.2.getLast?.bind s.procedureDe

def lesDocuments (s : Etat) : List DocumentMemory :=
  s.documents.flatMap fun item => item.2.filterMap s.documentDe

def record (s : Etat) (ref : Nat) (e : EpisodicMemory) : Etat :=
  { s with
    episodes := s.episodes.set e.episodeId ref
    byTag := e.tags.foldl
      (fun byTag tag => Dict.set byTag tag (Dict.getD byTag tag [] ++ [e.episodeId])) s.byTag }

def store (s : Etat) (ref : Nat) (c : SemanticMemory) : Etat :=
  { s with concepts := s.concepts.set c.conceptId ref }

def storeVersion (s : Etat) (ref : Nat) (p : ProceduralMemory) : Etat :=
  { s with procedures := s.procedures.set p.name (s.procedures.getD p.name [] ++ [ref]) }

def index (s : Etat) (ref : Nat) (d : DocumentMemory) : Etat :=
  { s with documents := s.documents.set d.title (s.documents.getD d.title [] ++ [ref]) }

section Lecture

variable (h : Hote)

def couper {β : Type*} (l : List β) (limit : Int) : List β := Page.slice l 0 (some limit)

def searchByKeyword (s : Etat) (query : String) (limit : Int) : List EpisodicMemory :=
  couper (s.lesEpisodes.filter fun e => (Souvenir.episode e).correspond h query) limit

def candidats (s : Etat) (tags : List String) : Dict String Nat :=
  tags.foldl
    (fun candidates tag => (s.byTag.getD tag []).foldl
      (fun candidates id => Dict.set candidates id (Dict.getD candidates id 0 + 1)) candidates) []

/-- `sorted(counts, key=counts.get, reverse=True)`. -/
def classer (counts : Dict String Nat) : List String :=
  counts.keys.insertionSort fun a b => counts.getD b 0 ≤ counts.getD a 0

def findSimilar (s : Etat) (tags : List String) (missionType : String) (limit : Int) :
    List EpisodicMemory :=
  let results := couper (classer (s.candidats tags)) limit
  let episodes := results.filterMap fun id => (s.episodes.get? id).bind s.episodeDe
  let episodes :=
    if missionType = "" then episodes
    else episodes.filter fun e => e.missionType = missionType
  couper episodes limit

def getSuccessful (s : Etat) (limit : Int) : List EpisodicMemory :=
  couper (s.lesEpisodes.filter fun e => e.success) limit

def getFailed (s : Etat) (limit : Int) : List EpisodicMemory :=
  couper (s.lesEpisodes.filter fun e => !e.success) limit

def semanticSearch (s : Etat) (query : String) (limit : Int) : List SemanticMemory :=
  couper (s.lesConcepts.filter fun c => (Souvenir.concept c).correspond h query) limit

def proceduralSearch (s : Etat) (query : String) (limit : Int) : List ProceduralMemory :=
  couper
    ((s.lesProcedures.filter fun p => (Souvenir.procedure p).correspond h query).insertionSort
      fun a b => b.successRate < a.successRate ∨
        (b.successRate = a.successRate ∧ b.usageCount ≤ a.usageCount)) limit

def documentSearch (s : Etat) (query : String) (limit : Int) : List DocumentMemory :=
  couper (s.lesDocuments.filter fun d => (Souvenir.document d).correspond h query) limit

end Lecture

end Etat

end Hermes.Memory.Manager
