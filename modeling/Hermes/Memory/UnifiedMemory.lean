import Hermes.Lib.Dict
import Hermes.Lib.Page
import Mathlib.Data.Finset.Sort
import Mathlib.Data.List.Infix
import Mathlib.Data.String.Basic

/-! # Unified memory

The entries, the queries, and the backend that holds its entries in a dictionary. Timestamps are
any ordered values, metadata any value that JSON knows.
-/

namespace Hermes.Memory

open Lib Lib.Page

inductive MemoryScope where
  | session
  | mission
  | agent
  | project
  | user
  | global
  | experience
  deriving DecidableEq

def MemoryScope.value : MemoryScope → String
  | .session => "session"
  | .mission => "mission"
  | .agent => "agent"
  | .project => "project"
  | .user => "user"
  | .global => "global"
  | .experience => "experience"

inductive Scope where
  | membre (scope : MemoryScope)
  | texte (scope : String)
  deriving DecidableEq

def Scope.value : Scope → String
  | .membre scope => scope.value
  | .texte scope => scope

structure MemoryEntry (τ μ : Type*) where
  id : String
  scope : Scope
  title : String := ""
  content : String := ""
  tags : Finset String := ∅
  importance : Int := 1
  createdAt : τ
  updatedAt : τ
  metadata : μ

structure MemoryQuery (τ ν : Type*) where
  scope : Option Scope := none
  tags : Option (Finset String) := none
  text : Option String := none
  minImportance : Option Int := none
  since : Option τ := none
  until_ : Option τ := none
  metadataFilter : Option (List (String × ν)) := none
  limit : Option Int := none
  offset : Int := 0

variable {τ μ ν : Type*}

def MemoryEntry.vue (e : MemoryEntry τ μ) : MemoryEntry τ μ := { e with scope := .texte e.scope.value }

/-- What the interpreter answers: `str.lower`, and `metadata.get(key) == value`. -/
structure Interprete (μ ν : Type*) where
  lower : String → String
  egale : μ → String → ν → Bool

/-- `part in whole`. -/
def contient (part whole : String) : Bool := part.toList <:+: whole.toList

def filtrer {α β : Type*} (demande : Option α) (test : α → β → Bool) (results : List β) : List β :=
  match demande with
  | none => results
  | some a => results.filter (test a)

abbrev Entries (τ μ : Type*) := Dict String (MemoryEntry τ μ)

namespace InMemoryBackend

def store (d : Entries τ μ) (e : MemoryEntry τ μ) : Entries τ μ := d.set e.id e

def get (d : Entries τ μ) (id : String) : Option (MemoryEntry τ μ) := d.get? id

def delete (d : Entries τ μ) (id : String) : Entries τ μ × Bool :=
  if (d.get? id).isSome then (d.erase id, true) else (d, false)

def clearScope (d : Entries τ μ) (scope : Scope) : Entries τ μ × Nat :=
  let restent := d.filter fun item => item.2.scope.value ≠ scope.value
  (restent, d.length - restent.length)

def allEntries (d : Entries τ μ) : List (MemoryEntry τ μ) := d.map Prod.snd

def count (d : Entries τ μ) : Nat := d.length

def countByScope (d : Entries τ μ) : Dict String Nat :=
  (allEntries d).foldl (fun counts e =>
    Dict.set counts e.scope.value (Dict.getD counts e.scope.value 0 + 1)) []

def texte (i : Interprete μ ν) (text : String) (e : MemoryEntry τ μ) : Bool :=
  contient (i.lower text) (i.lower e.title) || contient (i.lower text) (i.lower e.content)

variable [LinearOrder τ]

/-- The entries that match, the last created first. -/
def trouvees (i : Interprete μ ν) (d : Entries τ μ) (q : MemoryQuery τ ν) :
    List (MemoryEntry τ μ) :=
  let results := allEntries d
  let results := filtrer q.scope (fun scope e => e.scope.value = scope.value) results
  let results := filtrer (q.tags.filter fun tags => tags.Nonempty)
    (fun tags e => (tags ∩ e.tags).Nonempty) results
  let results := filtrer q.text (texte i) results
  let results := filtrer q.minImportance (fun min e => min ≤ e.importance) results
  let results := filtrer q.since (fun since e => since ≤ e.createdAt) results
  let results := filtrer q.until_ (fun limite e => e.createdAt ≤ limite) results
  let results := (q.metadataFilter.getD []).foldl (fun results item =>
    results.filter fun e => i.egale e.metadata item.1 item.2) results
  results.mergeSort fun a b => b.createdAt ≤ a.createdAt

/-- Where the page starts and ends in `n` results. -/
def bornes (n : Nat) (q : MemoryQuery τ ν) : Int × Option Int :=
  let start := min q.offset n
  (start, q.limit.map fun limit => start + limit)

def search (i : Interprete μ ν) (d : Entries τ μ) (q : MemoryQuery τ ν) :
    List (MemoryEntry τ μ) :=
  let results := trouvees i d q
  slice results (bornes results.length q).1 (bornes results.length q).2

end InMemoryBackend

end Hermes.Memory
