import Hermes.Lib.Table
import Hermes.Memory.UnifiedMemory

/-! # Durable backend of the unified memory

The same entries as rows of a table: tags and metadata as JSON texts, the filters on columns in
the statement, the ones on JSON after it.
-/

namespace Hermes.Memory

open Lib Lib.Page

/-- `json.dumps` and `json.loads` on the values of a type. -/
structure Codec (α : Type*) where
  dumps : α → String
  loads : String → Option α
  relire : ∀ a, loads (dumps a) = some a
  nonVide : ∀ a, dumps a ≠ ""

/-- The interpreter, its JSON, and the `ILIKE` that the engine evaluates (pattern, then value). -/
structure Hote (μ ν : Type*) extends Interprete μ ν where
  tags : Codec (List String)
  metadata : Codec μ
  /-- `{}`. -/
  metadataVide : μ
  ilike : String → String → Bool

structure UnifiedMemoryRow (τ : Type*) where
  id : String
  scope : String
  title : String
  content : String
  tags : String
  importance : Int
  createdAt : τ
  updatedAt : τ
  metadataJson : String

abbrev Rows (τ : Type*) := Table (UnifiedMemoryRow.id (τ := τ))

variable {τ μ ν : Type*}

def toEntry (h : Hote μ ν) (row : UnifiedMemoryRow τ) : MemoryEntry τ μ where
  id := row.id
  scope := .texte row.scope
  title := row.title
  content := row.content
  tags := ((h.tags.loads (if row.tags = "" then "[]" else row.tags)).getD []).toFinset
  importance := row.importance
  createdAt := row.createdAt
  updatedAt := row.updatedAt
  metadata :=
    (h.metadata.loads (if row.metadataJson = "" then "\x7b\x7d" else row.metadataJson)).getD
      h.metadataVide

def toRow (h : Hote μ ν) (e : MemoryEntry τ μ) : UnifiedMemoryRow τ where
  id := e.id
  scope := e.scope.value
  title := e.title
  content := e.content
  tags := h.tags.dumps (e.tags.sort (· ≤ ·))
  importance := e.importance
  createdAt := e.createdAt
  updatedAt := e.updatedAt
  metadataJson := h.metadata.dumps e.metadata

/-- How the engine orders the rows of a result by decreasing timestamps. -/
structure OrderBy (τ : Type*) [LinearOrder τ] where
  ordre : List (UnifiedMemoryRow τ) → List (UnifiedMemoryRow τ)
  perm : ∀ rows, (ordre rows).Perm rows
  decroissant : ∀ rows, Decroissant UnifiedMemoryRow.createdAt (ordre rows)

namespace SqliteMemoryBackend

def store (h : Hote μ ν) (t : Rows τ) (e : MemoryEntry τ μ) : Rows τ :=
  match t.lire e.id with
  | none => (t.inserer (toRow h e)).getD t
  | some _ => t.remplacer (toRow h e)

def get (h : Hote μ ν) (t : Rows τ) (id : String) : Option (MemoryEntry τ μ) :=
  (t.lire id).map (toEntry h)

def delete (t : Rows τ) (id : String) : Rows τ × Bool :=
  match t.lire id with
  | none => (t, false)
  | some _ => (t.retirer id, true)

/-- `DELETE … WHERE scope = …`, and the rows that left. -/
def clearScope (t : Rows τ) (scope : Scope) : Rows τ × Nat :=
  let restent : Rows τ :=
    { lignes := t.lignes.filter fun row => row.scope ≠ scope.value
      uniques := t.uniques.sublist (List.filter_sublist.map _) }
  (restent, t.lignes.countP fun row => row.scope = scope.value)

def count (t : Rows τ) : Nat := t.lignes.length

/-- `SELECT scope, count(*) … GROUP BY scope`. -/
def countByScope (t : Rows τ) : Dict String Nat :=
  (t.lignes.map UnifiedMemoryRow.scope).dedup.map fun scope =>
    (scope, t.lignes.countP fun row => row.scope = scope)

/-- `title ILIKE '%text%' OR content ILIKE '%text%'`. -/
def texte (h : Hote μ ν) (text title content : String) : Bool :=
  if text = "" then true
  else h.ilike ("%" ++ text ++ "%") title || h.ilike ("%" ++ text ++ "%") content

variable [LinearOrder τ]

def conditions (h : Hote μ ν) (q : MemoryQuery τ ν) (row : UnifiedMemoryRow τ) : Bool :=
  q.scope.all (fun scope => row.scope = scope.value) &&
    q.minImportance.all (fun min => min ≤ row.importance) &&
    q.since.all (fun since => since ≤ row.createdAt) &&
    q.until_.all (fun limite => row.createdAt ≤ limite) &&
    q.text.all fun text => texte h text row.title row.content

def filtresJson (h : Hote μ ν) (q : MemoryQuery τ ν) (e : MemoryEntry τ μ) : Bool :=
  q.tags.all (fun tags => tags = ∅ || (tags ∩ e.tags).Nonempty) &&
    q.metadataFilter.all fun items => items.all fun item => h.egale e.metadata item.1 item.2

def search (h : Hote μ ν) (o : OrderBy τ) (t : Rows τ) (q : MemoryQuery τ ν) :
    List (MemoryEntry τ μ) :=
  let rows := o.ordre (t.lignes.filter (conditions h q))
  let entries := (rows.map (toEntry h)).filter (filtresJson h q)
  let entries := if q.offset ≠ 0 then slice entries q.offset none else entries
  match q.limit with
  | none => entries
  | some limit => slice entries 0 (some limit)

end SqliteMemoryBackend

end Hermes.Memory
