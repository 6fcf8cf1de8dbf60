import Mathlib.Algebra.Ring.Nat
import Mathlib.Algebra.BigOperators.Group.List.Basic
import Mathlib.Algebra.Order.Ring.Unbundled.Rat
import Mathlib.Data.Prod.Lex
import Simlock.Core.Json
import Simlock.Lib.Ordered

/-! The table of stored events.

    A row has the event as JSON text, kept here as what the text reads as: a damaged row reads as
    nothing. Rows are inserted once for an id, and get the row after the last. The table carries what
    its keys and its writer promise: no two rows of one id or of one place, and a row that can be read
    holds the event of its id. -/

namespace Simlock.History

open Core (Json payloadOf)

/-- `EVENT_ID_PATTERN`: `evt_` and 1 to 64 letters, digits, `_` or `-`. -/
def isEventId (id : String) : Bool :=
  let rest := id.toList.drop 4
  id.toList.take 4 = "evt_".toList && 1 ≤ rest.length && rest.length ≤ 64 &&
    rest.all fun c => ('A' ≤ c && c ≤ 'Z') || ('a' ≤ c && c ≤ 'z') || ('0' ≤ c && c ≤ '9') ||
      c = '_' || c = '-'

def eventId (envelope : Json) : Option String :=
  match Core.Payload.field (payloadOf (some envelope)) "id" with
  | some (.string id) => some id
  | _ => none

/-- An envelope that can be read is an object with an event's id. -/
def parseEnvelope (envelope : Option Json) : Option Json :=
  envelope.filter fun envelope => (eventId envelope).any isEventId

/-- A row of `events`. -/
structure StoredEvent where
  rowid : Nat
  id : String
  timestamp : ℚ
  seq : Nat
  size : Nat
  envelope : Option Json

structure EventTable where
  rows : List StoredEvent
  rowids : (rows.map StoredEvent.rowid).Nodup
  ids : (rows.map StoredEvent.id).Nodup
  named : ∀ row ∈ rows, ∀ event, parseEnvelope row.envelope = some event →
    eventId event = some row.id

/-- An event of the bus: its id, its other fields, and the size of its JSON text; no size is an
    event that cannot be serialized. -/
structure BusEvent where
  id : String
  timestamp : ℚ
  seq : Nat
  fields : Core.Payload
  size : Option Nat

/-- `JSON.stringify`, as it reads back. -/
def BusEvent.json (event : BusEvent) : Json := .object (("id", .string event.id) :: event.fields)

def totalSize (rows : List StoredEvent) : Nat := (rows.map StoredEvent.size).sum

/-- `ORDER BY timestamp, rowid`. -/
def pruneKey (row : StoredEvent) : ℚ ×ₗ ℕ := toLex (row.timestamp, row.rowid)

def oldestFirst (rows : List StoredEvent) : List StoredEvent := Lib.ordered pruneKey rows

namespace EventTable

def empty : EventTable := ⟨[], List.nodup_nil, List.nodup_nil, nofun⟩

variable (table : EventTable)

/-- `totalEventBytes`. -/
def totalEventBytes : Nat := totalSize table.rows

def holds (id : String) : Bool := table.rows.any fun row => row.id = id

/-- The row after the last. -/
def nextRowid : Nat := ((table.rows.map StoredEvent.rowid).max?.getD 0) + 1

def newRow (event : BusEvent) (size : Nat) : StoredEvent :=
  ⟨table.nextRowid, event.id, event.timestamp, event.seq, size, some event.json⟩

theorem rowid_lt_next {row : StoredEvent} (h : row ∈ table.rows) : row.rowid < table.nextRowid := by
  have hmem : row.rowid ∈ table.rows.map StoredEvent.rowid := List.mem_map_of_mem h
  unfold nextRowid
  cases hmax : (table.rows.map StoredEvent.rowid).max? with
  | none =>
    rw [List.max?_eq_none_iff] at hmax
    rw [hmax] at hmem
    cases hmem
  | some last => exact Nat.lt_succ_of_le ((List.max?_eq_some_iff.1 hmax).2 _ hmem)

/-- The row is not there yet: the table with it. -/
def insertNew (event : BusEvent) (size : Nat) (hnew : table.holds event.id = false) :
    EventTable where
  rows := table.rows ++ [table.newRow event size]
  rowids := by
    rw [List.map_append, List.nodup_append]
    refine ⟨table.rowids, List.nodup_singleton _, ?_⟩
    rintro a ha b hb rfl
    obtain ⟨row, hrow, rfl⟩ := List.mem_map.1 ha
    exact absurd (List.mem_singleton.1 hb) (table.rowid_lt_next hrow).ne
  ids := by
    rw [List.map_append, List.nodup_append]
    refine ⟨table.ids, List.nodup_singleton _, ?_⟩
    rintro a ha b hb rfl
    obtain ⟨row, hrow, rfl⟩ := List.mem_map.1 ha
    have hne : row.id ≠ event.id := by simpa using List.any_eq_false.1 hnew row hrow
    exact hne (List.mem_singleton.1 hb)
  named := by
    intro row hrow e he
    rcases List.mem_append.1 hrow with hrow | hrow
    · exact table.named row hrow e he
    · rw [List.mem_singleton.1 hrow] at he ⊢
      rw [← (Option.filter_eq_some_iff.1 he).1 |> Option.some.inj]
      rfl

/-- `INSERT OR IGNORE`. -/
def insertOrIgnore (event : BusEvent) (size : Nat) : EventTable :=
  if h : table.holds event.id = false then table.insertNew event size h else table

/-- `DELETE`: the rows that are kept. -/
def keep (p : StoredEvent → Bool) : EventTable where
  rows := table.rows.filter p
  rowids := (List.filter_sublist.map _).nodup table.rowids
  ids := (List.filter_sublist.map _).nodup table.ids
  named := fun row hrow => table.named row (List.mem_filter.1 hrow).1

theorem nodup_pruneKey : (table.rows.map pruneKey).Nodup := by
  have h := table.rowids
  rw [List.Nodup, List.pairwise_map] at h ⊢
  refine h.imp fun {a b} hab heq => hab ?_
  exact congrArg (fun key => (ofLex key).2) heq

end EventTable

end Simlock.History
