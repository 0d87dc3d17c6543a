import Chronicle.Query.Statement
import Chronicle.Time.Rfc3339

/-!
# Tables

The content of a database: the events in the order they were written, the
projections in the order of their keys, the indexes, and the schema version.

Rows that the library writes hold values and instants. Rows put there from
outside hold any document and any time stamps, and may not be readable: reading
a row (`EventRow.read`, `ProjectionRow.read`) fails when its payload is nested
too deeply or its text is no value, or when a time stamp is malformed.
-/

namespace Chronicle

/-- The content of a time-stamp column. -/
inductive Stamp where
  | instant (value : Instant)
  | verbatim (text : String)
  deriving DecidableEq, Inhabited

/-- The instant of a time stamp, if it is well formed. -/
def Stamp.read? : Stamp → Option Instant
  | instant value => some value
  | verbatim text => Instant.ofStrict? text

/-- The fault of a row that cannot be read. -/
def unreadable : Fault := .storage "a column could not be converted"

structure EventRow where
  id : EventId
  type : String
  data : Payload
  created : Stamp
  updated : Stamp
  deriving Inhabited

def EventRow.read (row : EventRow) : Except Fault StoredEvent :=
  match row.data.toJson?, row.created.read?, row.updated.read? with
  | some data, some created, some updated => .ok ⟨row.id, row.type, data, created, updated⟩
  | _, _, _ => .error unreadable

structure ProjectionRow where
  type : String
  id : String
  data : Payload
  lastEvent : EventId
  created : Stamp
  updated : Stamp
  deriving Inhabited

def ProjectionRow.hasKey (row : ProjectionRow) (type id : String) : Bool :=
  row.type = type && row.id = id

def ProjectionRow.read (row : ProjectionRow) : Except Fault StoredProjection :=
  match row.data.toJson?, row.created.read?, row.updated.read? with
  | some data, some created, some updated =>
    .ok ⟨row.type, row.id, data, row.lastEvent, created, updated⟩
  | _, _, _ => .error unreadable

/-- The tables that payload indexes can be built on. -/
inductive TableName where
  | events
  | projections
  deriving DecidableEq

namespace TableName

def text : TableName → String
  | events => "events"
  | projections => "projections"

def ofText? : String → Option TableName
  | "events" => some events
  | "projections" => some projections
  | _ => none

end TableName

/-- An index, by name, with its table. -/
structure Index where
  name : String
  table : TableName
  deriving DecidableEq

/-- Index names are told apart without regard to case. -/
def Index.hasName (index : Index) (name : String) : Bool := index.name.toLower = name.toLower

structure Tables where
  /-- The schema version, if its row is there. -/
  version : Option Int
  /-- The events, by id. -/
  events : List EventRow
  /-- The projections, by key. -/
  projections : List ProjectionRow
  indexes : List Index
  /-- Event types whose rows are refused. -/
  barred : List String
  deriving Inhabited

namespace Tables

/-! ## Events -/

/-- The id of the last event, or zero. -/
def lastId (t : Tables) : EventId := (t.events.getLast?.map EventRow.id).getD noEvent

/-- Write a row of the event table as it is, under the next id. Payloads that
are nested too deeply and barred types are refused. -/
def insertRow (t : Tables) (type : String) (data : Payload) (created updated : Stamp) :
    Except Fault (EventRow × Tables) :=
  if ¬ data.isStorable then .error (.storage "payload is not valid JSON")
  else if t.barred.contains type then .error (.storage "event type is refused")
  else
    let row : EventRow := ⟨t.lastId + 1, type, data, created, updated⟩
    .ok (row, { t with events := t.events ++ [row] })

/-- A row is written after all others, under the id that follows the last. -/
theorem insertRow_eq_ok {t after : Tables} {type : String} {data : Payload}
    {created updated : Stamp} {row : EventRow}
    (written : t.insertRow type data created updated = .ok (row, after)) :
    row = ⟨t.lastId + 1, type, data, created, updated⟩ ∧
      after = { t with events := t.events ++ [row] } := by
  unfold insertRow at written
  split at written
  · simp at written
  · split at written
    · simp at written
    · simp only [Except.ok.injEq, Prod.mk.injEq] at written
      obtain ⟨rfl, rfl⟩ := written
      exact ⟨rfl, rfl⟩

/-- Write a draft and read it back. -/
def insert (t : Tables) (now : Instant) (draft : Draft) : Except Fault (StoredEvent × Tables) := do
  let (row, t) ← t.insertRow draft.type (.value draft.data) (.instant now) (.instant now)
  return (← row.read, t)

theorem insert_eq_ok {t after : Tables} {now : Instant} {draft : Draft} {event : StoredEvent}
    (written : t.insert now draft = .ok (event, after)) :
    ∃ row : EventRow,
      row = ⟨t.lastId + 1, draft.type, .value draft.data, .instant now, .instant now⟩ ∧
      row.read = .ok event ∧ after = { t with events := t.events ++ [row] } := by
  simp only [insert, bind, Except.bind, pure, Except.pure] at written
  split at written
  · simp at written
  · rename_i pair inserted
    obtain ⟨row, grown⟩ := pair
    obtain ⟨sameRow, rfl⟩ := insertRow_eq_ok inserted
    split at written
    · simp at written
    · rename_i reads
      simp only [Except.ok.injEq, Prod.mk.injEq] at written
      obtain ⟨rfl, rfl⟩ := written
      exact ⟨row, sameRow, reads, rfl⟩

/-- Write drafts in order. If one is refused, nothing is written. -/
def insertAll (now : Instant) : List Draft → Tables → Except Fault (List StoredEvent × Tables)
  | [], t => .ok ([], t)
  | draft :: drafts, t => do
    let (row, t) ← t.insert now draft
    let (rows, t) ← insertAll now drafts t
    return (row :: rows, t)

/-- The event comes after the floor, if one is given. -/
def isAfter (after : Option EventId) (row : EventRow) : Bool := after.all (· < row.id)

/-- The rows of a selection, those after a floor if one is given. -/
def selected (t : Tables) (s : Selection) (after : Option EventId) : List EventRow :=
  t.events.filter fun row => s.holds row.type row.data && isAfter after row

/-- The last row of a type that passes some tests. -/
def latest? (t : Tables) (type : String) (tests : List FieldTest) : Option EventRow :=
  t.events.reverse.find? fun row => row.type = type && holdsAll tests row.data

/-! ## Projections -/

def projection? (t : Tables) (type id : String) : Option ProjectionRow :=
  t.projections.find? (·.hasKey type id)

/-- The rows of a type that pass some tests. -/
def projectionsOf (t : Tables) (type : String) (tests : List FieldTest) : List ProjectionRow :=
  t.projections.filter fun row => row.type = type && holdsAll tests row.data

/-- Put a row at its place among the others, instead of one with its key. -/
def putProjection (row : ProjectionRow) : List ProjectionRow → List ProjectionRow
  | [] => [row]
  | other :: rest =>
    if other.hasKey row.type row.id then row :: rest
    else if row.type < other.type ∨ (row.type = other.type ∧ row.id < other.id) then
      row :: other :: rest
    else other :: putProjection row rest

/-- A row that was put is found under its key; every other key finds what it
found before. -/
theorem find?_putProjection (row : ProjectionRow) (type id : String)
    (rows : List ProjectionRow) :
    (putProjection row rows).find? (·.hasKey type id) =
      if row.hasKey type id then some row else rows.find? (·.hasKey type id) := by
  induction rows with
  | nil => by_cases same : row.hasKey type id <;> simp [putProjection, same]
  | cons other rest ih => grind [putProjection, ProjectionRow.hasKey]

/-- Write data and last event under a key. A row that is there keeps the time
it was created. -/
def upsert (t : Tables) (now : Instant) (type id : String) (data : Json) (event : EventId) :
    Tables :=
  let created := ((t.projection? type id).map ProjectionRow.created).getD (.instant now)
  let row : ProjectionRow := ⟨type, id, .value data, event, created, .instant now⟩
  { t with projections := putProjection row t.projections }

theorem projection?_upsert_of_ne (t : Tables) (now : Instant) {type id : String} (data : Json)
    (event : EventId) {type' id' : String} (other : ¬ (type = type' ∧ id = id')) :
    (t.upsert now type id data event).projection? type' id' = t.projection? type' id' := by
  unfold upsert projection?
  rw [find?_putProjection]
  simp [ProjectionRow.hasKey, other]

/-- Put the data of a row under its key, and leave its last event. -/
def replaceData (t : Tables) (now : Instant) (row : ProjectionRow) (data : Json) : Tables :=
  { t with projections :=
      putProjection { row with data := .value data, updated := .instant now } t.projections }

/-! ## Indexes -/

/-- Add an index unless one has its name. -/
def addIndex (t : Tables) (index : Index) : Tables :=
  if t.indexes.any (·.hasName index.name) then t
  else { t with indexes := t.indexes ++ [index] }

/-- The names of a table's indexes, in order. -/
def indexNames (t : Tables) (table : TableName) : List String :=
  ((t.indexes.filter (·.table = table)).map Index.name).mergeSort (· ≤ ·)

end Tables

end Chronicle
