import Chronicle.Query.Fragment

/-!
# Statements

The statements that read and write the two tables. Those that select take their
condition from compiled tests and so always have as many parameters as question
marks. The guarded insert is one statement, so that its check and its write
cannot be separated.
-/

namespace Chronicle

namespace Statement

def eventColumns : String := "id, type, data, created_at, updated_at"

def projectionColumns : String := "type, id, data, latest_event_id, created_at, updated_at"

/-- The events of a selection, in order, those after a floor if one is
given. -/
def selectStreams (s : Selection) (after : Option EventId) : Fragment :=
  let select := "SELECT " ++ eventColumns ++ " FROM events WHERE (" ++ s.fragment.text ++ ")"
  match after with
  | none => ⟨select ++ " ORDER BY id ASC", s.fragment.params⟩
  | some floor =>
    ⟨select ++ " AND id > ?" ++ " ORDER BY id ASC", s.fragment.params ++ [.int floor]⟩

/-- The last event of a type that passes some tests. -/
def selectLatest (type : String) (tests : List FieldTest) : Fragment where
  text := "SELECT " ++ eventColumns ++ " FROM events WHERE type = ? AND (" ++
    (allOf tests).text ++ ") ORDER BY id DESC LIMIT 1"
  params := .text type :: (allOf tests).params

/-- The projections of a type that pass some tests, by id. -/
def selectProjections (type : String) (tests : List FieldTest) : Fragment where
  text := "SELECT " ++ projectionColumns ++ " FROM projections WHERE type = ? AND (" ++
    (allOf tests).text ++ ") ORDER BY id ASC"
  params := .text type :: (allOf tests).params

/-- `n` rows of a type and a payload each. -/
def rowPlaceholders (n : Nat) : String := ", ".intercalate (List.replicate n "(?, ?)")

/-- The text that inserts `rows` events unless an event after a floor is
selected. Its parameters are the types and payloads of the rows, the floor, and
those of the selection. -/
def guardedInsertText (rows : Nat) (guard : Fragment) : String :=
  "INSERT INTO events (type, data) SELECT column1, column2 FROM (VALUES " ++
    rowPlaceholders rows ++ ") WHERE NOT EXISTS (SELECT 1 FROM events WHERE id > ? AND (" ++
    guard.text ++ ")) RETURNING " ++ eventColumns

/-- Insert events unless one after a floor is selected. -/
def guardedInsert (drafts : List Draft) (floor : EventId) (s : Selection) : Fragment where
  text := guardedInsertText drafts.length s.fragment
  params := drafts.flatMap (fun d => [.text d.type, .text d.data.text]) ++
    .int floor :: s.fragment.params

def hexByte (b : UInt8) : List Char :=
  [Nat.digitChar (b.toNat / 16), Nat.digitChar (b.toNat % 16)]

/-- The name of the index on a payload field. The field's bytes are spelled
out, so that fields that differ in case alone have different indexes. -/
def indexName (table field : String) : String :=
  table ++ "_data_idx_" ++ String.ofList (field.toUTF8.toList.flatMap hexByte)

/-- Create an index on a payload field read as text. -/
def createIndex (table field : String) : Except Fault Fragment := do
  Filter.validateName field
  return {
    text := "CREATE INDEX IF NOT EXISTS " ++ indexName table field ++ " ON " ++ table ++ " (" ++
      fieldText field .text ++ ")"
    params := [] }

end Statement

end Chronicle
