import Chronicle.Proofs.Query.Outlines

/-!
# What statements spell

A statement puts the condition that selects its rows in parentheses, so that whatever the
condition spells stays apart from the statement (`Fragment.Spells.enclose`). Its own
parameters come where its own marks do: a type before the condition, a floor after it, and
the rows and the floor of a guarded insert before its guard.
-/

namespace Chronicle

open Lexer (Apart Closed Reads apart_ofList closed_ofList reads_ofList)

namespace Statement

/-! ## Selecting -/

def eventColumnsOutline : Outline :=
  [.word "id", .comma, .word "type", .comma, .word "data", .comma, .word "created_at", .comma,
    .word "updated_at"]

def projectionColumnsOutline : Outline :=
  [.word "type", .comma, .word "id", .comma, .word "data", .comma, .word "latest_event_id",
    .comma, .word "created_at", .comma, .word "updated_at"]

theorem reads_eventColumns : Reads eventColumns eventColumnsOutline := reads_ofList rfl rfl rfl

theorem reads_projectionColumns : Reads projectionColumns projectionColumnsOutline :=
  reads_ofList rfl rfl rfl

theorem closed_select : Closed "SELECT " [.word "SELECT"] := closed_ofList rfl

/-- The events after a floor, if there is one. -/
def floorOutline : Option EventId → Outline
  | none => []
  | some floor => [.word "AND", .word "id", .operator ">", .mark (.int floor)]

def selectStreamsOutline (s : Selection) (after : Option EventId) : Outline :=
  [.word "SELECT"] ++ eventColumnsOutline ++ [.word "FROM", .word "events", .word "WHERE"] ++
    parenthesized s.outline ++
    (floorOutline after ++ [.word "ORDER", .word "BY", .word "id", .word "ASC"])

theorem spells_selectStreams {s : Selection} (clean : ¬ s.SpellsNul) (after : Option EventId) :
    (selectStreams s after).Spells (selectStreamsOutline s after) := by
  have source : Closed " FROM events WHERE ("
      [.word "FROM", .word "events", .word "WHERE", .opening] := closed_ofList rfl
  have select := (closed_select.append_reads reads_eventColumns).append_closed
    (apart_ofList rfl rfl) source
  have order : Reads " ORDER BY id ASC"
      [.word "ORDER", .word "BY", .word "id", .word "ASC"] := reads_ofList rfl rfl rfl
  cases after with
  | none =>
    exact (Selection.spells clean).enclose select (closed_closing.append_reads order)
      (apart_closing.append _) (fun _ _ => rfl) (fun _ _ => rfl) (String.append_assoc ..)
      (List.append_nil _).symm
  | some floor =>
    have above : Reads " AND id > ?" (floorOutline (some floor)) := reads_ofList rfl rfl rfl
    have tail := (closed_closing.append_reads above).append (apart_ofList rfl rfl) order
    refine (Selection.spells clean).enclose select tail ((apart_closing.append _).append _)
      (fun _ _ => rfl) (fun _ _ => rfl) ?_ rfl
    simp only [selectStreams, String.append_assoc]

theorem literals_selectStreamsOutline (s : Selection) (after : Option EventId) :
    (selectStreamsOutline s after).filterMap Token.literal? = s.flatMap StreamTest.literals := by
  cases after <;>
    simp [selectStreamsOutline, eventColumnsOutline, floorOutline, List.filterMap_cons,
      Token.literal?]

/-- The rows of a type in a table that pass some tests, in an order. -/
def selectTypeOutline (columns : Outline) (table type : String) (tests : List FieldTest)
    (order : Outline) : Outline :=
  [.word "SELECT"] ++ columns ++ [.word "FROM", .word table, .word "WHERE",
    .word "type", .operator "=", .mark (.text type), .word "AND"] ++
    parenthesized (allOfOutline tests) ++ order

theorem literals_selectTypeOutline {columns order : Outline}
    (bare : columns.filterMap Token.literal? = []) (bareOrder : order.filterMap Token.literal? = [])
    (table type : String) (tests : List FieldTest) :
    (selectTypeOutline columns table type tests order).filterMap Token.literal? =
      tests.flatMap fun t => fieldLiterals t.field t.kind := by
  simp [selectTypeOutline, bare, bareOrder, List.filterMap_cons, Token.literal?]

def selectLatestOutline (type : String) (tests : List FieldTest) : Outline :=
  selectTypeOutline eventColumnsOutline "events" type tests
    [.word "ORDER", .word "BY", .word "id", .word "DESC", .word "LIMIT", .word "1"]

def selectProjectionsOutline (type : String) (tests : List FieldTest) : Outline :=
  selectTypeOutline projectionColumnsOutline "projections" type tests
    [.word "ORDER", .word "BY", .word "id", .word "ASC"]

theorem spells_selectLatest (type : String) {tests : List FieldTest}
    (clean : ∀ t ∈ tests, ¬ HasNul t.field) :
    (selectLatest type tests).Spells (selectLatestOutline type tests) := by
  have source : Closed " FROM events WHERE type = ? AND ("
      [.word "FROM", .word "events", .word "WHERE", .word "type", .operator "=",
        .mark (.text type), .word "AND", .opening] := closed_ofList rfl
  have select := (closed_select.append_reads reads_eventColumns).append_closed
    (apart_ofList rfl rfl) source
  have order : Reads ") ORDER BY id DESC LIMIT 1" [.closing, .word "ORDER", .word "BY", .word "id",
      .word "DESC", .word "LIMIT", .word "1"] := reads_ofList rfl rfl rfl
  exact (spells_allOf clean).enclose select order (apart_ofList rfl rfl) (fun _ _ => rfl)
    (fun _ _ => rfl) rfl (List.append_nil _).symm

theorem spells_selectProjections (type : String) {tests : List FieldTest}
    (clean : ∀ t ∈ tests, ¬ HasNul t.field) :
    (selectProjections type tests).Spells (selectProjectionsOutline type tests) := by
  have source : Closed " FROM projections WHERE type = ? AND ("
      [.word "FROM", .word "projections", .word "WHERE", .word "type", .operator "=",
        .mark (.text type), .word "AND", .opening] := closed_ofList rfl
  have select := (closed_select.append_reads reads_projectionColumns).append_closed
    (apart_ofList rfl rfl) source
  have order : Reads ") ORDER BY id ASC" [.closing, .word "ORDER", .word "BY", .word "id",
      .word "ASC"] := reads_ofList rfl rfl rfl
  exact (spells_allOf clean).enclose select order (apart_ofList rfl rfl) (fun _ _ => rfl)
    (fun _ _ => rfl) rfl (List.append_nil _).symm

/-! ## Inserting -/

/-- The marks of a draft's type and payload. -/
def rowOutline (d : Draft) : Outline :=
  parenthesized [.mark (.text d.type), .comma, .mark (.text d.data.text)]

def rowsOutline (drafts : List Draft) : Outline := [.comma].intercalate (drafts.map rowOutline)

theorem spells_rows (drafts : List Draft) :
    Fragment.Spells ⟨rowPlaceholders drafts.length,
      drafts.flatMap fun d => [.text d.type, .text d.data.text]⟩ (rowsOutline drafts) := by
  have comma : Closed ", " [.comma] := closed_ofList rfl
  constructor
  · refine Lexer.reads_intercalate (apart_ofList rfl rfl) comma ?_
    induction drafts with
    | nil => exact .nil
    | cons d rest ih =>
      have row : Reads "(?, ?)" (rowOutline d) := reads_ofList rfl rfl rfl
      exact .cons row ih
  · refine Token.balanced_intercalate (fun _ _ => rfl) fun row present => ?_
    obtain ⟨d, -, rfl⟩ := List.mem_map.1 present
    exact fun _ _ => rfl
  · rw [rowsOutline, filterMap_intercalate rfl, List.flatMap_map]
    rfl

def guardedInsertOutline (drafts : List Draft) (floor : EventId) (s : Selection) : Outline :=
  [.word "INSERT", .word "INTO", .word "events"] ++
    parenthesized [.word "type", .comma, .word "data"] ++
    [.word "SELECT", .word "column1", .comma, .word "column2", .word "FROM"] ++
    parenthesized (.word "VALUES" :: rowsOutline drafts) ++
    [.word "WHERE", .word "NOT", .word "EXISTS"] ++
    parenthesized ([.word "SELECT", .word "1", .word "FROM", .word "events", .word "WHERE",
      .word "id", .operator ">", .mark (.int floor), .word "AND"] ++ parenthesized s.outline) ++
    .word "RETURNING" :: eventColumnsOutline

theorem spells_guardedInsert (drafts : List Draft) (floor : EventId) {s : Selection}
    (clean : ¬ s.SpellsNul) :
    (guardedInsert drafts floor s).Spells (guardedInsertOutline drafts floor s) := by
  have rows := spells_rows drafts
  have selection := Selection.spells clean
  constructor
  · have insert : Closed "INSERT INTO events (type, data) SELECT column1, column2 FROM (VALUES "
        [.word "INSERT", .word "INTO", .word "events", .opening, .word "type", .comma,
          .word "data", .closing, .word "SELECT", .word "column1", .comma, .word "column2",
          .word "FROM", .opening, .word "VALUES"] := closed_ofList (by decide +kernel)
    have guard : Closed ") WHERE NOT EXISTS (SELECT 1 FROM events WHERE id > ? AND ("
        [.closing, .word "WHERE", .word "NOT", .word "EXISTS", .opening, .word "SELECT",
          .word "1", .word "FROM", .word "events", .word "WHERE", .word "id", .operator ">",
          .mark (.int floor), .word "AND", .opening] := closed_ofList rfl
    -- What comes after the guard closes its parentheses and those of the read around it.
    have returning : Closed ")) RETURNING " [.closing, .closing, .word "RETURNING"] :=
      closed_ofList rfl
    have all := ((((insert.append_reads rows.reads).append_closed (apart_ofList rfl rfl)
      guard).append_reads selection.reads).append_closed (apart_ofList rfl rfl)
      returning).append_reads reads_eventColumns
    -- The outline has the same tokens in another grouping.
    refine Eq.mp (congrArg (Reads _) ?_) all
    simp [guardedInsertOutline, parenthesized]
  · have words : Token.Balanced ([.word "INSERT", .word "INTO", .word "events"] ++
        parenthesized [.word "type", .comma, .word "data"] ++
        [.word "SELECT", .word "column1", .comma, .word "column2", .word "FROM"]) :=
      fun _ _ => rfl
    have values : Token.Balanced (.word "VALUES" :: rowsOutline drafts) := rows.balanced
    have later : Token.Balanced [.word "SELECT", .word "1", .word "FROM", .word "events",
      .word "WHERE", .word "id", .operator ">", .mark (Param.int floor), .word "AND"] :=
      fun _ _ => rfl
    exact (((words.append values.parenthesized).append fun _ _ => rfl).append
      (later.append selection.balanced.parenthesized).parenthesized).append fun _ _ => rfl
  · simp [guardedInsert, guardedInsertOutline, eventColumnsOutline, ← rows.params,
      selection.params, List.filterMap_cons, Token.slot?]

theorem literals_guardedInsertOutline (drafts : List Draft) (floor : EventId) (s : Selection) :
    (guardedInsertOutline drafts floor s).filterMap Token.literal? =
      s.flatMap StreamTest.literals := by
  have rows : (rowsOutline drafts).filterMap Token.literal? = [] := by
    rw [rowsOutline, filterMap_intercalate rfl, List.flatMap_map]
    exact List.flatMap_eq_nil_iff.2 fun _ _ => rfl
  simp [guardedInsertOutline, eventColumnsOutline, rows, List.filterMap_cons, Token.literal?]

end Statement

end Chronicle
