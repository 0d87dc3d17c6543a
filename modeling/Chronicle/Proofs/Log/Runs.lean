import Chronicle.Proofs.Log.Basic
import Chronicle.Store.Projections
import Mathlib.Logic.Relation

/-!
# Runs of a store

A run is any sequence of calls (`Call`), of whichever clients, with time passing
and calls being counted on other connections in between (`Step`). Every step adds
events at the end of the log and changes none (`Step.extends`); so does every run
(`Steps.extends`). The stores that a new one can become are `Reachable`; unlike
those of a run from a new store, they may have lost a holder of their lock.

The row of a projection changes only in a call that writes its key
(`Call.projection?_perform`).
-/

namespace Chronicle

namespace Action

variable {S A α β : Type}

/-- The action leaves what is observed of the state as it was. -/
def Keeps (observe : S → A) (act : Action S α) : Prop := ∀ s, observe (act.run s).2 = observe s

namespace Keeps

variable {observe : S → A} {act : Action S α}

theorem pure (a : α) : Keeps observe (pure a : Action S α) := fun _ => rfl

theorem throw (fault : Fault) : Keeps observe (throw fault : Action S α) := fun _ => rfl

theorem get : Keeps observe (get : Action S S) := fun _ => rfl

theorem ofExcept (result : Except Fault α) :
    Keeps observe (Action.ofExcept result : Action S α) := fun s => by
  rw [run_ofExcept]

theorem bind {next : α → Action S β} (first : Keeps observe act)
    (rest : ∀ a, Keeps observe (next a)) : Keeps observe (act >>= next) := fun s => by
  rw [run_bind]
  have kept := first s
  cases ran : act.run s with
  | mk answer after =>
    rw [ran] at kept
    cases answer with
    | error fault => exact kept
    | ok a => exact (rest a after).trans kept

theorem ite {other : Action S α} (c : Prop) [Decidable c] (first : Keeps observe act)
    (second : Keeps observe other) : Keeps observe (if c then act else other) := by
  split
  · exact first
  · exact second

end Keeps

end Action

namespace Store

open Chronicle.Action

/-! ## Calls that only read -/

/-- All of a store but what was counted. -/
def content (s : Store) : Tables × Bool × Instant := (s.tables, s.poisoned, s.now)

theorem content_eq_iff {s t : Store} :
    s.content = t.content ↔ s.tables = t.tables ∧ s.poisoned = t.poisoned ∧ s.now = t.now := by
  simp [content]

theorem keeps_lock : Keeps content lock := fun s => by rw [run_lock]

theorem keeps_count (f : Metrics → Metrics) : Keeps content (count f) := fun _ => rfl

theorem keeps_prepare (statement : Fragment) (nestsTooDeeply : Bool) :
    Keeps content (prepare statement nestsTooDeeply) := fun s => by rw [run_prepare]

theorem keeps_latest (type : String) (filter : Option Filter) :
    Keeps content (latest type filter) := by
  refine .bind (.ofExcept _) fun tests => .bind keeps_lock fun _ =>
    .bind (keeps_prepare _ _) fun _ => .bind .get fun s => ?_
  cases s.tables.latest? type tests with
  | none => exact .bind (keeps_count _) fun _ => .pure _
  | some row => exact .bind (.ofExcept _) fun event => .bind (keeps_count _) fun _ => .pure _

theorem keeps_streams (specs : List Stream) (after : Option EventId) :
    Keeps content (streams specs after) := by
  refine .bind (.ofExcept _) fun selection => .ite _ (.pure _) ?_
  exact .bind keeps_lock fun _ => .bind (keeps_prepare _ _) fun _ => .bind .get fun s =>
    .bind (.ofExcept _) fun events => .bind (keeps_count _) fun _ => .pure _

theorem keeps_schemaVersion : Keeps content schemaVersion :=
  .bind keeps_lock fun _ => .bind .get fun _ => .ofExcept _

theorem keeps_getProjection (type id : String) : Keeps content (getProjection type id) := by
  refine .bind keeps_lock fun _ => .bind .get fun s => ?_
  cases s.tables.projection? type id with
  | none => exact .pure _
  | some row => exact .bind (.ofExcept _) fun _ => .pure _

theorem keeps_queryProjections (type : String) (filter : Option Filter) :
    Keeps content (queryProjections type filter) :=
  .bind (.ofExcept _) fun _ => .bind keeps_lock fun _ => .bind (keeps_prepare _ _) fun _ =>
    .bind .get fun _ => .bind (.ofExcept _) fun _ => .bind (keeps_count _) fun _ => .pure _

/-- A call of a store. -/
inductive Call where
  | appendBatch (drafts : List Draft)
  | appendIfNoNewer (drafts : List Draft) (floor : EventId) (specs : List Stream)
  | latest (type : String) (filter : Option Filter)
  | streams (specs : List Stream) (after : Option EventId)
  | getProjection (type id : String)
  | queryProjections (type : String) (filter : Option Filter)
  | saveProjection (type id : String) (data : Json) (event : EventId)
  | forceProjection (type id : String) (data : Json)
  | updateProjection (type id : String) (data : Json) (event : EventId)
  | schemaVersion
  | initialiseSchema
  | createIndex (table field : String)

namespace Call

/-- The store that a call leaves. -/
def perform (s : Store) : Call → Store
  | appendBatch drafts => ((Store.appendBatch drafts).run s).2
  | appendIfNoNewer drafts floor specs => ((Store.appendIfNoNewer drafts floor specs).run s).2
  | latest type filter => ((Store.latest type filter).run s).2
  | streams specs after => ((Store.streams specs after).run s).2
  | getProjection type id => ((Store.getProjection type id).run s).2
  | queryProjections type filter => ((Store.queryProjections type filter).run s).2
  | saveProjection type id data event => ((Store.saveProjection type id data event).run s).2
  | forceProjection type id data => ((Store.forceProjection type id data).run s).2
  | updateProjection type id data event => ((Store.updateProjection type id data event).run s).2
  | schemaVersion => (Store.schemaVersion.run s).2
  | initialiseSchema => (Store.initialiseSchema.run s).2
  | createIndex table field => ((Store.createIndex table field).run s).2

/-- The call writes the projection with a key. -/
def writes (type id : String) : Call → Bool
  | saveProjection type' id' _ _ | forceProjection type' id' _ | updateProjection type' id' _ _ =>
    type' = type && id' = id
  | _ => false

/-- The call asks for events to be written. -/
def appends : Call → Bool
  | appendBatch _ | appendIfNoNewer _ _ _ => true
  | _ => false

end Call

/-- What a call can do to the tables: nothing, write drafts, write the row of a
projection, or add what belongs to neither. -/
inductive Change (now : Instant) (c : Call) : Tables → Tables → Prop
  | nothing (t : Tables) : Change now c t t
  | appended (t : Tables) (drafts : List Draft) (legible : ∀ draft ∈ drafts, draft.data.Legible)
    (asked : c.appends) : Change now c t (t.push (Draft.numbered now t.lastId drafts))
  | put (t : Tables) (row : ProjectionRow) (written : c.writes row.type row.id) :
    Change now c t { t with projections := Tables.putProjection row t.projections }
  | schema {t u : Tables} (events : u.events = t.events)
    (projections : u.projections = t.projections) (barred : u.barred = t.barred) : Change now c t u

/-- What a call leaves of a store: its tables change, its lock and its clock do
not. -/
def Leaves (c : Call) (s t : Store) : Prop :=
  Change s.now c s.tables t.tables ∧ t.poisoned = s.poisoned ∧ t.now = s.now

section Effects

variable {c : Call} {s : Store}

theorem leaves_self (metrics : Metrics) : Leaves c s { s with metrics := metrics } :=
  ⟨.nothing _, rfl, rfl⟩

theorem leaves_of_keeps {α : Type} {act : Action Store α} (reads : Keeps content act) :
    Leaves c s (act.run s).2 := by
  obtain ⟨tables, poisoned, now⟩ := content_eq_iff.1 (reads s)
  refine ⟨?_, poisoned, now⟩
  rw [tables]
  exact .nothing _

theorem leaves_insertAll {drafts : List Draft} {events : List StoredEvent} {after : Tables}
    (asked : c.appends) (written : Tables.insertAll s.now drafts s.tables = .ok (events, after))
    (metrics : Metrics) : Leaves c s { s with tables := after, metrics := metrics } := by
  obtain ⟨-, rfl, legible⟩ := Tables.insertAll_eq_ok written
  exact ⟨.appended s.tables drafts legible asked, rfl, rfl⟩

theorem leaves_appendBatch (drafts : List Draft) :
    Leaves (.appendBatch drafts) s ((appendBatch drafts).run s).2 := by
  rw [run_appendBatch]
  split
  · exact leaves_self _
  split
  · exact leaves_self _
  split
  · rename_i written
    exact leaves_insertAll rfl written _
  · exact leaves_self _

theorem leaves_appendIfNoNewer (drafts : List Draft) (floor : EventId) (specs : List Stream) :
    Leaves (.appendIfNoNewer drafts floor specs) s
      ((appendIfNoNewer drafts floor specs).run s).2 := by
  rw [run_appendIfNoNewer]
  split
  · exact leaves_self _
  split
  · exact leaves_self _
  split
  · exact leaves_self _
  split
  · exact leaves_self _
  split
  · exact leaves_self _
  split
  · rename_i written
    exact leaves_insertAll rfl written _
  · exact leaves_self _

theorem leaves_upsert {type id : String} (written : c.writes type id) (data : Json)
    (event : EventId) (metrics : Metrics) :
    Leaves c s { s with tables := s.tables.upsert s.now type id data event, metrics := metrics } :=
  ⟨.put s.tables ⟨type, id, _, event, _, _⟩ written, rfl, rfl⟩

theorem run_initialise (c : Catalog) :
    ∃ answer, Catalog.initialise.run c = (answer, c.completed) := by
  unfold Catalog.initialise
  rw [run_bind, run_modify]
  cases version : Schema.readVersion (c.completed.version.getD none) <;>
    simp [run_bind, version]

theorem run_initialiseSchema (s : Store) :
    initialiseSchema.run s =
      if s.poisoned then (.error (.lock "connection mutex poisoned"), s)
      else ((Catalog.initialise.run s.tables.catalog).1,
        { s with tables := s.tables.catalog.completed.tables?.getD s.tables }) := by
  obtain ⟨answer, completed⟩ := run_initialise s.tables.catalog
  unfold initialiseSchema
  cases poisoned : s.poisoned <;> simp [run_bind, poisoned, completed]

theorem leaves_initialiseSchema : Leaves c s (initialiseSchema.run s).2 := by
  rw [run_initialiseSchema]
  split
  · exact leaves_self _
  · exact ⟨.schema rfl rfl rfl, rfl, rfl⟩

theorem leaves_addIndex (index : Index) :
    Leaves c s { s with tables := s.tables.addIndex index } := by
  refine ⟨.schema ?_ ?_ ?_, rfl, rfl⟩
  all_goals
    simp only [Tables.addIndex]
    split <;> rfl

theorem run_createIndex (table field : String) (s : Store) :
    (createIndex table field).run s =
      if s.poisoned then (.error (.lock "connection mutex poisoned"), s)
      else match TableName.ofText? table, Statement.createIndex table field with
        | none, _ => (.error (.config s!"Unknown table '{table}'"), s)
        | _, .error fault => (.error fault, s)
        | some name, .ok statement =>
          if statement.isPreparable then
            (.ok (), { s with tables := s.tables.addIndex ⟨Statement.indexName table field, name⟩ })
          else (.error (.storage "statement cannot be prepared"), s) := by
  unfold createIndex
  cases poisoned : s.poisoned with
  | true => simp [run_bind, poisoned]
  | false =>
    cases named : TableName.ofText? table with
    | none => simp [run_bind, poisoned]
    | some name =>
      cases created : Statement.createIndex table field with
      | error fault => simp [run_bind, poisoned]
      | ok statement =>
        cases prepared : statement.isPreparable <;> simp [run_bind, poisoned, prepared]

theorem leaves_createIndex (table field : String) :
    Leaves c s ((createIndex table field).run s).2 := by
  rw [run_createIndex]
  split
  · exact leaves_self _
  split
  · exact leaves_self _
  · exact leaves_self _
  split
  · exact leaves_addIndex _
  · exact leaves_self _

/-- A call does no more than its tables' change. -/
theorem leaves_perform (c : Call) (s : Store) : Leaves c s (c.perform s) := by
  -- One case for each call; those that read are all alike.
  cases c with
  | appendBatch drafts => exact leaves_appendBatch drafts
  | appendIfNoNewer drafts floor specs => exact leaves_appendIfNoNewer drafts floor specs
  | latest type filter => exact leaves_of_keeps (keeps_latest type filter)
  | streams specs after => exact leaves_of_keeps (keeps_streams specs after)
  | getProjection type id => exact leaves_of_keeps (keeps_getProjection type id)
  | queryProjections type filter => exact leaves_of_keeps (keeps_queryProjections type filter)
  | saveProjection type id data event =>
    simp only [Call.perform, run_saveProjection]
    split
    · exact leaves_self _
    split
    · exact leaves_upsert (by simp [Call.writes]) data event _
    · exact leaves_self _
  | forceProjection type id data =>
    simp only [Call.perform, run_forceProjection]
    split
    · exact leaves_self _
    split
    · exact leaves_self _
    rename_i row found
    split
    · have key := List.find?_some found
      refine ⟨.put s.tables { row with data := _, updated := _ } ?_, rfl, rfl⟩
      simp only [ProjectionRow.hasKey, Bool.and_eq_true, decide_eq_true_eq] at key
      simp [Call.writes, key.1, key.2]
    · exact leaves_self _
  | updateProjection type id data event =>
    simp only [Call.perform, run_updateProjection]
    split
    · exact leaves_self _
    split
    · split
      · exact leaves_upsert (by simp [Call.writes]) data event _
      · exact leaves_self _
    · exact leaves_self _
  | schemaVersion => exact leaves_of_keeps keeps_schemaVersion
  | initialiseSchema => exact leaves_initialiseSchema
  | createIndex table field => exact leaves_createIndex table field

end Effects

/-! ## Steps -/

/-- A call, or what goes on between calls: time passes, and calls on other
connections are counted. -/
inductive Step : Store → Store → Prop
  | call (s : Store) (c : Call) : Step s (c.perform s)
  | meanwhile (s : Store) (now : Instant) (metrics : Metrics) :
    Step s { s with now := now, metrics := metrics }

/-- Any number of steps. -/
abbrev Steps : Store → Store → Prop := Relation.ReflTransGen Step

/-- A store with a new database. -/
def new (now : Instant) : Store :=
  ⟨(Catalog.completed .empty).tables?.getD default, false, now, .empty⟩

/-- The stores that come from new ones. A holder of the lock may crash. -/
inductive Reachable : Store → Prop
  | new (now : Instant) : Reachable (new now)
  | step {s t : Store} (reachable : Reachable s) (step : Step s t) : Reachable t
  | crash {s : Store} (reachable : Reachable s) : Reachable { s with poisoned := true }

/-- No holder of the lock has crashed, and no event type is refused. -/
structure InService (s : Store) : Prop where
  sound : s.poisoned = false
  unbarred : s.tables.barred = []

theorem holds_new (now : Instant) : (new now).tables.Holds [] where
  rows := rfl
  numbered := trivial
  legible := by simp

theorem inService_new (now : Instant) : (new now).InService := ⟨rfl, rfl⟩

/-- A change adds events after those that are there. -/
theorem Change.extends {now : Instant} {c : Call} {t u : Tables} {log : List StoredEvent}
    (change : Change now c t u) (holds : t.Holds log) : ∃ more, u.Holds (log ++ more) := by
  have same (events : u.events = t.events) : ∃ more, u.Holds (log ++ more) := by
    refine ⟨[], ?_⟩
    rw [List.append_nil]
    exact holds.of_events events
  cases change with
  | nothing => exact same rfl
  | appended drafts legible => exact ⟨_, holds.push_numbered now legible⟩
  | put row written => exact same rfl
  | schema events => exact same events

theorem Change.barred_eq {now : Instant} {c : Call} {t u : Tables} (change : Change now c t u) :
    u.barred = t.barred := by
  cases change with
  | nothing => rfl
  | appended => rfl
  | put => rfl
  | schema _ _ barred => exact barred

/-- A call that asks for no events to be written leaves the event table. -/
theorem Change.events_eq {now : Instant} {c : Call} {t u : Tables} (change : Change now c t u)
    (silent : c.appends = false) : u.events = t.events := by
  cases change with
  | nothing => rfl
  | appended drafts legible asked =>
    rw [silent] at asked
    cases asked
  | put => rfl
  | schema events => exact events

/-- A call that writes no projection leaves their table. -/
theorem Change.projections_eq {now : Instant} {c : Call} {t u : Tables} (change : Change now c t u)
    (silent : ∀ type id, c.writes type id = false) : u.projections = t.projections := by
  cases change with
  | nothing => rfl
  | appended => rfl
  | put row written =>
    rw [silent] at written
    cases written
  | schema _ projections => exact projections

/-- The row of a projection changes only in calls that write its key. -/
theorem Change.projection?_eq {now : Instant} {c : Call} {t u : Tables} {type id : String}
    (change : Change now c t u) (other : c.writes type id = false) :
    u.projection? type id = t.projection? type id := by
  cases change with
  | nothing => rfl
  | appended => rfl
  | put row written =>
    have differs : ¬ row.hasKey type id := fun same => by
      simp only [ProjectionRow.hasKey, Bool.and_eq_true, decide_eq_true_eq] at same
      rw [same.1, same.2, other] at written
      cases written
    show (Tables.putProjection row t.projections).find? _ = _
    rw [Tables.find?_putProjection, if_neg differs]
    rfl
  | schema _ projections => rw [Tables.projection?, projections, Tables.projection?]

section Runs

variable {s t : Store} {log : List StoredEvent}

/-- A step adds events after those that are there. -/
theorem Step.extends (step : Step s t) (holds : s.tables.Holds log) :
    ∃ more, t.tables.Holds (log ++ more) := by
  cases step with
  | call c => exact (leaves_perform c s).1.extends holds
  | meanwhile => exact ⟨[], by rwa [List.append_nil]⟩

theorem Step.inService (step : Step s t) (service : s.InService) : t.InService := by
  cases step with
  | call c =>
    obtain ⟨change, poisoned, -⟩ := leaves_perform c s
    exact ⟨poisoned.trans service.sound, change.barred_eq.trans service.unbarred⟩
  | meanwhile => exact ⟨service.sound, service.unbarred⟩

/-- A run adds events after those that are there. -/
theorem Steps.extends (run : Steps s t) (holds : s.tables.Holds log) :
    ∃ more, t.tables.Holds (log ++ more) := by
  induction run with
  | refl => exact ⟨[], by rwa [List.append_nil]⟩
  | tail _ step ih =>
    obtain ⟨more, holdsMore⟩ := ih
    obtain ⟨added, holdsAdded⟩ := step.extends holdsMore
    exact ⟨more ++ added, by rwa [← List.append_assoc]⟩

theorem Steps.inService (run : Steps s t) (service : s.InService) : t.InService := by
  induction run with
  | refl => exact service
  | tail _ step ih => exact step.inService ih

/-- The event table of a reachable store holds a log. -/
theorem Reachable.holds (reachable : Reachable s) : s.tables.Holds s.tables.log := by
  -- The log is what was written, so it is enough that there is one.
  suffices ∃ log, s.tables.Holds log by
    obtain ⟨log, holds⟩ := this
    rwa [holds.log_eq]
  induction reachable with
  | new now => exact ⟨[], holds_new now⟩
  | step _ step ih =>
    obtain ⟨log, holds⟩ := ih
    obtain ⟨more, grown⟩ := step.extends holds
    exact ⟨log ++ more, grown⟩
  | crash _ ih => exact ih

end Runs

end Store

end Chronicle
