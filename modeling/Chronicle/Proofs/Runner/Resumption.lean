import Chronicle.Proofs.Runner.Snapshots
import Mathlib.Logic.Function.Basic

/-!
# Resuming from a stored snapshot

Any number of runners of one projection work on one store, while other clients
do to it what they like but write to the projection's row (`Readers.Step`). The
row stays stored well and the runners in step (`Readers.Sound`), so the row is
the fold of a prefix of its streams and a fresh runner may start from it
(`ProjectionRunner.resumed_agree`).
-/

namespace Chronicle

variable {E T : Type} [ProjectedState T]

namespace ProjectionRunner

variable [DomainEvent E] {r r' : ProjectionRunner E T} {s t : Store} {P : Projection E T}
  {log : List StoredEvent}

/-! ## Fresh runners -/

/-- What a fresh runner with a snapshot answers. -/
def answer (P : Projection E T) (snapshot : Option (Snapshot T)) (s : Store) : Except Fault T :=
  ((Client.streams E P.streams (floor snapshot)).run s).1.map (fold P snapshot)

/-- What it saves. -/
def saved (P : Projection E T) (snapshot : Option (Snapshot T)) (s : Store) :
    Except Fault EventId × Store :=
  match (Client.streams E P.streams (floor snapshot)).run s with
  | (.error fault, t) => (.error fault, t)
  | (.ok recorded, t) => (P.keep (fold P snapshot recorded) (anchor? snapshot recorded)).run t

theorem saved_of_read {snapshot : Option (Snapshot T)} {recorded : List (Recorded E)}
    (read : (Client.streams E P.streams (floor snapshot)).run s = (.ok recorded, t)) :
    saved P snapshot s = (P.keep (fold P snapshot recorded) (anchor? snapshot recorded)).run t := by
  rw [saved, read]

theorem state_of_existing {snapshot : Option (Snapshot T)} (unread : r.history = .empty)
    (loading : existing.run (r, s) = (.ok snapshot, r', s)) :
    (state.run (r, s)).1 = answer r.projection snapshot s := by
  have stays := existing_eq_ok loading
  have cached : r'.snapshot = some snapshot := by rw [stays]
  have unread' : r'.history = .empty := by rw [stays, unread]
  have same : r'.projection = r.projection := by rw [stays]
  rw [run_state, run_load, loading]
  dsimp only
  rw [run_events_cached cached (by rw [unread']; rfl), same, answer]
  rcases (Client.streams E r.projection.streams (floor snapshot)).run s with ⟨answer, t⟩
  cases answer with
  | error fault => rfl
  | ok recorded =>
    simp only [Except.map, Except.ok.injEq]
    simp [fold, Projection.foldAll, View.reduce, View.events, unread', History.empty]

theorem save_of_existing {snapshot : Option (Snapshot T)} (unread : r.history = .empty)
    (loading : existing.run (r, s) = (.ok snapshot, r', s)) :
    ((save.run (r, s)).1, (save.run (r, s)).2.2) = saved r.projection snapshot s := by
  have stays := existing_eq_ok loading
  have cached : r'.snapshot = some snapshot := by rw [stays]
  have unread' : r'.history = .empty := by rw [stays, unread]
  have same : r'.projection = r.projection := by rw [stays]
  have unstaged : r.history.staged = [] := by rw [unread]; rfl
  have reading : events.run (r, s) = _ :=
    (events_existing loading (by rw [unread]; rfl)).trans
      (run_events_cached cached (by rw [unread']; rfl) s)
  rw [← same, saved]
  rcases read : (Client.streams E r'.projection.streams (floor snapshot)).run s with ⟨answer, t⟩
  rw [read] at reading
  cases answer with
  | error fault =>
    dsimp only at reading
    rw [run_save, if_pos unstaged, run_anchor, reading]
  | ok recorded =>
    dsimp only at reading
    rw [save_events reading unstaged, run_save_loaded
      (r := { r' with history := r'.history.fill recorded }) cached rfl (by rw [unread']; rfl)]

/-- A state that is folded to an event stands for the events up to it. -/
theorem resumed_agree {snapshot : Snapshot T}
    (folded : P.FoldedTo log snapshot.lastEvent snapshot.data) (holds : s.tables.Holds log)
    (sound : s.poisoned = false)
    (fits : Statement.selectFits (.ofStreams P.streams) (some noEvent)) :
    answer P (some snapshot) s = answer P none s ∧
      (saved P (some snapshot) s).1 = (saved P none s).1 ∧
      (saved P (some snapshot) s).2.content = (saved P none s).2.content := by
  obtain ⟨front, ends, sameState, sameRead⟩ := folded.resumed holds sound fits
  have sameFold (rest : List (Recorded E)) :
      fold P (some snapshot) rest = fold P none (front ++ rest) := by
    unfold fold
    rw [Projection.foldAll_append]
    simp only [Option.map_none, Option.getD_none, Option.map_some, Option.getD_some, sameState]
  have sameEnd (rest : List (Recorded E)) :
      anchor? (some snapshot) rest = anchor? (none : Option (Snapshot T)) (front ++ rest) := by
    unfold anchor?
    rw [List.getLast?_append, floor_eq folded holds.numbered]
    cases rest.getLast? with
    | none => simp [ends]
    | some last => rfl
  have kept := Client.keeps_streams (E := E) P.streams (some snapshot.lastEvent) s
  have keptFull := Client.keeps_streams (E := E) P.streams none s
  have noFloor : floor (none : Option (Snapshot T)) = none := rfl
  unfold answer saved
  rw [floor_eq folded holds.numbered, noFloor]
  rcases ran : (Client.streams E P.streams (some snapshot.lastEvent)).run s with ⟨result, t⟩
  rcases ranFull : (Client.streams E P.streams none).run s with ⟨resultFull, u⟩
  rw [ran] at kept sameRead
  rw [ranFull] at keptFull sameRead
  have sameContent : t.content = u.content := kept.trans keptFull.symm
  -- Either both reads fail alike, or the full one gives the events up to the snapshot first.
  cases result with
  | error fault =>
    obtain rfl := sameRead
    exact ⟨rfl, rfl, sameContent⟩
  | ok rest =>
    obtain rfl := sameRead
    refine ⟨congrArg Except.ok (sameFold rest), ?_⟩
    dsimp only [Except.map]
    rw [sameFold, sameEnd]
    exact P.keep_congr _ _ sameContent

/-- Fresh runners that start from the stored row and from nothing answer alike,
and save alike. -/
theorem fresh_agree (holds : s.tables.Holds log) (stored : P.Stored s.tables log)
    (survives : P.Survives) (sound : s.poisoned = false)
    (fits : (s.tables.projection? P.type P.id).isSome →
      Statement.selectFits (.ofStreams P.streams) (some noEvent)) :
    (state.run (ofProjection P ⟨true⟩, s)).1 = (state.run (ofProjection P ⟨false⟩, s)).1 ∧
      (save.run (ofProjection P ⟨true⟩, s)).1 = (save.run (ofProjection P ⟨false⟩, s)).1 ∧
      (save.run (ofProjection P ⟨true⟩, s)).2.2.content =
        (save.run (ofProjection P ⟨false⟩, s)).2.2.content := by
  have fullLoads := existing_full P s
  obtain ⟨snapshot, found, present⟩ := getProjection_of_sound stored survives sound
  have loads := existing_resumed found
  obtain ⟨saves, leaves⟩ := Prod.mk.inj (save_of_existing rfl loads)
  obtain ⟨fullSaves, fullLeaves⟩ := Prod.mk.inj (save_of_existing rfl fullLoads)
  rw [state_of_existing rfl loads, state_of_existing rfl fullLoads, saves, leaves, fullSaves,
    fullLeaves]
  cases snapshot with
  | none => exact ⟨rfl, rfl, rfl⟩
  | some snapshot =>
    have folded := (getProjection_spec stored survives found).2 snapshot rfl
    exact resumed_agree folded holds sound (fits (present rfl))

end ProjectionRunner

/-! ## Runners on a shared store -/

/-- A store with the runners of a projection that work on it. -/
structure Readers (ι E T : Type) where
  store : Store
  runner : ι → ProjectionRunner E T

namespace Readers

variable {ι : Type} [DomainEvent E]

/-- Runners that have read nothing, on a new store. -/
def start (P : Projection E T) (now : Instant) (options : ι → RunnerOptions) : Readers ι E T :=
  ⟨Store.new now, fun i => .ofProjection P (options i)⟩

/-- The event table holds a log, the row of the projection is stored well, and
the runners are in step. -/
structure Sound (w : Readers ι E T) (P : Projection E T) (log : List StoredEvent) : Prop where
  holds : w.store.tables.Holds log
  stored : P.Stored w.store.tables log
  synced : ∀ i, (w.runner i).Synced P log

variable {P : Projection E T}

theorem sound_start (P : Projection E T) (now : Instant) (options : ι → RunnerOptions) :
    (start P now options).Sound P [] where
  holds := Store.holds_new now
  stored row found := by cases found
  synced i := ProjectionRunner.synced_ofProjection P (options i) []

variable [DecidableEq ι]

/-- A runner does something. -/
def act (w : Readers ι E T) (i : ι) (c : ProjectionRunner.Call E) : Readers ι E T where
  store := (c.perform (w.runner i, w.store)).2
  runner := Function.update w.runner i (c.perform (w.runner i, w.store)).1

/-- A runner does something; or another client makes a call that does not write
the projection's row, time passes, or a holder of the lock crashes. -/
inductive Step (P : Projection E T) : Readers ι E T → Readers ι E T → Prop
  | elsewhere (w : Readers ι E T) (c : Store.Call) (other : c.writes P.type P.id = false) :
    Step P w { w with store := c.perform w.store }
  | meanwhile (w : Readers ι E T) (now : Instant) (metrics : Metrics) :
    Step P w { w with store := { w.store with now := now, metrics := metrics } }
  | crash (w : Readers ι E T) : Step P w { w with store := { w.store with poisoned := true } }
  | act (w : Readers ι E T) (i : ι) (c : ProjectionRunner.Call E) : Step P w (w.act i c)

/-- Any number of steps. -/
abbrev Steps (P : Projection E T) : Readers ι E T → Readers ι E T → Prop :=
  Relation.ReflTransGen (Step P)

variable {w w' : Readers ι E T} {log : List StoredEvent}

theorem sound_act (sound : w.Sound P log) (survives : P.Survives) (i : ι)
    (c : ProjectionRunner.Call E) : (w.act i c).Sound P log := by
  obtain ⟨holds, stored, synced⟩ :=
    ProjectionRunner.perform_spec c (sound.synced i) sound.holds sound.stored survives
  refine ⟨holds, stored, fun j => ?_⟩
  by_cases same : j = i
  · subst same
    simpa [act] using synced
  · simpa [act, Function.update_of_ne same] using sound.synced j

/-- A step adds events at the end of the log, and keeps the row stored well and
the runners in step. -/
theorem Step.sound (step : Step P w w') (sound : w.Sound P log) (survives : P.Survives) :
    ∃ more, w'.Sound P (log ++ more) := by
  cases step with
  | elsewhere c other =>
    obtain ⟨change, -, -⟩ := Store.leaves_perform c w.store
    obtain ⟨more, holds⟩ := change.extends sound.holds
    exact ⟨more, holds, sound.stored.grow holds.numbered (change.projection?_eq other),
      fun i => (sound.synced i).grow holds.numbered⟩
  | meanwhile => exact ⟨[], by simpa using ⟨sound.holds, sound.stored, sound.synced⟩⟩
  | crash => exact ⟨[], by simpa using ⟨sound.holds, sound.stored, sound.synced⟩⟩
  | act i c => exact ⟨[], by simpa using sound_act sound survives i c⟩

theorem Steps.sound {now : Instant} {options : ι → RunnerOptions}
    (run : Steps P (start P now options) w) (survives : P.Survives) :
    w.Sound P w.store.tables.log := by
  suffices ∃ log, w.Sound P log by
    obtain ⟨log, sound⟩ := this
    rwa [sound.holds.log_eq]
  induction run with
  | refl => exact ⟨[], sound_start P now options⟩
  | tail _ step ih =>
    obtain ⟨log, sound⟩ := ih
    obtain ⟨more, grown⟩ := step.sound sound survives
    exact ⟨log ++ more, grown⟩

/-- Any number of runners of a projection, with and without loading what exists,
on a store that was new; other clients do what they like, but for the row of the
projection, and holders of the lock may crash.

The row, if there is one, has the fold of exactly the events of the streams up to
its event. While no holder of the lock has crashed, and provided that reading
after an event is within the limits of the database, a fresh runner answers and
saves the same whether it loads what exists or not. -/
theorem resumption_exact {now : Instant} {options : ι → RunnerOptions}
    (run : Steps P (start P now options) w) (survives : P.Survives) :
    (∀ row, w.store.tables.projection? P.type P.id = some row →
      ∃ recorded,
        Client.readAll E (stretch P.streams noEvent row.lastEvent w.store.tables.log) =
          .ok recorded ∧
        ∃ data, ProjectedState.encode (P.foldAll P.initial recorded) = .ok data ∧
          row.data = .value data) ∧
    (w.store.poisoned = false →
      ((w.store.tables.projection? P.type P.id).isSome →
        Statement.selectFits (.ofStreams P.streams) (some noEvent)) →
      let resumed : ProjectionRunner E T := .ofProjection P ⟨true⟩
      let full : ProjectionRunner E T := .ofProjection P ⟨false⟩
      (ProjectionRunner.state.run (resumed, w.store)).1 =
        (ProjectionRunner.state.run (full, w.store)).1 ∧
      (ProjectionRunner.save.run (resumed, w.store)).1 =
        (ProjectionRunner.save.run (full, w.store)).1 ∧
      (ProjectionRunner.save.run (resumed, w.store)).2.2.content =
        (ProjectionRunner.save.run (full, w.store)).2.2.content) := by
  have sound := run.sound survives
  refine ⟨fun row found => ?_, fun service fits => ?_⟩
  · obtain ⟨state, data, event, created, updated, encoded, rfl, folded⟩ := sound.stored row found
    obtain ⟨recorded, decoded, rfl⟩ := folded.folded
    exact ⟨recorded, decoded, data, encoded, rfl⟩
  · exact ProjectionRunner.fresh_agree sound.holds sound.stored survives service fits

/-! ## One event, one save -/

/-- The type of the last event of some streams. -/
def lastType (specs : List Stream) : Projection Draft Json where
  type := "last"
  id := "1"
  streams := specs
  initial := .null
  fold _ event := .string event.type
  check _ := .ok ()

theorem lasting_null : ProjectedState.Lasting Json.null := ⟨.null, rfl, by decide, rfl⟩

theorem lasting_string (text : String) : ProjectedState.Lasting (Json.string text) :=
  ⟨.string text, rfl, by simp [Json.Legible, Json.depth], rfl⟩

theorem survives_lastType (specs : List Stream) : (lastType specs).Survives := by
  intro events
  have lasts : ∀ state : Json, ProjectedState.Lasting state →
      ProjectedState.Lasting (events.foldl (lastType specs).fold state) := by
    induction events with
    | nil => exact fun _ => id
    | cons event events ih => exact fun _ _ => ih _ (lasting_string event.type)
  exact lasts _ lasting_null

/-- A runner that saves after an event was appended. -/
def oneSaved (specs : List Stream) : Readers Unit Draft Json :=
  act ⟨Store.afterOne, fun _ => .ofProjection (lastType specs) ⟨false⟩⟩ () .save

theorem steps_oneSaved (specs : List Stream) :
    Steps (lastType specs) (start (lastType specs) default fun _ => ⟨false⟩) (oneSaved specs) :=
  .tail (.single (.elsewhere _ (.appendBatch [⟨"T", .null⟩]) rfl)) (.act _ () .save)

section One

variable {specs : List Stream}

theorem holds_afterOne :
    Store.afterOne.tables.Holds [⟨1, "T", .null, default, default⟩] :=
  Store.afterOne_reachable.holds

/-- What a client reads of the one event. -/
theorem read_afterOne {s : Store} (content : s.tables.Holds [⟨1, "T", .null, default, default⟩])
    (sound : s.poisoned = false) (valid : ∀ spec ∈ specs, spec.Valid)
    (prepared : specs ≠ [] → Statement.canSelect (.ofStreams specs) none)
    (belongs : specs.any (·.has "T" .null)) :
    ((Client.streams Draft specs none).run s).1 =
      .ok [⟨1, ⟨"T", .null⟩, default, default⟩] := by
  rw [Client.run_streams_of_holds content sound valid prepared]
  have all : stretch specs noEvent 1 [⟨1, "T", .null, default, default⟩] =
      [⟨1, "T", .null, default, default⟩] := by
    simp [stretch, StoredEvent.isOf, belongs, noEvent]
  exact congrArg (Client.readAll Draft) all

theorem store_oneSaved (valid : ∀ spec ∈ specs, spec.Valid)
    (prepared : specs ≠ [] → Statement.canSelect (.ofStreams specs) none)
    (belongs : specs.any (·.has "T" .null)) :
    (oneSaved specs).store.tables =
        Store.afterOne.tables.upsert default "last" "1" (.string "T") 1 ∧
      (oneSaved specs).store.poisoned = false := by
  have read := read_afterOne holds_afterOne rfl valid prepared belongs
  have kept := Client.keeps_streams (E := Draft) specs none Store.afterOne
  obtain ⟨-, leaves⟩ := Prod.mk.inj (ProjectionRunner.save_of_existing rfl
    (ProjectionRunner.existing_full (lastType specs) Store.afterOne))
  have same : (oneSaved specs).store =
      (ProjectionRunner.saved (lastType specs) none Store.afterOne).2 := leaves
  rcases ran : (Client.streams Draft specs none).run Store.afterOne with ⟨answer, t⟩
  rw [ran] at read kept
  obtain rfl : answer = _ := read
  obtain ⟨tables, poisoned, now⟩ := Store.content_eq_iff.1 kept
  have service : t.poisoned = false := poisoned
  have clock : t.now = default := now
  have written : ProjectionRunner.saved (lastType specs) none Store.afterOne = _ :=
    ProjectionRunner.saved_of_read ran
  rw [same, written, Projection.run_keep, service, tables, clock]
  exact ⟨rfl, rfl⟩

theorem row_oneSaved (valid : ∀ spec ∈ specs, spec.Valid)
    (prepared : specs ≠ [] → Statement.canSelect (.ofStreams specs) none)
    (belongs : specs.any (·.has "T" .null)) :
    (oneSaved specs).store.tables.projection? "last" "1" =
      some ((lastType specs).row (.string "T") 1 default default) := by
  rw [(store_oneSaved valid prepared belongs).1]
  rfl

end One

/-- What was saved after the first event is the fold up to it, and both ways of
running the projection answer with it. -/
theorem resumption_exact_after_one :
    (∃ recorded, Client.readAll Draft
        (stretch [plainStream] noEvent 1 (oneSaved [plainStream]).store.tables.log) =
          .ok recorded ∧
      Json.string "T" = (lastType [plainStream]).foldAll .null recorded) ∧
    (ProjectionRunner.state.run (ProjectionRunner.ofProjection (lastType [plainStream]) ⟨true⟩,
        (oneSaved [plainStream]).store)).1 =
      (ProjectionRunner.state.run (ProjectionRunner.ofProjection (lastType [plainStream]) ⟨false⟩,
        (oneSaved [plainStream]).store)).1 := by
  have prepared := fun _ : [plainStream] ≠ [] => canSelect_plainStream none
  have belongs : [plainStream].any (·.has "T" .null) := by simp [has_plainStream]
  have found := row_oneSaved plainStream_valid prepared belongs
  have service := (store_oneSaved plainStream_valid prepared belongs).2
  obtain ⟨stored, fresh⟩ := resumption_exact (steps_oneSaved _) (survives_lastType _)
  obtain ⟨recorded, decoded, data, encoded, holds⟩ := stored _ found
  have same : Json.string "T" = (lastType [plainStream]).foldAll .null recorded :=
    (Payload.value.inj holds).trans (Except.ok.inj encoded).symm
  refine ⟨⟨recorded, decoded, same⟩, (fresh service fun _ => ?_).1⟩
  exact ((Statement.canSelect_iff _ _).1 (canSelect_plainStream (some noEvent))).2

/-- Streams that can be read, but not after an event: the row was saved, and only
a runner that does not load it answers. -/
theorem wide_resume_fails :
    Steps (lastType [wideStream]) (start (lastType [wideStream]) default fun _ => ⟨false⟩)
      (oneSaved [wideStream]) ∧ (lastType [wideStream]).Survives ∧
    (ProjectionRunner.state.run (ProjectionRunner.ofProjection (lastType [wideStream]) ⟨false⟩,
        (oneSaved [wideStream]).store)).1 = .ok (.string "T") ∧
    (ProjectionRunner.state.run (ProjectionRunner.ofProjection (lastType [wideStream]) ⟨true⟩,
        (oneSaved [wideStream]).store)).1 = .error (.storage "statement cannot be prepared") := by
  have prepared := fun _ : [wideStream] ≠ [] => (canSelect_wideStream none).2 rfl
  have belongs : [wideStream].any (·.has "T" .null) := by simp [has_wideStream]
  have row := row_oneSaved wideStream_valid prepared belongs
  obtain ⟨tables, service⟩ := store_oneSaved wideStream_valid prepared belongs
  refine ⟨steps_oneSaved _, survives_lastType _, ?_, ?_⟩
  · have holds :
        (oneSaved [wideStream]).store.tables.Holds [⟨1, "T", .null, default, default⟩] := by
      rw [tables]
      exact holds_afterOne.of_events rfl
    have read := read_afterOne holds service wideStream_valid prepared belongs
    rw [ProjectionRunner.state_of_existing rfl (ProjectionRunner.existing_full _ _)]
    exact congrArg (Except.map (ProjectionRunner.fold (lastType [wideStream]) none)) read
  · have legible : (Json.string "T").Legible := by decide
    have returns : ProjectedState.ofJson (Json.string "T") = .ok (Json.string "T") := rfl
    have found : (Client.getProjection Json "last" "1").run (oneSaved [wideStream]).store =
        (.ok (some ⟨"last", "1", .string "T", 1, default, default⟩),
          (oneSaved [wideStream]).store) := by
      rw [Client.run_getProjection, Store.run_getProjection, service, row]
      simp [Projection.read_row legible, Except.map, Snapshot.decode, returns, lastType]
    have refused : ¬ Statement.canSelect (.ofStreams [wideStream]) (some 1) := fun can => by
      cases (canSelect_wideStream (some 1)).1 can
    have ran := Client.run_streams_of_refused (E := Draft) service wideStream_valid
      (List.cons_ne_nil _ _) refused
    have after : ProjectionRunner.floor
        (some (Snapshot.mk "last" "1" (Json.string "T") 1 default default)) = some 1 := rfl
    rw [ProjectionRunner.state_of_existing rfl
      (ProjectionRunner.existing_resumed (P := lastType [wideStream]) found),
      ProjectionRunner.answer, after]
    dsimp only [ProjectionRunner.ofProjection, lastType]
    rw [ran]
    rfl

end Readers

end Chronicle
