import Chronicle.Proofs.Client.Rejection
import Chronicle.Proofs.Runner.Effects
import Chronicle.Sample.Collect

/-!
# Saving a projection

A save of a runner with nothing staged is a load of the snapshot and the events, and
then one write (`ProjectionRunner.run_save_load`). Whatever the runner has read before,
that gives each outcome its condition (`ProjectionRunner.save_exact`): what is staged,
the fault of the load, nothing to save, what the check says, the write.

A snapshot whose event is not after `noEvent` is not resumed from, and it is not saved
under its event either (`ProjectionRunner.early_snapshot_not_saved`).
-/

namespace Chronicle

/-! ## The faults of reading -/

/-- The fault is one that a read can end with. -/
inductive Fault.OfReading : Fault → Prop
  | lock (text : String) : OfReading (.lock text)
  | storage (text : String) : OfReading (.storage text)
  | invalidFilter (text : String) : OfReading (.invalidFilter text)
  | validation (text : String) : OfReading (.validation text)

theorem Fault.OfReading.not_of_saving {fault : Fault} (reading : fault.OfReading) :
    fault ≠ .appliedEventsPresent ∧ fault ≠ .noEventsToSave := by
  cases reading <;> simp

namespace Store

theorem getProjection_eq_error {type id : String} {s t : Store} {fault : Fault}
    (failed : (getProjection type id).run s = (.error fault, t)) : fault.OfReading := by
  rw [run_getProjection] at failed
  split at failed
  · obtain ⟨same, -⟩ := Prod.mk.inj failed
    obtain rfl := Except.error.inj same
    exact .lock _
  split at failed
  · cases failed
  · rename_i row _
    obtain ⟨same, -⟩ := Prod.mk.inj failed
    unfold ProjectionRow.read at same
    split at same
    · cases same
    · obtain rfl := Except.error.inj same
      exact .storage _

theorem streams_eq_error {specs : List Stream} {after : Option EventId} {s t : Store}
    {fault : Fault} (failed : (streams specs after).run s = (.error fault, t)) :
    fault.OfReading := by
  rw [run_streams] at failed
  split at failed
  · rename_i compiled
    obtain ⟨same, -⟩ := Prod.mk.inj failed
    obtain rfl := Except.error.inj same
    obtain ⟨text, rfl⟩ := Selection.compile_eq_error compiled
    exact .invalidFilter text
  split at failed
  · cases failed
  split at failed
  · obtain ⟨same, -⟩ := Prod.mk.inj failed
    obtain rfl := Except.error.inj same
    exact .lock _
  split at failed
  · obtain ⟨same, -⟩ := Prod.mk.inj failed
    obtain rfl := Except.error.inj same
    exact .storage _
  split at failed
  · cases failed
  · rename_i unread
    obtain ⟨same, -⟩ := Prod.mk.inj failed
    obtain rfl := Except.error.inj same
    rw [mapM_read_eq_error unread]
    exact .storage _

end Store

namespace Client

theorem getProjection_eq_error {T : Type} [ProjectedState T] {type id : String} {s t : Store}
    {fault : Fault} (failed : (getProjection T type id).run s = (.error fault, t)) :
    fault.OfReading := by
  rw [run_getProjection] at failed
  rcases ran : (Store.getProjection type id).run s with ⟨answer, u⟩
  rw [ran] at failed
  cases answer with
  | error other =>
    obtain ⟨same, -⟩ := Prod.mk.inj failed
    obtain rfl := Except.error.inj same
    exact Store.getProjection_eq_error ran
  | ok found =>
    cases found with
    | none => cases failed
    | some row =>
      obtain ⟨same, -⟩ := Prod.mk.inj failed
      unfold Snapshot.decode at same
      split at same
      · cases same
      · obtain rfl := Except.error.inj same
        exact .validation _

variable {E : Type} [DomainEvent E]

theorem decodeAll_eq_error {rows : List StoredEvent} {fault : Fault}
    (failed : decodeAll E rows = .error fault) : fault.OfReading := by
  obtain ⟨row, -, unread⟩ := exists_of_mapM_eq_error failed
  unfold Recorded.decode DomainEvent.ofRaw at unread
  cases read : DomainEvent.ofTagged (E := E) (Json.tagged row.type row.data) with
  | ok event =>
    rw [read] at unread
    cases unread
  | error mismatch =>
    rw [read] at unread
    obtain rfl := Except.error.inj unread
    exact .validation _

theorem streams_eq_error {specs : List Stream} {after : Option EventId} {s t : Store}
    {fault : Fault} (failed : (streams E specs after).run s = (.error fault, t)) :
    fault.OfReading := by
  rw [run_streams] at failed
  cases checked : checkStreams specs with
  | error other =>
    rw [checked] at failed
    obtain rfl := Except.error.inj (Prod.mk.inj failed).1
    obtain ⟨text, rfl⟩ := checkStreams_eq_error checked
    exact .invalidFilter text
  | ok _ =>
    rw [checked] at failed
    rcases ran : (Store.streams specs after).run s with ⟨answer, u⟩
    rw [ran] at failed
    cases answer with
    | error other =>
      obtain rfl := Except.error.inj (Prod.mk.inj failed).1
      exact Store.streams_eq_error ran
    | ok rows => exact decodeAll_eq_error (Prod.mk.inj failed).1

end Client

namespace ProjectionRunner

variable {E T : Type} {snapshot : Option (Snapshot T)}

/-! ## What is saved, and under which event -/

theorem anchor?_of_last {recorded : List (Recorded E)} {last : Recorded E}
    (ends : recorded.getLast? = some last) : anchor? snapshot recorded = some last.id := by
  rw [anchor?, ends]
  rfl

theorem anchor?_nil (snapshot : Option (Snapshot T)) :
    anchor? snapshot ([] : List (Recorded E)) = floor snapshot := by
  rw [anchor?, List.getLast?_nil, Option.map_none, Option.none_or]

theorem floor_eq_none_iff :
    floor snapshot = none ↔ ∀ given, snapshot = some given → given.lastEvent ≤ noEvent := by
  cases snapshot <;> simp [floor]

/-- Nothing is to be saved when nothing is recorded and no snapshot is resumed from. -/
theorem anchor?_eq_none_iff {recorded : List (Recorded E)} :
    anchor? snapshot recorded = none ↔
      recorded = [] ∧ ∀ given, snapshot = some given → given.lastEvent ≤ noEvent := by
  rw [anchor?, Option.or_eq_none_iff, floor_eq_none_iff, Option.map_eq_none_iff,
    List.getLast?_eq_none_iff]

variable [ProjectedState T] {r : ProjectionRunner E T} {s : Store}
  {after : ProjectionRunner E T × Store}

/-- What becomes of a state that is to be saved under an event: the check of the
projection decides, then whether it can be written as JSON, then the database. -/
def kept (P : Projection E T) (current : T) (event : EventId)
    (after : ProjectionRunner E T × Store) :
    Except Fault EventId × ProjectionRunner E T × Store :=
  match P.check current, ProjectedState.encode current with
  | .error fault, _ => (.error fault, after)
  | .ok (), .error fault => (.error fault, after)
  | .ok (), .ok data =>
    if after.2.poisoned then (.error (.lock "connection mutex poisoned"), after)
    else if (Payload.value data).isStorable then
      (.ok event, after.1,
        { after.2 with
          tables := after.2.tables.upsert after.2.now P.type P.id data event
          metrics := after.2.metrics.add .projectionsSaved 1 })
    else (.error (.storage "payload is not valid JSON"), after)

theorem encode_fault {state : T} {fault : Fault}
    (failed : ProjectedState.encode state = .error fault) :
    ∃ text, fault = .serialization text := by
  unfold ProjectedState.encode at failed
  cases written : ProjectedState.toJson state with
  | ok data =>
    rw [written] at failed
    cases failed
  | error text =>
    rw [written] at failed
    exact ⟨text, (Except.error.inj failed).symm⟩

theorem kept_fault {P : Projection E T} {current : T} {event : EventId} {fault : Fault}
    (failed : (kept P current event after).1 = .error fault) :
    P.check current = .error fault ∨ fault.OfReading ∨ ∃ text, fault = .serialization text := by
  unfold kept at failed
  split at failed
  · rename_i rejected
    obtain rfl := Except.error.inj failed
    exact .inl rejected
  · rename_i unwritten
    obtain rfl := Except.error.inj failed
    exact .inr (.inr (encode_fault unwritten))
  split at failed
  · obtain rfl := Except.error.inj failed
    exact .inr (.inl (.lock _))
  split at failed
  · cases failed
  · obtain rfl := Except.error.inj failed
    exact .inr (.inl (.storage _))

/-! ## A load and a write -/

theorem existing_fault {fault : Fault} (failed : existing.run (r, s) = (.error fault, after)) :
    fault.OfReading := by
  rw [run_existing] at failed
  split at failed
  · cases failed
  split at failed
  · split at failed
    · cases failed
    · rename_i ran
      obtain rfl := Except.error.inj (Prod.mk.inj failed).1
      exact Client.getProjection_eq_error ran
  · cases failed

variable [DomainEvent E]

theorem events_fault {fault : Fault} (failed : events.run (r, s) = (.error fault, after)) :
    fault.OfReading := by
  rw [run_events] at failed
  split at failed
  · cases failed
  rw [run_resumeAfter] at failed
  rcases loading : existing.run (r, s) with ⟨answer, r₁, s₁⟩
  rw [loading] at failed
  cases answer with
  | error other =>
    obtain rfl := Except.error.inj (Prod.mk.inj failed).1
    exact existing_fault loading
  | ok snapshot =>
    dsimp only [Except.map] at failed
    split at failed
    · cases failed
    · rename_i ran
      obtain rfl := Except.error.inj (Prod.mk.inj failed).1
      exact Client.streams_eq_error ran

theorem load_fault {fault : Fault} (failed : load.run (r, s) = (.error fault, after)) :
    fault.OfReading := by
  rw [run_load] at failed
  split at failed
  · rename_i ran
    obtain rfl := Except.error.inj (Prod.mk.inj failed).1
    exact existing_fault ran
  split at failed
  · rename_i ran
    obtain rfl := Except.error.inj (Prod.mk.inj failed).1
    exact events_fault ran
  · cases failed

theorem snapshot_of_events {r' : ProjectionRunner E T} {t : Store} {view : View E}
    (cached : r.snapshot = some snapshot) (answered : events.run (r, s) = (.ok view, r', t)) :
    r'.snapshot = some snapshot := by
  cases fetched : r.history.fetched with
  | some recorded =>
    rw [run_events_fetched fetched] at answered
    obtain ⟨-, rest⟩ := Prod.mk.inj answered
    obtain ⟨rfl, -⟩ := Prod.mk.inj rest
    exact cached
  | none =>
    rw [run_events_cached cached fetched] at answered
    split at answered
    · obtain ⟨-, rest⟩ := Prod.mk.inj answered
      obtain ⟨rfl, -⟩ := Prod.mk.inj rest
      exact cached
    · cases answered

/-- A load leaves in the runner what it answers. -/
theorem load_eq_ok {r' : ProjectionRunner E T} {t : Store} {view : View E}
    (loaded : load.run (r, s) = (.ok (snapshot, view), r', t)) :
    r'.projection = r.projection ∧ r'.snapshot = some snapshot ∧
      r'.history = ⟨some view.recorded, r.history.staged⟩ ∧ view.staged = r.history.staged := by
  rw [run_load] at loaded
  rcases finding : existing.run (r, s) with ⟨answer, r₁, s₁⟩
  rw [finding] at loaded
  cases answer with
  | error fault => cases loaded
  | ok found =>
    dsimp only at loaded
    rcases reading : events.run (r₁, s₁) with ⟨answer, r₂, s₂⟩
    rw [reading] at loaded
    cases answer with
    | error fault => cases loaded
    | ok view =>
      obtain ⟨same, rest⟩ := Prod.mk.inj loaded
      obtain ⟨rfl, rfl⟩ := Prod.mk.inj (Except.ok.inj same)
      obtain ⟨rfl, rfl⟩ := Prod.mk.inj rest
      have stays := existing_eq_ok finding
      obtain ⟨sameRule, history, staged⟩ := events_eq_ok reading
      refine ⟨?_, snapshot_of_events (by rw [stays]) reading, ?_, ?_⟩
      · rw [sameRule, stays]
      · rw [history, stays]
      · rw [staged, stays]

/-- The first events that a runner has are those that a load answers. -/
theorem events_of_load {view : View E} (unread : r.history.fetched = none)
    (loaded : load.run (r, s) = (.ok (snapshot, view), after)) :
    events.run (r, s) = (.ok view, after) := by
  rw [run_load] at loaded
  rcases finding : existing.run (r, s) with ⟨answer, r₁, s₁⟩
  rw [finding] at loaded
  cases answer with
  | error fault => cases loaded
  | ok found =>
    rw [events_existing finding unread]
    dsimp only at loaded
    rcases reading : events.run (r₁, s₁) with ⟨answer, r₂, s₂⟩
    rw [reading] at loaded
    cases answer with
    | error fault => cases loaded
    | ok given =>
      obtain ⟨same, rfl⟩ := Prod.mk.inj loaded
      obtain ⟨-, rfl⟩ := Prod.mk.inj (Except.ok.inj same)
      rfl

/-- The state of a runner with nothing staged is the fold of what a load answers. -/
theorem state_of_load {view : View E} (unstaged : r.history.staged = [])
    (loaded : load.run (r, s) = (.ok (snapshot, view), after)) :
    state.run (r, s) = (.ok (fold r.projection snapshot view.recorded), after) := by
  obtain ⟨rule, -, -, staged⟩ := load_eq_ok loaded
  rw [run_state, loaded]
  simp [fold, Projection.foldAll, View.reduce, View.events, staged, unstaged, rule]

/-- A save that will need the snapshot can load it first. -/
theorem save_existing (answered : existing.run (r, s) = (.ok snapshot, after))
    (unstaged : r.history.staged = []) : save.run (r, s) = save.run after := by
  obtain ⟨r', t⟩ := after
  have stays := existing_eq_ok answered
  have again := existing_again answered
  have resumes : resumeAfter.run (r, s) = resumeAfter.run (r', t) := by
    rw [run_resumeAfter, run_resumeAfter, answered, again]
  have states : state.run (r, s) = state.run (r', t) := by
    rw [run_state, run_state, run_load, run_load, answered, again]
  have rule : r'.projection = r.projection := by rw [stays]
  have unstaged' : r'.history.staged = [] := by rw [stays, unstaged]
  rw [run_save, run_save, if_pos unstaged, if_pos unstaged', rule]
  cases fetched : r.history.fetched with
  | none =>
    have anchors : anchor.run (r, s) = anchor.run (r', t) := by
      rw [run_anchor, run_anchor, events_existing answered fetched]
    rw [anchors]
  | some recorded =>
    have fetched' : r'.history.fetched = some recorded := by rw [stays, fetched]
    rw [run_anchor, run_anchor, run_events_fetched fetched, run_events_fetched fetched']
    dsimp only [View.lastId?]
    cases recorded.getLast?.map Recorded.id with
    | none => rw [resumes]
    | some id =>
      dsimp only
      rw [states]

/-- A save whose snapshot cannot be loaded fails like the load. -/
theorem save_of_unread {fault : Fault} (failed : existing.run (r, s) = (.error fault, after))
    (unstaged : r.history.staged = []) : save.run (r, s) = (.error fault, after) := by
  have resumes : resumeAfter.run (r, s) = (.error fault, after) := by
    rw [run_resumeAfter, failed]
    rfl
  rw [run_save, if_pos unstaged, run_anchor]
  cases fetched : r.history.fetched with
  | none =>
    rw [run_events, fetched, resumes]
  | some recorded =>
    rw [run_events_fetched fetched]
    dsimp only [View.lastId?]
    cases recorded.getLast?.map Recorded.id with
    | none => rw [resumes]
    | some id =>
      dsimp only
      rw [run_state, run_load, failed]

/-- A save with nothing staged is a load and then one write. -/
theorem run_save_load (unstaged : r.history.staged = []) :
    save.run (r, s) =
      match load.run (r, s) with
      | (.error fault, after) => (.error fault, after)
      | (.ok (snapshot, view), after) =>
        let kept := (r.projection.keep (fold r.projection snapshot view.recorded)
          (anchor? snapshot view.recorded)).run after.2
        (kept.1, after.1, kept.2) := by
  rcases finding : existing.run (r, s) with ⟨answer, r₁, s₁⟩
  cases answer with
  | error fault => rw [save_of_unread finding unstaged, run_load, finding]
  | ok snapshot =>
    have stays := existing_eq_ok finding
    have unstaged₁ : r₁.history.staged = [] := by rw [stays, unstaged]
    rcases reading : events.run (r₁, s₁) with ⟨answer, r₂, s₂⟩
    rw [save_existing finding unstaged]
    cases answer with
    | error fault =>
      have failed : load.run (r, s) = (.error fault, r₂, s₂) := by
        rw [run_load, finding]
        dsimp only
        rw [reading]
      rw [run_save, if_pos unstaged₁, run_anchor, reading, failed]
    | ok view =>
      have loaded : load.run (r, s) = (.ok (snapshot, view), r₂, s₂) := by
        rw [run_load, finding]
        dsimp only
        rw [reading]
      obtain ⟨rule, cached, history, -⟩ := load_eq_ok loaded
      rw [save_events reading unstaged₁, loaded, run_save_loaded cached (by rw [history])
        (by rw [history, unstaged]), rule]

/-! ## The outcomes of a save -/

/-- With a last event or a snapshot to go by, the state is to be saved. -/
theorem save_of_anchored {view : View E} (unstaged : r.history.staged = [])
    (loaded : load.run (r, s) = (.ok (snapshot, view), after)) {event : EventId}
    (anchored : anchor? snapshot view.recorded = some event) :
    save.run (r, s) =
      kept r.projection (fold r.projection snapshot view.recorded) event after := by
  rw [run_save_load unstaged, loaded, kept]
  dsimp only
  rw [anchored, Projection.run_keep]
  dsimp only
  cases r.projection.check (fold r.projection snapshot view.recorded) with
  | error fault => rfl
  | ok =>
    cases ProjectedState.encode (fold r.projection snapshot view.recorded) with
    | error fault => rfl
    | ok data =>
      dsimp only
      split
      · rfl
      split <;> rfl

theorem save_of_unanchored {view : View E} (unstaged : r.history.staged = [])
    (loaded : load.run (r, s) = (.ok (snapshot, view), after))
    (nothing : anchor? snapshot view.recorded = none) :
    save.run (r, s) = (.error .noEventsToSave, after) := by
  rw [run_save_load unstaged, loaded]
  dsimp only
  rw [nothing, Projection.run_keep]

/-- Where the fault of a save with nothing staged comes from. -/
theorem save_fault (unstaged : r.history.staged = []) {fault : Fault}
    (failed : (save.run (r, s)).1 = .error fault) :
    (fault ≠ .appliedEventsPresent ∧ fault ≠ .noEventsToSave) ∨
      (∃ current, r.projection.check current = .error fault) ∨
      fault = .noEventsToSave ∧ ∃ snapshot view after,
        load.run (r, s) = (.ok (snapshot, view), after) ∧ view.recorded = [] ∧
        ∀ given, snapshot = some given → given.lastEvent ≤ noEvent := by
  rcases loading : load.run (r, s) with ⟨answer, after⟩
  cases answer with
  | error other =>
    rw [run_save_load unstaged, loading] at failed
    obtain rfl := Except.error.inj failed
    exact .inl (load_fault loading).not_of_saving
  | ok loaded =>
    obtain ⟨snapshot, view⟩ := loaded
    cases anchored : anchor? snapshot view.recorded with
    | none =>
      rw [save_of_unanchored unstaged loading anchored] at failed
      obtain rfl := Except.error.inj failed
      exact .inr (.inr ⟨rfl, snapshot, view, after, rfl, anchor?_eq_none_iff.1 anchored⟩)
    | some event =>
      rw [save_of_anchored unstaged loading anchored] at failed
      rcases kept_fault failed with rejected | reading | ⟨text, rfl⟩
      · exact .inr (.inl ⟨_, rejected⟩)
      · exact .inl reading.not_of_saving
      · exact .inl (by simp)

/-- Every outcome of a save, whatever the runner has read before and whatever is in the
store. With something staged it fails and nothing is asked. Otherwise it fails as the load
does. With no events recorded, and no snapshot or one whose event is not after `noEvent`,
there is nothing to save. In all other cases the state is to be saved under the last event,
or with none under the snapshot's. The two faults of saving come from nowhere else but the
check. -/
theorem save_exact (r : ProjectionRunner E T) (s : Store) :
    (r.history.staged ≠ [] → save.run (r, s) = (.error .appliedEventsPresent, r, s)) ∧
    (r.history.staged = [] →
      (∀ fault after, load.run (r, s) = (.error fault, after) →
        save.run (r, s) = (.error fault, after) ∧ after.2.content = s.content ∧ fault.OfReading) ∧
      ∀ snapshot view after, load.run (r, s) = (.ok (snapshot, view), after) →
        let current := fold r.projection snapshot view.recorded
        state.run (r, s) = (.ok current, after) ∧ after.2.content = s.content ∧
        (∀ last, view.recorded.getLast? = some last →
          save.run (r, s) = kept r.projection current last.id after) ∧
        (view.recorded = [] → ∀ given, snapshot = some given → noEvent < given.lastEvent →
          save.run (r, s) = kept r.projection current given.lastEvent after) ∧
        (view.recorded = [] → (∀ given, snapshot = some given → given.lastEvent ≤ noEvent) →
          save.run (r, s) = (.error .noEventsToSave, after))) ∧
    ((save.run (r, s)).1 = .error .appliedEventsPresent → r.history.staged ≠ [] ∨
      ∃ current, r.projection.check current = .error .appliedEventsPresent) ∧
    ((save.run (r, s)).1 = .error .noEventsToSave →
      (r.history.staged = [] ∧ ∃ snapshot view after,
        load.run (r, s) = (.ok (snapshot, view), after) ∧ view.recorded = [] ∧
        ∀ given, snapshot = some given → given.lastEvent ≤ noEvent) ∨
      ∃ current, r.projection.check current = .error .noEventsToSave) := by
  have isStaged (staged : r.history.staged ≠ []) :
      save.run (r, s) = (.error .appliedEventsPresent, r, s) := by
    rw [run_save, if_neg staged]
  refine ⟨isStaged, fun unstaged => ⟨fun fault after failed => ?_,
    fun snapshot view after loaded => ?_⟩, fun failed => ?_, fun failed => ?_⟩
  · have same := content_load r s
    rw [failed] at same
    refine ⟨?_, same, load_fault failed⟩
    rw [run_save_load unstaged, failed]
  · have same := content_load r s
    rw [loaded] at same
    refine ⟨state_of_load unstaged loaded, same, fun last ends => ?_, ?_, ?_⟩
    · exact save_of_anchored unstaged loaded (anchor?_of_last ends)
    · rintro none given rfl above
      refine save_of_anchored unstaged loaded ?_
      rw [none, anchor?_nil]
      exact Option.filter_eq_some_iff.2 ⟨rfl, decide_eq_true above⟩
    · intro none early
      exact save_of_unanchored unstaged loaded (anchor?_eq_none_iff.2 ⟨none, early⟩)
  · by_contra neither
    obtain ⟨unstaged, notChecked⟩ := not_or.1 neither
    rcases save_fault (not_not.1 unstaged) failed with other | checked | ⟨other, -⟩
    · exact other.1 rfl
    · exact notChecked checked
    · cases other
  · by_cases unstaged : r.history.staged = []
    · rcases save_fault unstaged failed with other | checked | ⟨-, nothing⟩
      · exact absurd rfl other.2
      · exact .inr checked
      · exact .inl ⟨unstaged, nothing⟩
    · rw [isStaged unstaged] at failed
      cases failed

/-! ## A snapshot alone -/

/-- Collect the values of one field, from what was stored on. -/
def collector : ProjectionRunner Draft (List Json) :=
  ofProjection (Sample.collect "p" "1" [plainStream] "f" none) ⟨true⟩

/-- A snapshot of the collected values that is stored under an event. -/
def collected (event : EventId) : Snapshot (List Json) :=
  ⟨"p", "1", [.null], event, default, default⟩

/-- A new store to which such a snapshot was saved. -/
def snapshotOnly (event : EventId) : Store :=
  Store.Call.perform (.new default) (.saveProjection "p" "1" (.array [.null]) event)

/-- The snapshot is saved again under its event, unless something is staged. -/
theorem save_exact_snapshot :
    let loaded := { collector with snapshot := some (some (collected 5)), history := ⟨some [], []⟩ }
    (save.run (loaded, Store.new default)).1 = .ok 5 ∧
      (save.run (loaded.stage ⟨"T", .null⟩, Store.new default)).1 =
        .error .appliedEventsPresent := by
  intro loaded
  have outcomes := save_exact loaded (Store.new default)
  have staged := (save_exact (loaded.stage ⟨"T", .null⟩) (Store.new default)).1
  obtain ⟨-, -, -, saves, -⟩ := (outcomes.2.1 rfl).2 (some (collected 5)) ⟨[], []⟩ _ rfl
  refine ⟨?_, congrArg Prod.fst (staged (List.cons_ne_nil _ _))⟩
  rw [saves rfl (collected 5) rfl (by decide)]
  rfl

/-- What is loaded from such a store is the snapshot and no events. -/
theorem load_snapshotOnly (event : EventId) :
    ∃ metrics, load.run (collector, snapshotOnly event) =
      (.ok (some (collected event), ⟨[], []⟩),
        { collector with snapshot := some (some (collected event)), history := ⟨some [], []⟩ },
        { snapshotOnly event with metrics := metrics }) := by
  have holds : (snapshotOnly event).tables.Holds [] := (Store.holds_new default).of_events rfl
  let found : ProjectionRunner Draft (List Json) :=
    { collector with snapshot := some (some (collected event)) }
  have finding : existing.run (collector, snapshotOnly event) =
      (.ok (some (collected event)), found, snapshotOnly event) := rfl
  -- The log is empty, so the read finds nothing wherever it starts.
  obtain ⟨metrics, ran⟩ := Store.run_streams_of_holds holds rfl
    (Selection.compile_of_valid plainStream_valid) fun _ =>
      canSelect_plainStream (floor (some (collected event)))
  have read : (Client.streams Draft found.projection.streams (floor (some (collected event)))).run
      (snapshotOnly event) = (.ok [], { snapshotOnly event with metrics := metrics }) := by
    rw [show found.projection.streams = [plainStream] from rfl, Client.run_streams,
      Client.checkStreams_eq_ok.2 plainStream_valid, ran]
    rfl
  refine ⟨metrics, ?_⟩
  rw [run_load, finding]
  dsimp only
  rw [run_events_cached rfl rfl, read]
  rfl

/-- A snapshot of no event is there and nothing is recorded, but there is nothing to
save. -/
theorem early_snapshot_not_saved :
    (snapshotOnly 0).Reachable ∧
      (existing.run (collector, snapshotOnly 0)).1 = .ok (some (collected 0)) ∧
      (events.run (collector, snapshotOnly 0)).1 = .ok ⟨[], []⟩ ∧
      (save.run (collector, snapshotOnly 0)).1 = .error .noEventsToSave := by
  obtain ⟨metrics, loaded⟩ := load_snapshotOnly 0
  refine ⟨.step (.new default) (.call _ _), rfl, ?_, ?_⟩
  · rw [events_of_load rfl loaded]
  · rw [save_of_unanchored rfl loaded rfl]

end ProjectionRunner

end Chronicle
