import Chronicle.Proofs.Client.Writes
import Chronicle.Proofs.Runner.Snapshots
import Chronicle.Proofs.Runner.Validation

/-!
# What runners do to a log

Reading leaves the content of the store (`ProjectionRunner.content_state`,
`ValidationRunner.content_events`). A projection runner writes no events at all
(`ProjectionRunner.events_perform`), and a validation runner writes them only by
saving, as a client of its domain would (`ValidationRunner.grows_perform`).
-/

namespace Chronicle

/-- Every draft reads as a raw event. -/
theorem Draft.ofRaw_raw (draft : Draft) : DomainEvent.ofRaw draft.type draft.data = .ok draft := by
  have order : "data" < "type" := by decide
  have tagged : Json.tagged draft.type draft.data =
      .object [("data", draft.data), ("type", .string draft.type)] := by
    simp [Json.tagged, Json.ofMembers, Json.insertMember, order]
  unfold DomainEvent.ofRaw
  rw [tagged]
  rfl

theorem Draft.fits_raw (draft : Draft) : draft.Fits Draft := ⟨draft, draft.ofRaw_raw⟩

namespace Client

variable {E : Type} [DomainEvent E]

/-- An event that reads as one of the domain decodes. -/
theorem decode_of_fits (row : StoredEvent) (fits : Draft.Fits E ⟨row.type, row.data⟩) :
    ∃ recorded : Recorded E, Recorded.decode row = .ok recorded := by
  obtain ⟨event, reads⟩ := fits
  exact ⟨⟨row.id, event, row.created, row.updated⟩, by simp [Recorded.decode, reads, Except.map]⟩

theorem readAll_of_fits {rows : List StoredEvent}
    (fits : ∀ row ∈ rows, Draft.Fits E ⟨row.type, row.data.reread⟩) :
    ∃ recorded, readAll E rows = .ok recorded := by
  induction rows with
  | nil => exact ⟨[], rfl⟩
  | cons row rows ih =>
    obtain ⟨fitsFirst, fitsRest⟩ := List.forall_mem_cons.1 fits
    obtain ⟨first, decodedFirst⟩ := decode_of_fits row.reread fitsFirst
    obtain ⟨rest, decodedRest⟩ := ih fitsRest
    exact ⟨first :: rest, readAll_cons.2 ⟨first, rest, decodedFirst, decodedRest, rfl⟩⟩

/-- A write adds events of the domain at the end of the table. -/
theorem Write.grows_perform (w : Write E) (s : Store) :
    Store.Grows (Draft.Fits E) s (w.perform s) := by
  rcases w.outcome s with ⟨fault, -, kept⟩ | ⟨drafts, -, fit, legible, grown, -⟩
  · exact Store.grows_of_events (congrArg (·.1.events) kept)
  · exact ⟨drafts, fun draft present => ⟨legible draft present, fit draft present⟩,
      congrArg Tables.events grown⟩

theorem content_getProjection {T : Type} [ProjectedState T] (type id : String) (s : Store) :
    ((getProjection T type id).run s).2.content = s.content := by
  have kept := Store.keeps_getProjection type id s
  rw [run_getProjection]
  rcases ran : (Store.getProjection type id).run s with ⟨answer, t⟩
  rw [ran] at kept
  cases answer with
  | error fault => exact kept
  | ok found => cases found <;> exact kept

end Client

/-! ## Projection runners -/

namespace ProjectionRunner

variable {E T : Type} [ProjectedState T] (r : ProjectionRunner E T) (s : Store)

theorem content_existing : (existing.run (r, s)).2.2.content = s.content := by
  have kept := Client.content_getProjection (T := T) r.projection.type r.projection.id s
  rw [run_existing]
  split
  · rfl
  split
  · rcases ran : (Client.getProjection T r.projection.type r.projection.id).run s with ⟨answer, t⟩
    rw [ran] at kept
    cases answer <;> exact kept
  · rfl

theorem content_resumeAfter : (resumeAfter.run (r, s)).2.2.content = s.content := by
  rw [run_resumeAfter]
  exact content_existing r s

variable [DomainEvent E]

theorem content_events : (events.run (r, s)).2.2.content = s.content := by
  have resumed := content_resumeAfter r s
  rw [run_events]
  split
  · rfl
  rcases ran : resumeAfter.run (r, s) with ⟨answer, r₁, s₁⟩
  rw [ran] at resumed
  cases answer with
  | error fault => exact resumed
  | ok floor =>
    dsimp only
    have read := Client.keeps_streams (E := E) r₁.projection.streams floor s₁
    rcases ran : (Client.streams E r₁.projection.streams floor).run s₁ with ⟨answer, t⟩
    rw [ran] at read
    cases answer <;> exact read.trans resumed

theorem content_load : (load.run (r, s)).2.2.content = s.content := by
  have found := content_existing r s
  rw [run_load]
  rcases ran : existing.run (r, s) with ⟨answer, r₁, s₁⟩
  rw [ran] at found
  cases answer with
  | error fault => exact found
  | ok snapshot =>
    dsimp only
    have read := content_events r₁ s₁
    rcases ran : events.run (r₁, s₁) with ⟨answer, after⟩
    rw [ran] at read
    cases answer <;> exact read.trans found

theorem content_state : (state.run (r, s)).2.2.content = s.content := by
  have loaded := content_load r s
  rw [run_state]
  rcases ran : load.run (r, s) with ⟨answer, after⟩
  rw [ran] at loaded
  cases answer <;> exact loaded

theorem content_anchor : (anchor.run (r, s)).2.2.content = s.content := by
  have read := content_events r s
  rw [run_anchor]
  rcases ran : events.run (r, s) with ⟨answer, r₁, s₁⟩
  rw [ran] at read
  cases answer with
  | error fault => exact read
  | ok view =>
    dsimp only
    split
    · exact read
    have resumed := content_resumeAfter r₁ s₁
    rcases ran : resumeAfter.run (r₁, s₁) with ⟨answer, after⟩
    rw [ran] at resumed
    cases answer with
    | error fault => exact resumed.trans read
    | ok floor => cases floor <;> exact resumed.trans read

/-- A save writes a projection, if anything. -/
theorem events_save : (save.run (r, s)).2.2.tables.events = s.tables.events := by
  have anchored : (anchor.run (r, s)).2.2.tables.events = s.tables.events :=
    congrArg (·.1.events) (content_anchor r s)
  rw [run_save]
  split
  · rcases ran : anchor.run (r, s) with ⟨answer, r₁, s₁⟩
    rw [ran] at anchored
    cases answer with
    | error fault => exact anchored
    | ok event =>
      dsimp only
      have folded : (state.run (r₁, s₁)).2.2.tables.events = s₁.tables.events :=
        congrArg (·.1.events) (content_state r₁ s₁)
      rcases ran : state.run (r₁, s₁) with ⟨answer, r₂, s₂⟩
      rw [ran] at folded
      cases answer with
      | error fault => exact folded.trans anchored
      | ok current =>
        dsimp only
        split
        · exact folded.trans anchored
        rw [Client.run_saveProjection]
        cases ProjectedState.encode current with
        | error fault => exact folded.trans anchored
        | ok data =>
          have written := (Store.leaves_perform (.saveProjection r.projection.type r.projection.id
            data event) s₂).1.events_eq rfl
          exact written.trans (folded.trans anchored)
  · rfl

/-- A projection runner writes no events. -/
theorem events_perform (c : Call E) :
    (c.perform (r, s)).2.tables.events = s.tables.events := by
  have reads {t : Store} (kept : t.content = s.content) : t.tables.events = s.tables.events :=
    congrArg (·.1.events) kept
  cases c with
  | stage event => rfl
  | existing => exact reads (content_existing r s)
  | events => exact reads (content_events r s)
  | state => exact reads (content_state r s)
  | refresh =>
    rw [Call.perform, run_refresh]
    exact reads (content_existing r.forget s)
  | save => exact events_save r s

end ProjectionRunner

/-! ## Validation runners -/

namespace ValidationRunner

variable {E : Type} [DomainEvent E] (r : ValidationRunner E) (s : Store)

theorem content_events : (events.run (r, s)).2.2.content = s.content := by
  have read := Client.keeps_streams (E := E) r.validator.streams none s
  rw [run_events]
  split
  · rfl
  rcases ran : (Client.streams E r.validator.streams none).run s with ⟨answer, t⟩
  rw [ran] at read
  cases answer <;> exact read

/-- A save writes what a client of the domain could. -/
theorem grows_save : Store.Grows (Draft.Fits E) s (save.run (r, s)).2.2 := by
  have read := content_events r s
  rw [run_save]
  split
  · exact Store.grows_of_events rfl
  rcases ran : events.run (r, s) with ⟨answer, r₁, s₁⟩
  rw [ran] at read
  cases answer with
  | error fault => exact Store.grows_of_events (congrArg (·.1.events) read)
  | ok view =>
    dsimp only
    split
    · exact Store.grows_of_events (congrArg (·.1.events) read)
    · exact (Client.Write.grows_perform (.appendIfNoNewer r.history.staged
        (view.lastId?.getD noEvent) r.validator.streams) s₁).of_content read

/-- A validation runner writes events of its domain only. -/
theorem grows_perform (c : Call E) : Store.Grows (Draft.Fits E) s (c.perform (r, s)).2 := by
  have reads {t : Store} (kept : t.content = s.content) : Store.Grows (Draft.Fits E) s t :=
    Store.grows_of_events (congrArg (·.1.events) kept)
  cases c with
  | stage event => exact reads rfl
  | forget => exact reads rfl
  | events => exact reads (content_events r s)
  | refresh =>
    rw [Call.perform, run_refresh]
    exact reads (content_events r.forget s)
  | validate =>
    rw [Call.perform, run_validate]
    exact reads (content_events r s)
  | save => exact grows_save r s

end ValidationRunner

end Chronicle
