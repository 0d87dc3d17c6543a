import Chronicle.Proofs.Runner.Effects
import Chronicle.Sample.Collect

/-!
# Stores of one domain

Where all events are written by the clients and validation runners of one domain
(`DomainStep`), every event of the log reads as an event of it (`DomainSteps.sound`).
What else a read can fail with is not that something has the wrong shape
(`Action.Fits`). So while payloads are read back as they were written, clients and
runners of the domain read whatever they ask for without a validation fault, but for a
projection runner that resumes from a snapshot, which may be of anything
(`domain_reads_fit`).
-/

namespace Chronicle

/-- The answer is that something does not have its declared shape. -/
def Misfit {α : Type} (answer : Except Fault α) : Prop :=
  ∃ text, answer = .error (.validation text)

section Answers

variable {α β : Type}

theorem not_misfit_ok (a : α) : ¬ Misfit (.ok a : Except Fault α) := by
  rintro ⟨text, failed⟩
  cases failed

theorem misfit_error {fault : Fault} :
    Misfit (.error fault : Except Fault α) ↔ ∃ text, fault = .validation text := by
  simp [Misfit]

theorem not_validation {fault : Fault} (other : ¬ Misfit (.error fault : Except Fault α))
    (text : String) : fault ≠ .validation text := fun same => other (misfit_error.2 ⟨text, same⟩)

/-- What would have been answered does not matter. -/
theorem not_misfit_error {fault : Fault} (first : ¬ Misfit (.error fault : Except Fault α)) :
    ¬ Misfit (.error fault : Except Fault β) :=
  misfit_error.not.2 (misfit_error.not.1 first)

theorem not_misfit_bind {answer : Except Fault α} {next : α → Except Fault β}
    (first : ¬ Misfit answer) (rest : ∀ a, ¬ Misfit (next a)) : ¬ Misfit (answer >>= next) := by
  cases answer with
  | ok a => exact rest a
  | error fault => exact not_misfit_error first

theorem not_misfit_map {answer : Except Fault α} (f : α → β) (first : ¬ Misfit answer) :
    ¬ Misfit (answer.map f) :=
  not_misfit_bind first fun a => not_misfit_ok (f a)

theorem not_misfit_mapM {f : α → Except Fault β} (each : ∀ a, ¬ Misfit (f a)) (items : List α) :
    ¬ Misfit (items.mapM f) := by
  induction items with
  | nil => exact not_misfit_ok []
  | cons item items ih =>
    rw [List.mapM_cons]
    exact not_misfit_bind (each item) fun b => not_misfit_bind ih fun _ => not_misfit_ok _

theorem not_misfit_forM {f : α → Except Fault PUnit} (each : ∀ a, ¬ Misfit (f a))
    (items : List α) : ¬ Misfit (items.forM f) := by
  induction items with
  | nil => exact not_misfit_ok _
  | cons item items ih =>
    rw [List.forM_eq_forM, List.forM_cons]
    exact not_misfit_bind (each item) fun _ => ih

/-- A filter that is not valid is another fault. -/
theorem not_misfit_validate (filter : Filter) : ¬ Misfit filter.validate := by
  rintro ⟨text, failed⟩
  unfold Filter.validate at failed
  cases checked : filter.check with
  | ok => simp [checked, Except.mapError] at failed
  | error flaw =>
    rw [checked] at failed
    cases flaw <;> simp [Except.mapError, Filter.Flaw.fault] at failed

theorem not_misfit_validateOptional (filter : Option Filter) :
    ¬ Misfit (filter.forM Filter.validate) := by
  cases filter with
  | none => exact not_misfit_ok _
  | some filter => exact not_misfit_validate filter

theorem not_misfit_checkStreams (specs : List Stream) : ¬ Misfit (Client.checkStreams specs) := by
  unfold Client.checkStreams
  exact not_misfit_forM (fun spec => not_misfit_validateOptional spec.filter) specs

theorem not_misfit_compileOptional (filter : Option Filter) :
    ¬ Misfit (compileOptional filter) := by
  cases filter with
  | none => exact not_misfit_ok _
  | some filter => exact not_misfit_bind (not_misfit_validate filter) fun _ => not_misfit_ok _

theorem not_misfit_compile (specs : List Stream) : ¬ Misfit (Selection.compile specs) := by
  refine not_misfit_mapM (fun spec => ?_) specs
  unfold Stream.compile
  split
  · exact not_misfit_ok _
  · exact not_misfit_map _ (not_misfit_compileOptional spec.filter)

/-- So is a row that cannot be read. -/
theorem not_misfit_unreadable : ¬ Misfit (.error unreadable : Except Fault α) := by
  simp [misfit_error, unreadable]

theorem not_misfit_readEvent (row : EventRow) : ¬ Misfit row.read := by
  unfold EventRow.read
  split
  · exact not_misfit_ok _
  · exact not_misfit_unreadable

theorem not_misfit_readProjection (row : ProjectionRow) : ¬ Misfit row.read := by
  unfold ProjectionRow.read
  split
  · exact not_misfit_ok _
  · exact not_misfit_unreadable

end Answers

/-! ## Actions that meet the shapes they expect -/

namespace Action

variable {S α β : Type}

/-- At the state, the action does not fail for the shape of what it meets. -/
def Fits (act : Action S α) (s : S) : Prop := ¬ Misfit (act.run s).1

namespace Fits

variable {act : Action S α} {s : S}

theorem pure (a : α) (s : S) : Fits (pure a : Action S α) s := not_misfit_ok a

theorem ofExcept {answer : Except Fault α} (fits : ¬ Misfit answer) (s : S) :
    Fits (Action.ofExcept answer) s := by
  rwa [Fits, run_ofExcept]

theorem bind {next : α → Action S β} (first : Fits act s)
    (rest : ∀ a t, act.run s = (.ok a, t) → Fits (next a) t) : Fits (act >>= next) s := by
  rw [Fits, run_bind]
  rw [Fits] at first
  rcases ran : act.run s with ⟨answer, t⟩
  rw [ran] at first
  cases answer with
  | ok a => exact rest a t ran
  | error fault => exact not_misfit_error first

/-- A check leaves the state to what comes after it. -/
theorem after {answer : Except Fault α} {next : α → Action S β} (check : ¬ Misfit answer)
    (rest : ∀ a, Fits (next a) s) : Fits (Action.ofExcept answer >>= next) s := by
  refine .bind (.ofExcept check s) fun a t ran => ?_
  rw [run_ofExcept] at ran
  obtain ⟨-, rfl⟩ := Prod.mk.inj ran
  exact rest a

end Fits

end Action

namespace Store

open Chronicle.Action

theorem fits_lock (s : Store) : lock.Fits s := by
  rintro ⟨text, failed⟩
  rw [run_lock] at failed
  split at failed <;> cases failed

theorem fits_prepare (statement : Fragment) (nestsTooDeeply : Bool) (s : Store) :
    (prepare statement nestsTooDeeply).Fits s := by
  rintro ⟨text, failed⟩
  rw [run_prepare] at failed
  split at failed <;> cases failed

theorem fits_latest (type : String) (filter : Option Filter) (s : Store) :
    (latest type filter).Fits s := by
  refine .after (not_misfit_compileOptional filter) fun tests => ?_
  refine .bind (fits_lock s) fun _ s _ => ?_
  refine .bind (fits_prepare _ _ s) fun _ s _ => ?_
  refine .bind (not_misfit_ok s) fun t s _ => ?_
  cases t.tables.latest? type tests with
  | none => exact .bind (not_misfit_ok ()) fun _ s _ => .pure _ s
  | some row =>
    exact .after (not_misfit_readEvent row) fun _ =>
      .bind (not_misfit_ok ()) fun _ s _ => .pure _ s

theorem fits_streams (specs : List Stream) (after : Option EventId) (s : Store) :
    (streams specs after).Fits s := by
  refine .after (not_misfit_compile specs) fun selection => ?_
  split
  · exact .pure _ s
  · refine .bind (fits_lock s) fun _ s _ => ?_
    refine .bind (fits_prepare _ _ s) fun _ s _ => ?_
    refine .bind (not_misfit_ok s) fun t s _ => ?_
    refine .after (not_misfit_mapM not_misfit_readEvent _) fun _ => ?_
    exact .bind (not_misfit_ok ()) fun _ s _ => .pure _ s

theorem fits_getProjection (type id : String) (s : Store) : (getProjection type id).Fits s := by
  refine .bind (fits_lock s) fun _ s _ => ?_
  refine .bind (not_misfit_ok s) fun t s _ => ?_
  cases t.tables.projection? type id with
  | none => exact .pure _ s
  | some row => exact .after (not_misfit_readProjection row) fun _ => .pure _ s

/-- What is read as the last event of a type is an event of the log, read back. -/
theorem mem_of_latest {s t : Store} {log : List StoredEvent} (holds : s.tables.Holds log)
    {type : String} {filter : Option Filter} {event : StoredEvent}
    (answered : (latest type filter).run s = (.ok (some event), t)) :
    ∃ written ∈ log, event = written.reread := by
  rw [run_latest] at answered
  split at answered
  · simp at answered
  split at answered
  · simp at answered
  split at answered
  · simp at answered
  split at answered
  · simp at answered
  rename_i row found
  have inTable : row ∈ s.tables.events := List.mem_reverse.1 (List.mem_of_find?_eq_some found)
  rw [holds.rows] at inTable
  obtain ⟨written, inLog, rfl⟩ := List.mem_map.1 inTable
  rw [StoredEvent.read_row (holds.legible written inLog)] at answered
  simp only [Prod.mk.injEq, Except.ok.injEq, Option.some.injEq] at answered
  exact ⟨written, inLog, answered.1.symm⟩

end Store

/-! ## Events of a domain -/

section Domain

variable {E : Type} [DomainEvent E]

/-- The event table holds a log of events of the domain. -/
structure Store.HoldsOf (E : Type) [DomainEvent E] (s : Store) (log : List StoredEvent) : Prop where
  holds : s.tables.Holds log
  fits : ∀ event ∈ log, Draft.Fits E ⟨event.type, event.data⟩

/-- Something that is done to a store whose events are all written as events of
one domain: by a client, or by a validation runner, whatever that has read and
staged. Anything else leaves the event table. -/
inductive DomainStep (E : Type) [DomainEvent E] : Store → Store → Prop
  | write (s : Store) (w : Client.Write E) : DomainStep E s (w.perform s)
  | runner (s : Store) (r : ValidationRunner E) (c : ValidationRunner.Call E) :
    DomainStep E s (c.perform (r, s)).2
  | other {s t : Store} (same : t.tables.events = s.tables.events) : DomainStep E s t

/-- Any number of steps. -/
abbrev DomainSteps (E : Type) [DomainEvent E] : Store → Store → Prop :=
  Relation.ReflTransGen (DomainStep E)

/-- Calls of the store that do not ask for events to be written. -/
theorem DomainStep.call (s : Store) {c : Store.Call} (silent : c.appends = false) :
    DomainStep E s (c.perform s) :=
  .other ((Store.leaves_perform c s).1.events_eq silent)

/-- Projection runners of any domain, for any state. -/
theorem DomainStep.projection {D T : Type} [DomainEvent D] [ProjectedState T] (s : Store)
    (r : ProjectionRunner D T) (c : ProjectionRunner.Call D) :
    DomainStep E s (c.perform (r, s)).2 :=
  .other (ProjectionRunner.events_perform r s c)

theorem Store.holdsOf_new (now : Instant) : (new now).HoldsOf E [] := ⟨holds_new now, by simp⟩

theorem DomainStep.grows {s t : Store} (step : DomainStep E s t) :
    Store.Grows (Draft.Fits E) s t := by
  cases step with
  | write w => exact w.grows_perform s
  | runner r c => exact ValidationRunner.grows_perform r s c
  | other same => exact Store.grows_of_events same

/-- A step adds events of the domain. -/
theorem DomainStep.sound {s t : Store} {log : List StoredEvent} (step : DomainStep E s t)
    (sound : s.HoldsOf E log) : ∃ more, t.HoldsOf E (log ++ more) := by
  obtain ⟨more, holds, fits⟩ := step.grows.holds sound.holds
  exact ⟨more, holds, List.forall_mem_append.2 ⟨sound.fits, fits⟩⟩

theorem DomainSteps.sound {now : Instant} {s : Store} (run : DomainSteps E (Store.new now) s) :
    s.HoldsOf E s.tables.log := by
  suffices ∃ log, s.HoldsOf E log by
    obtain ⟨log, sound⟩ := this
    rwa [sound.holds.log_eq]
  induction run with
  | refl => exact ⟨[], Store.holdsOf_new now⟩
  | tail _ step ih =>
    obtain ⟨log, sound⟩ := ih
    obtain ⟨more, grown⟩ := step.sound sound
    exact ⟨log ++ more, grown⟩

/-! ## Reading events of a domain -/

/-- The event table holds a log, and what is read back of it are events of the domain. -/
structure Store.ReadsOf (E : Type) [DomainEvent E] (s : Store) (log : List StoredEvent) : Prop where
  holds : s.tables.Holds log
  fits : ∀ event ∈ log, Draft.Fits E ⟨event.type, event.data.reread⟩

/-- Where payloads are read back as they were written, so are events of the domain. -/
theorem Store.HoldsOf.reads {s : Store} {log : List StoredEvent} (sound : s.HoldsOf E log)
    (exact : ∀ event ∈ log, event.data.reread = event.data) : s.ReadsOf E log :=
  ⟨sound.holds, fun event present => (exact event present).symm ▸ sound.fits event present⟩

section Reading

variable {s : Store} {log : List StoredEvent}

theorem Client.fits_latest (sound : s.ReadsOf E log) (type : String) (filter : Option Filter) :
    (Client.latest E type filter).Fits s := by
  refine .after (not_misfit_validateOptional filter) fun _ => ?_
  refine .bind (Store.fits_latest type filter s) fun found t answered => ?_
  cases found with
  | none => exact .pure _ t
  | some row =>
    obtain ⟨written, inLog, rfl⟩ := Store.mem_of_latest sound.holds answered
    obtain ⟨recorded, decoded⟩ :=
      decode_of_fits written.reread (sound.fits written inLog)
    refine .after ?_ fun _ => .pure _ t
    rw [decoded]
    exact not_misfit_ok recorded

theorem Client.fits_streams (sound : s.ReadsOf E log) (specs : List Stream)
    (after : Option EventId) : (Client.streams E specs after).Fits s := by
  refine .after (not_misfit_checkStreams specs) fun _ => ?_
  refine .bind (Store.fits_streams specs after s) fun rows t answered => ?_
  obtain ⟨rfl, -⟩ := Store.run_streams_eq_ok sound.holds answered
  obtain ⟨recorded, decoded⟩ := readAll_of_fits (E := E) fun row present =>
    sound.fits row (List.mem_filter.1 present).1
  refine .ofExcept ?_ t
  rw [readAll] at decoded
  rw [decoded]
  exact not_misfit_ok recorded

theorem ValidationRunner.fits_events (sound : s.ReadsOf E log) (r : ValidationRunner E) :
    events.Fits (r, s) := by
  have read := Client.fits_streams sound r.validator.streams none
  unfold Action.Fits at read ⊢
  rw [run_events]
  split
  · exact not_misfit_ok _
  rcases ran : (Client.streams E r.validator.streams none).run s with ⟨answer, t⟩
  rw [ran] at read
  cases answer with
  | ok recorded => exact not_misfit_ok _
  | error fault => exact not_misfit_error read

theorem Store.ReadsOf.of_content {t : Store} (sound : s.ReadsOf E log)
    (same : t.content = s.content) : t.ReadsOf E log :=
  ⟨sound.holds.of_events (congrArg (·.1.events) same), sound.fits⟩

section Projections

variable {T : Type} [ProjectedState T]

/-- The stored projection with a key is not of the state that it is read as. -/
def Store.Misplaced (T : Type) [ProjectedState T] (s : Store) (type id text : String) : Prop :=
  ∃ row, ((getProjection type id).run s).1 = .ok (some row) ∧
    (Snapshot.decode row : Except Fault (Snapshot T)) = .error (.validation text)

theorem Client.getProjection_misfit (type id text : String) (s : Store) :
    ((Client.getProjection T type id).run s).1 = .error (.validation text) ↔
      s.Misplaced T type id text := by
  have fits := Store.fits_getProjection type id s
  rw [Action.Fits] at fits
  rw [run_getProjection, Store.Misplaced]
  rcases ran : (Store.getProjection type id).run s with ⟨answer, t⟩
  rw [ran] at fits
  cases answer with
  | error fault => simp [not_validation fits]
  | ok found =>
    cases found with
    | none => simp
    | some row =>
      cases decoded : (Snapshot.decode row : Except Fault (Snapshot T)) <;>
        simp [decoded, Except.map]

variable (r : ProjectionRunner E T)

omit [DomainEvent E] in
theorem ProjectionRunner.existing_misfit (text : String) :
    (existing.run (r, s)).1 = .error (.validation text) ↔
      r.snapshot = none ∧ r.options.loadExisting ∧
        s.Misplaced T r.projection.type r.projection.id text := by
  have found := Client.getProjection_misfit (T := T) r.projection.type r.projection.id text s
  rw [run_existing, ← found]
  cases r.snapshot with
  | some snapshot => simp
  | none =>
    cases r.options.loadExisting with
    | false => simp
    | true =>
      rcases (Client.getProjection T r.projection.type r.projection.id).run s with ⟨answer, t⟩
      cases answer <;> simp

/-- Only the snapshot that a projection runner resumes from can be of the wrong shape. -/
theorem ProjectionRunner.events_misfit (sound : s.ReadsOf E log) (text : String) :
    (events.run (r, s)).1 = .error (.validation text) ↔
      r.history.fetched = none ∧ r.snapshot = none ∧ r.options.loadExisting ∧
        s.Misplaced T r.projection.type r.projection.id text := by
  rw [run_events, ← existing_misfit]
  cases r.history.fetched with
  | some recorded => simp
  | none =>
    have kept := content_resumeAfter r s
    have resumed := congrArg Prod.fst (run_resumeAfter r s)
    rcases ran : resumeAfter.run (r, s) with ⟨answer, r₁, s₁⟩
    rw [ran] at kept resumed
    cases answer with
    | error fault =>
      cases found : (existing.run (r, s)).1 with
      | error other =>
        obtain rfl : fault = other := by simpa [found, Except.map] using resumed
        simp
      | ok snapshot => simp [found, Except.map] at resumed
    | ok floor =>
      have fits := Client.fits_streams (sound.of_content kept) r₁.projection.streams floor
      rw [Action.Fits] at fits
      have loaded : (existing.run (r, s)).1 ≠ .error (.validation text) := fun failed => by
        simp [failed, Except.map] at resumed
      rcases read : (Client.streams E r₁.projection.streams floor).run s₁ with ⟨answer, t⟩
      rw [read] at fits
      cases answer with
      | ok recorded => simp [loaded, read]
      | error fault => simp [loaded, read, not_validation fits]

end Projections

end Reading

/-- Where all events are written as events of one domain, whatever fails or is
done besides, the event table holds a log, every event of which decodes. While their
payloads are read back as they were written, reads of the domain do not fail with a
validation fault, except that a projection runner does so when it has read nothing,
loads what exists and finds a projection that is not of its state. -/
theorem domain_reads_fit {now : Instant} {s : Store} (run : DomainSteps E (Store.new now) s)
    (exact : ∀ event ∈ s.tables.log, event.data.reread = event.data) :
    s.tables.events = s.tables.log.map StoredEvent.row ∧
      (∀ event ∈ s.tables.log, ∃ recorded : Recorded E, Recorded.decode event = .ok recorded) ∧
      (∀ type filter, ¬ Misfit ((Client.latest E type filter).run s).1) ∧
      (∀ specs after, ¬ Misfit ((Client.streams E specs after).run s).1) ∧
      (∀ spec after, ¬ Misfit ((Client.stream E spec after).run s).1) ∧
      (∀ r : ValidationRunner E, ¬ Misfit (ValidationRunner.events.run (r, s)).1) ∧
      ∀ (T : Type) [ProjectedState T] (r : ProjectionRunner E T) (text : String),
        (ProjectionRunner.events.run (r, s)).1 = .error (.validation text) ↔
          r.history.fetched = none ∧ r.snapshot = none ∧ r.options.loadExisting ∧
            s.Misplaced T r.projection.type r.projection.id text := by
  have sound := run.sound
  have reads := sound.reads exact
  exact ⟨sound.holds.rows,
    fun event present => Client.decode_of_fits event (sound.fits event present),
    Client.fits_latest reads, Client.fits_streams reads,
    fun spec => Client.fits_streams reads [spec], ValidationRunner.fits_events reads,
    fun T _ r => ProjectionRunner.events_misfit r reads⟩

end Domain

open Sample in
/-- One event was refused and one was written. -/
def probed : Store :=
  (Client.Write.append (Probe.note "a")).perform
    ((Client.Write.append Probe.ping).perform (Store.new default))

open Sample in
/-- The log has what was written, and is read without a fault of shape. -/
theorem domain_reads_fit_probed :
    DomainSteps Probe (Store.new default) probed ∧
      probed.tables.log.map StoredEvent.type = ["NOTE"] ∧
      ∀ specs after, ¬ Misfit ((Client.streams Probe specs after).run probed).1 := by
  have run : DomainSteps Probe (Store.new default) probed :=
    .tail (.single (.write _ (.append Probe.ping))) (.write _ (.append (Probe.note "a")))
  have written : probed.tables.log = [⟨1, "NOTE", .string "a", default, default⟩] := rfl
  have exact : ∀ event ∈ probed.tables.log, event.data.reread = event.data := by
    simp [written, Json.reread]
  exact ⟨run, rfl, (domain_reads_fit run exact).2.2.2.1⟩

/-- An event was written, and then an object as the projection of a list. -/
def misplaced : Store :=
  (Store.Call.saveProjection "ticks" "c1" (.object []) 1).perform
    ((Client.Write.append (⟨"T", .null⟩ : Draft)).perform (Store.new default))

/-- A runner that collects a list, and starts from what is stored. -/
def collector : ProjectionRunner Draft (List Json) :=
  .ofProjection (Sample.collect "ticks" "c1" [plainStream] "n" none) ⟨true⟩

/-- It fails to load, although all events were written as events of the domain. -/
theorem misplaced_misfits :
    DomainSteps Draft (Store.new default) misplaced ∧
      Misfit (ProjectionRunner.events.run (collector, misplaced)).1 :=
  ⟨.tail (.single (.write _ (.append _))) (.call _ rfl), _, rfl⟩

end Chronicle
