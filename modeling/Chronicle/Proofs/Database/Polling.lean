import Chronicle.Proofs.Database.Order

/-!
# Polling

A consumer of some streams asks again and again for what comes after the last
event that it was given (`Consumer.poll`), while anyone does anything on its
connection or on others. At every moment it has been given the events of the
streams up to its cursor, as they are read back, in order and each once, and after a
poll that is answered these are all events of the streams (`Consumer.polling_exact`).

A poll is answered unless a holder of the lock has crashed or the read cannot be
prepared. With a cursor the read takes one parameter more than without, so there
are streams that can be read but not followed (`Consumer.wide_poll_fails`).
-/

namespace Chronicle

/-- A reader of some streams: the id of the last event that it was given, and all
events that it was given. -/
structure Consumer where
  cursor : Option EventId
  received : List StoredEvent

namespace Consumer

def start : Consumer := ⟨none, []⟩

/-- Receive an answer. The cursor moves to the last event in it and stays when there
is none. -/
def receive (c : Consumer) (events : List StoredEvent) : Consumer :=
  ⟨(events.getLast?.map StoredEvent.id).or c.cursor, c.received ++ events⟩

/-- Ask for what comes after the cursor. A poll that fails changes nothing. -/
def poll (specs : List Stream) : Action (Consumer × Store) (List StoredEvent) := do
  let (c, _) ← get
  let events ← Action.onSecond (Store.streams specs c.cursor)
  modify fun (c, s) => (c.receive events, s)
  return events

theorem run_poll (specs : List Stream) (c : Consumer) (s : Store) :
    (poll specs).run (c, s) =
      match (Store.streams specs c.cursor).run s with
      | (.ok events, t) => (.ok events, c.receive events, t)
      | (.error fault, t) => (.error fault, c, t) := by
  unfold poll
  simp only [Action.run_bind, Action.run_get, Action.run_onSecond]
  rcases ran : (Store.streams specs c.cursor).run s with ⟨answer, t⟩
  cases answer <;> simp

/-! ## What has been received -/

/-- The last id that the consumer has seen. -/
def seen (c : Consumer) : EventId := c.cursor.getD noEvent

/-- The events of the streams after the cursor. -/
def pending (c : Consumer) (specs : List Stream) (log : List StoredEvent) : List StoredEvent :=
  log.filter fun event => event.isOf specs && c.cursor.all (· < event.id)

/-- The consumer has been given what is read back of the streams up to its cursor, which
is within the log. -/
structure Exact (c : Consumer) (specs : List Stream) (log : List StoredEvent) : Prop where
  received : c.received = (stretch specs noEvent c.seen log).map StoredEvent.reread
  positive : noEvent ≤ c.seen
  reached : c.seen ≤ log.length

namespace Exact

variable {c : Consumer} {specs : List Stream} {log more : List StoredEvent}

theorem start (specs : List Stream) : Consumer.start.Exact specs [] :=
  ⟨rfl, Int.le_refl _, Int.le_refl _⟩

/-- What is written later comes after the cursor. -/
theorem grow (exact : c.Exact specs log) (numbered : Consecutive noEvent (log ++ more)) :
    c.Exact specs (log ++ more) where
  received := by
    rw [exact.received, stretch_grow numbered exact.reached]
  positive := exact.positive
  reached := by
    have reached := exact.reached
    rw [List.length_append]
    lia

/-- What has been received, in the words of the cursor. -/
theorem received_eq (exact : c.Exact specs log) (numbered : Consecutive noEvent log) :
    c.received = (log.filter fun event => event.isOf specs && c.cursor.any (event.id ≤ ·)).map
      StoredEvent.reread := by
  rw [exact.received]
  refine congrArg _ (List.filter_congr fun event present => ?_)
  have positive : noEvent < event.id := (numbered.bounds present).1
  cases given : c.cursor with
  | none =>
    have unseen : ¬ event.id ≤ noEvent := Int.not_le.2 positive
    simp [seen, given, unseen]
  | some cursor => simp [seen, given, positive]

/-- With what is pending the consumer has all events of the streams. -/
theorem received_append_pending (exact : c.Exact specs log) (numbered : Consecutive noEvent log) :
    c.received ++ (c.pending specs log).map StoredEvent.reread =
      (log.filter (StoredEvent.isOf specs)).map StoredEvent.reread := by
  have after : c.pending specs log = stretch specs c.seen log.length log :=
    filter_after numbered c.cursor
  have all : log.filter (StoredEvent.isOf specs) = stretch specs noEvent log.length log := by
    have whole : (log.filter fun event => event.isOf specs && none.all (· < event.id)) = _ :=
      filter_after numbered none
    simpa using whole
  rw [after, exact.received, all, stretch_split numbered.pairwise exact.positive exact.reached,
    List.map_append]

/-- Receiving what is pending moves the cursor to the last of it, and after that the
streams have nothing. -/
theorem receive (exact : c.Exact specs log) (numbered : Consecutive noEvent log) :
    (c.receive ((c.pending specs log).map StoredEvent.reread)).Exact specs log := by
  have after : c.pending specs log = stretch specs c.seen log.length log :=
    filter_after numbered c.cursor
  cases ends : (c.pending specs log).getLast? with
  | none =>
    -- Nothing is pending, and the consumer stays as it is.
    have same : c.receive ((c.pending specs log).map StoredEvent.reread) = c := by
      simp [Consumer.receive, List.getLast?_eq_none_iff.1 ends]
    rwa [same]
  | some last =>
    have moved : (c.receive ((c.pending specs log).map StoredEvent.reread)).seen = last.id := by
      simp [Consumer.receive, seen, ends]
    rw [after] at ends
    obtain ⟨above, upTo, -, same⟩ := stretch_after_last numbered.pairwise ends
    refine ⟨?_, ?_, ?_⟩
    · rw [moved, stretch_split numbered.pairwise exact.positive (Int.le_of_lt above), same,
        List.map_append, ← exact.received, ← after]
      rfl
    · rw [moved]
      exact Int.le_trans exact.positive (Int.le_of_lt above)
    · rw [moved]
      exact upTo

end Exact

/-! ## Polls -/

section Polls

variable {c : Consumer} {s : Store} {specs : List Stream} {log : List StoredEvent}

theorem run_poll_of_holds (holds : s.tables.Holds log) (sound : s.poisoned = false)
    (compiled : Selection.compile specs = .ok (.ofStreams specs))
    (prepared : specs ≠ [] → Statement.canSelect (.ofStreams specs) c.cursor) :
    ∃ metrics, (poll specs).run (c, s) =
      (.ok ((c.pending specs log).map StoredEvent.reread),
        c.receive ((c.pending specs log).map StoredEvent.reread),
        { s with metrics := metrics }) := by
  obtain ⟨metrics, ran⟩ := Store.run_streams_of_holds holds sound compiled prepared
  exact ⟨metrics, by rw [run_poll, ran, pending]⟩

/-- A poll that is answered gives what is pending, as it is read back. -/
theorem poll_eq_ok (holds : s.tables.Holds log) {events : List StoredEvent}
    {after : Consumer × Store} (answered : (poll specs).run (c, s) = (.ok events, after)) :
    events = (c.pending specs log).map StoredEvent.reread ∧ after.1 = c.receive events ∧
      Selection.compile specs = .ok (.ofStreams specs) ∧
      (specs ≠ [] → Statement.canSelect (.ofStreams specs) c.cursor) := by
  rw [run_poll] at answered
  rcases ran : (Store.streams specs c.cursor).run s with ⟨answer, t⟩
  rw [ran] at answered
  cases answer with
  | error fault => simp at answered
  | ok given =>
    simp only [Prod.mk.injEq, Except.ok.injEq] at answered
    obtain ⟨rfl, rfl⟩ := answered
    obtain ⟨same, -, -, -, compiled, prepared⟩ := Store.run_streams_eq_ok holds ran
    exact ⟨same, rfl, compiled, prepared⟩

theorem content_poll : ((poll specs).run (c, s)).2.2.content = s.content := by
  have kept := Store.keeps_streams specs c.cursor s
  rw [run_poll]
  rcases ran : (Store.streams specs c.cursor).run s with ⟨answer, t⟩
  rw [ran] at kept
  cases answer <;> exact kept

/-- A poll that fails leaves the consumer as it was. -/
theorem poll_eq_error {fault : Fault} (failed : ((poll specs).run (c, s)).1 = .error fault) :
    ((poll specs).run (c, s)).2.1 = c := by
  rw [run_poll] at failed ⊢
  rcases ran : (Store.streams specs c.cursor).run s with ⟨answer, t⟩
  rw [ran] at failed
  cases answer with
  | error flaw => rfl
  | ok given => simp at failed

/-- Polls of no streams are always answered, others when the read can be done. -/
theorem poll_answered_iff (holds : s.tables.Holds log) (valid : ∀ spec ∈ specs, spec.Valid) :
    (∃ events, ((poll specs).run (c, s)).1 = .ok events) ↔
      specs = [] ∨ s.poisoned = false ∧ Statement.canSelect (.ofStreams specs) c.cursor := by
  have compiled := Selection.compile_of_valid valid
  constructor
  · rintro ⟨events, answered⟩
    obtain ⟨-, -, -, prepared⟩ := poll_eq_ok holds (Prod.ext answered rfl)
    by_cases none : specs = []
    · exact .inl none
    refine .inr ⟨?_, prepared none⟩
    cases poisoned : s.poisoned with
    | false => rfl
    | true =>
      rw [run_poll, Store.run_streams, compiled] at answered
      simp [none, poisoned] at answered
  · rintro (rfl | ⟨sound, can⟩)
    · exact ⟨[], by rw [run_poll, Store.run_streams, compiled]; simp⟩
    · obtain ⟨metrics, ran⟩ := run_poll_of_holds holds sound compiled fun _ => can
      exact ⟨_, congrArg Prod.fst ran⟩

end Polls

/-! ## Runs -/

/-- The consumer polls; or something is asked for on its connection or on another
one, whose lock may be broken; or time passes. -/
inductive Step (specs : List Stream) : Consumer × Store → Consumer × Store → Prop
  | polls (c : Consumer) (s : Store) : Step specs (c, s) ((poll specs).run (c, s)).2
  | here (c : Consumer) (s : Store) {f : Store → Store} (asked : Operation f) :
    Step specs (c, s) (c, f s)
  | elsewhere (c : Consumer) (s : Store) {f : Store → Store} (asked : Operation f)
    (poisoned : Bool) :
    Step specs (c, s) (c, { s with tables := (f { s with poisoned := poisoned }).tables })
  | meanwhile (c : Consumer) (s : Store) (now : Instant) (metrics : Metrics) :
    Step specs (c, s) (c, { s with now := now, metrics := metrics })

/-- Any number of steps. -/
abbrev Steps (specs : List Stream) : Consumer × Store → Consumer × Store → Prop :=
  Relation.ReflTransGen (Step specs)

section Runs

variable {specs : List Stream} {c : Consumer} {s : Store} {log : List StoredEvent}

theorem exact_poll (exact : c.Exact specs log) (holds : s.tables.Holds log) :
    ((poll specs).run (c, s)).2.1.Exact specs log := by
  cases ran : ((poll specs).run (c, s)).1 with
  | error fault => rwa [poll_eq_error ran]
  | ok events =>
    obtain ⟨rfl, after, -⟩ := poll_eq_ok holds (Prod.ext ran rfl)
    rw [after]
    exact exact.receive holds.numbered

/-- A step adds events at the end of the log and keeps the consumer exact. -/
theorem Step.exact {w w' : Consumer × Store} (step : Step specs w w')
    (holds : w.2.tables.Holds log) (exact : w.1.Exact specs log) :
    ∃ more, w'.2.tables.Holds (log ++ more) ∧ w'.1.Exact specs (log ++ more) := by
  cases step with
  | polls c s =>
    have kept : ((poll specs).run (c, s)).2.2.tables = s.tables := congrArg Prod.fst content_poll
    refine ⟨[], ?_⟩
    rw [List.append_nil, kept]
    exact ⟨holds, exact_poll exact holds⟩
  | here c s asked =>
    obtain ⟨more, grown⟩ := asked.extends holds
    exact ⟨more, grown, exact.grow grown.numbered⟩
  | elsewhere c s asked poisoned =>
    obtain ⟨more, grown⟩ := asked.extends (s := { s with poisoned := poisoned }) holds
    exact ⟨more, grown, exact.grow grown.numbered⟩
  | meanwhile => exact ⟨[], by simpa using ⟨holds, exact⟩⟩

theorem Steps.exact {now : Instant} {w : Consumer × Store}
    (run : Steps specs (start, Store.new now) w) :
    w.2.tables.Holds w.2.tables.log ∧ w.1.Exact specs w.2.tables.log := by
  suffices ∃ log, w.2.tables.Holds log ∧ w.1.Exact specs log by
    obtain ⟨log, holds, exact⟩ := this
    rw [holds.log_eq]
    exact ⟨holds, exact⟩
  induction run with
  | refl => exact ⟨[], Store.holds_new now, .start specs⟩
  | tail _ step ih =>
    obtain ⟨log, holds, exact⟩ := ih
    obtain ⟨more, grown⟩ := step.exact holds exact
    exact ⟨log ++ more, grown⟩

/-- A consumer of valid streams that polls a store, which was new, any number of
times, with anything done in between on its connection or on others.

What it has received are the events of the streams that the log has up to its
cursor, as they are read back, in the order of their ids and each once. A poll is answered
exactly when no holder of the lock has crashed and the read after the cursor can be prepared,
or there are no streams to read. One that fails changes nothing. One that is answered
adds its answer to what was received, and as long as nothing is appended that is
what a read of the streams from the start gives. -/
theorem polling_exact {now : Instant} (run : Steps specs (start, Store.new now) (c, s))
    (valid : ∀ spec ∈ specs, spec.Valid) :
    let answer := ((poll specs).run (c, s)).1
    let after := ((poll specs).run (c, s)).2
    s.tables.events = s.tables.log.map StoredEvent.row ∧
    c.received = (s.tables.log.filter fun event =>
      event.isOf specs && c.cursor.any (event.id ≤ ·)).map StoredEvent.reread ∧
    c.received.Pairwise (·.id < ·.id) ∧
    ((∃ events, answer = .ok events) ↔
      specs = [] ∨ s.poisoned = false ∧ Statement.canSelect (.ofStreams specs) c.cursor) ∧
    (∀ fault, answer = .error fault → after.1 = c) ∧
    ∀ events, answer = .ok events →
      after.1.received = c.received ++ events ∧
      ∀ later : Store, later.tables.events = after.2.tables.events → later.poisoned = false →
        ((Store.streams specs none).run later).1 = .ok after.1.received := by
  intro answer after
  obtain ⟨holds, exact⟩ := run.exact
  have received := exact.received_eq holds.numbered
  refine ⟨holds.rows, received, ?_, poll_answered_iff holds valid, fun _ => poll_eq_error,
    fun events answered => ?_⟩
  · rw [received, List.pairwise_map]
    exact holds.numbered.pairwise.filter _
  obtain ⟨rfl, moved, compiled, prepared⟩ := poll_eq_ok holds (Prod.ext answered rfl)
  have taken : after.1.received =
      c.received ++ (c.pending specs s.tables.log).map StoredEvent.reread :=
    congrArg Consumer.received moved
  refine ⟨taken, fun later same sound => ?_⟩
  have holdsLater : later.tables.Holds s.tables.log := by
    have tables : after.2.tables = s.tables := congrArg Prod.fst content_poll
    exact holds.of_events (same.trans (congrArg Tables.events tables))
  -- The poll was prepared, and without a floor there is less to prepare.
  have whole (some_specs : specs ≠ []) : Statement.canSelect (.ofStreams specs) none := by
    have can := prepared some_specs
    cases given : c.cursor with
    | none => rwa [given] at can
    | some floor =>
      rw [given, Statement.canSelect_iff] at can
      exact (Statement.canSelect_iff _ _).2 ⟨can.1, Statement.selectFits_of_floor can.2⟩
  obtain ⟨metrics, read⟩ := Store.run_streams_of_holds holdsLater sound compiled whole
  rw [read, taken, exact.received_append_pending holds.numbered]
  simp

end Runs

/-! ## Two events, one poll between them -/

/-- The event that is appended each time. -/
def tick (id : EventId) : StoredEvent := ⟨id, "T", .null, default, default⟩

/-- A consumer that polled after one event was appended. -/
def polledOnce (specs : List Stream) : Consumer × Store :=
  ((poll specs).run (start, Store.afterOne)).2

/-- After its poll another event was appended. -/
def behindByOne (specs : List Stream) : Consumer × Store :=
  ((polledOnce specs).1, Store.Call.perform (polledOnce specs).2 (.appendBatch [⟨"T", .null⟩]))

section Two

variable {specs : List Stream}

theorem steps_behindByOne (specs : List Stream) :
    Steps specs (start, Store.new default) (behindByOne specs) :=
  .tail (.tail (.single (.here _ _ (.store (.appendBatch [⟨"T", .null⟩])))) (.polls _ _))
    (.here _ _ (.store (.appendBatch [⟨"T", .null⟩])))

theorem behindByOne_spec (valid : ∀ spec ∈ specs, spec.Valid)
    (prepared : specs ≠ [] → Statement.canSelect (.ofStreams specs) none)
    (belongs : specs.any (·.has "T" .null)) :
    (behindByOne specs).1 = ⟨some 1, [tick 1]⟩ ∧
      (behindByOne specs).2.tables.Holds [tick 1, tick 2] ∧
      (behindByOne specs).2.poisoned = false := by
  have holds : Store.afterOne.tables.Holds [tick 1] := Store.afterOne_reachable.holds
  have first : start.pending specs [tick 1] = [tick 1] := by
    simp [pending, start, StoredEvent.isOf, tick, belongs]
  obtain ⟨metrics, ran⟩ := run_poll_of_holds (c := start) holds rfl
    (Selection.compile_of_valid valid) prepared
  have polled : polledOnce specs =
      (⟨some 1, [tick 1]⟩, { Store.afterOne with metrics := metrics }) := by
    rw [polledOnce, ran, first]
    rfl
  rw [behindByOne, polled]
  refine ⟨rfl, ⟨rfl, ⟨rfl, rfl, trivial⟩, ?_⟩, rfl⟩
  simp [tick, Json.Legible, Json.depth]

end Two

/-- The consumer catches up with the second event, and has each once. -/
theorem polling_exact_two :
    let after := ((poll [plainStream]).run (behindByOne [plainStream])).2
    after.1.received = [tick 1, tick 2] ∧
      ((Store.streams [plainStream] none).run after.2).1 = .ok [tick 1, tick 2] := by
  have run := steps_behindByOne [plainStream]
  obtain ⟨consumer, holds, sound⟩ := behindByOne_spec plainStream_valid
    (fun _ => canSelect_plainStream none) (by simp [has_plainStream])
  generalize behindByOne [plainStream] = w at run consumer holds sound ⊢
  obtain ⟨c, s⟩ := w
  obtain rfl : c = ⟨some 1, [tick 1]⟩ := consumer
  obtain ⟨-, -, -, answered, -, received⟩ := polling_exact run plainStream_valid
  obtain ⟨events, given⟩ := answered.2 (.inr ⟨sound, canSelect_plainStream _⟩)
  obtain ⟨taken, whole⟩ := received events given
  have later : events = [tick 2] := by
    obtain ⟨rfl, -⟩ := poll_eq_ok holds (Prod.ext given rfl)
    simp [pending, StoredEvent.isOf, StoredEvent.reread, tick, has_plainStream]
  have kept : ((poll [plainStream]).run (⟨some 1, [tick 1]⟩, s)).2.2.poisoned = s.poisoned :=
    congrArg (·.2.1) content_poll
  subst later
  exact ⟨taken, (whole _ rfl (kept.trans sound)).trans (congrArg Except.ok taken)⟩

/-- Streams at the limit of parameters are polled once and then no more: the second
event is in the log and is never received. -/
theorem wide_poll_fails :
    Steps [wideStream] (start, Store.new default) (behindByOne [wideStream]) ∧
      (∀ spec ∈ [wideStream], spec.Valid) ∧
      let answer := ((poll [wideStream]).run (behindByOne [wideStream])).1
      let after := ((poll [wideStream]).run (behindByOne [wideStream])).2
      answer = .error (.storage "statement cannot be prepared") ∧
        after.1.received = [tick 1] ∧
        ((Store.streams [wideStream] none).run after.2).1 = .ok [tick 1, tick 2] := by
  obtain ⟨consumer, holds, sound⟩ := behindByOne_spec wideStream_valid
    (fun _ => (canSelect_wideStream none).2 rfl) (by simp [has_wideStream])
  have compiled := Selection.compile_of_valid wideStream_valid
  have refused : ¬ Statement.canSelect (.ofStreams [wideStream]) (some 1) := fun can => by
    cases (canSelect_wideStream (some 1)).1 can
  have ran : (poll [wideStream]).run (behindByOne [wideStream]) =
      (.error (.storage "statement cannot be prepared"), behindByOne [wideStream]) := by
    rcases at_hand : behindByOne [wideStream] with ⟨c, s⟩
    rw [at_hand] at consumer sound
    obtain rfl := consumer
    have failed := Store.run_streams_of_refused (s := s) compiled (List.cons_ne_nil _ _) refused
    rw [run_poll, failed, sound]
    rfl
  refine ⟨steps_behindByOne _, wideStream_valid, ?_⟩
  dsimp only
  rw [ran]
  refine ⟨rfl, by rw [consumer], ?_⟩
  obtain ⟨metrics, read⟩ := Store.run_streams_of_holds holds sound compiled
    fun _ => (canSelect_wideStream none).2 rfl
  rw [read]
  simp [StoredEvent.isOf, StoredEvent.reread, tick, has_wideStream]

end Consumer

end Chronicle
