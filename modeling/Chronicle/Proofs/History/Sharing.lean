import Chronicle.History.Flight
import Chronicle.History.Load
import Mathlib.Data.List.Basic
import Mathlib.Data.List.Induction

/-!
# Loads that share a fetch

A course lists what happens to a new history: loads begin, fetches end, events are
staged, and what was fetched is forgotten. Any number of loads may be under way, and
anything may happen while a fetch is; but a history is changed only while no load is
under way (`Flight.Course`).

Each moment is accounted for by what it answers (`Flight.Answers`), and a course by
what it leaves (`Flight.Tracks`). From these, loads share a fetch
(`Flight.loads_share_fetch`): of the fetches since the last one that was forgotten one
at most has succeeded, and none starts after it; all loads that succeed have what it
gave, and one fails only with its own fetch; no load is forgotten, and staged events
stay.
-/

namespace Chronicle

/-- What happens to a history: a load begins, the fetch of a load ends, an event is
staged, or what was fetched is forgotten. -/
inductive Moment (E : Type) where
  | load (n : Nat)
  | settle (n : Nat) (result : Except Fault (List (Recorded E)))
  | stage (event : E)
  | invalidate

namespace Moment

variable {E : Type}

/-- The load that begins. -/
def load? : Moment E → Option Nat
  | load n => some n
  | _ => none

/-- The event that is staged. -/
def stage? : Moment E → Option E
  | stage event => some event
  | _ => none

/-- A fetch ends and has succeeded. -/
def succeeds : Moment E → Bool
  | settle _ (.ok _) => true
  | _ => false

end Moment

namespace Flight

variable {E : Type}

/-! ## Courses -/

/-- The flight after a moment. -/
def after (f : Flight E) : Moment E → Flight E
  | .load n => f.enter n
  | .settle _ result => f.complete result
  | .stage event => { f with history := f.history.stage event }
  | .invalidate => { f with history := f.history.invalidate }

/-- The events staged in some moments, in order. -/
def stagedIn (ms : List (Moment E)) : List E := ms.filterMap Moment.stage?

/-- The loads that began in some moments, in order. -/
def loadsIn (ms : List (Moment E)) : List Nat := ms.filterMap Moment.load?

@[simp]
theorem stagedIn_concat (ms : List (Moment E)) (m : Moment E) :
    stagedIn (ms ++ [m]) = stagedIn ms ++ m.stage?.toList := by
  cases staged : m.stage? <;> simp [stagedIn, staged]

@[simp]
theorem loadsIn_concat (ms : List (Moment E)) (m : Moment E) :
    loadsIn (ms ++ [m]) = loadsIn ms ++ m.load?.toList := by
  cases began : m.load? <;> simp [loadsIn, began]

/-- A new history after some moments. -/
def ofMoments (ms : List (Moment E)) : Flight E := ms.foldl after (idle .empty)

/-- No load is under way. -/
def IsQuiet (f : Flight E) : Prop := f.fetching = none ∧ f.waiting = []

/-- What can happen next: a load with a number of its own begins, the fetch under way
ends, or the history is changed while no load is under way. -/
def Admits (ms : List (Moment E)) : Moment E → Prop
  | .load n => n ∉ loadsIn ms
  | .settle n _ => (ofMoments ms).fetching = some n
  | .stage _ | .invalidate => (ofMoments ms).IsQuiet

/-- Moments that can follow each other from a new history on. -/
inductive Course : List (Moment E) → Prop
  | nil : Course []
  | snoc {ms : List (Moment E)} {m : Moment E} (course : Course ms) (admits : Admits ms m) :
    Course (ms ++ [m])

variable {f : Flight E} {ms front since : List (Moment E)} {m : Moment E} {n : Nat}
  {recorded : List (Recorded E)}

@[simp]
theorem ofMoments_concat (ms : List (Moment E)) (m : Moment E) :
    ofMoments (ms ++ [m]) = (ofMoments ms).after m := by
  simp [ofMoments]

theorem course_concat : Course (ms ++ [m]) ↔ Course ms ∧ Admits ms m := by
  constructor
  · intro course
    generalize grown : ms ++ [m] = all at course
    cases course with
    | nil => simp at grown
    | snoc course admits =>
      obtain ⟨rfl, same⟩ := List.append_inj' grown rfl
      obtain rfl := List.singleton_inj.1 same
      exact ⟨course, admits⟩
  · exact fun ⟨course, admits⟩ => course.snoc admits

theorem Course.of_append (course : Course (front ++ since)) : Course front := by
  induction since using List.reverseRecOn with
  | nil => rwa [List.append_nil] at course
  | append_singleton since m ih =>
    rw [← List.append_assoc, course_concat] at course
    exact ih course.1

theorem Course.admits_of_append (course : Course (front ++ m :: since)) : Admits front m := by
  rw [List.append_cons] at course
  exact (course_concat.1 course.of_append).2

theorem course_iff :
    Course ms ↔ ∀ n (within : n < ms.length), Admits (ms.take n) ms[n] := by
  constructor
  · intro course n within
    rw [← List.take_append_drop n ms, List.drop_eq_getElem_cons within] at course
    exact course.admits_of_append
  · intro all
    induction ms using List.reverseRecOn with
    | nil => exact .nil
    | append_singleton ms m ih =>
      have last := all ms.length (by simp)
      rw [List.take_left, List.getElem_concat_length rfl] at last
      refine (ih fun n within => ?_).snoc last
      have earlier := all n (by rw [List.length_append]; exact Nat.lt_add_right 1 within)
      rwa [List.take_append_of_le_length (Nat.le_of_lt within),
        List.getElem_append_left within] at earlier

instance (f : Flight E) : Decidable f.IsQuiet := inferInstanceAs (Decidable (_ ∧ _))

instance (ms : List (Moment E)) : (m : Moment E) → Decidable (Admits ms m)
  | .load n => inferInstanceAs (Decidable (n ∉ loadsIn ms))
  | .settle n _ => inferInstanceAs (Decidable ((ofMoments ms).fetching = some n))
  | .stage _ | .invalidate => inferInstanceAs (Decidable (ofMoments ms).IsQuiet)

instance : Decidable (Course ms) := decidable_of_iff _ course_iff.symm

/-! ## What each moment does -/

/-- The loads that wait answer in their order. -/
theorem release_eq (f : Flight E) (view : View E) :
    f.release view =
      { f with waiting := [], answers := f.answers ++ f.waiting.map (·, .ok view) } := by
  have answered (waiting : List Nat) (g : Flight E) :
      waiting.foldl (fun f n => f.answer n (.ok view)) g =
        { g with answers := g.answers ++ waiting.map (·, .ok view) } := by
    induction waiting generalizing g with
    | nil => simp
    | cons n rest ih =>
      rw [List.foldl_cons, ih]
      simp [answer]
  rw [release, answered]

/-- The fetch under way has succeeded: every load under way answers with what it gave. -/
theorem complete_ok (fetches : f.fetching = some n) (recorded : List (Recorded E)) :
    f.complete (.ok recorded) =
      { f with
        history := f.history.fill recorded
        fetching := none
        waiting := []
        answers := f.answers ++ (n :: f.waiting).map (·, .ok ⟨recorded, f.history.staged⟩) } := by
  simp [complete, fetches, release_eq, answer]

/-- The fetch under way has failed, and no other load waits. -/
theorem complete_error_alone (fetches : f.fetching = some n) (alone : f.waiting = [])
    (fault : Fault) :
    f.complete (.error fault) =
      { f with fetching := none, answers := f.answers ++ [(n, .error fault)] } := by
  simp [complete, fetches, promote, answer, alone]

/-- The fetch under way has failed, and the load that waits longest fetches in its turn. -/
theorem complete_error_awaited (fetches : f.fetching = some n) {next : Nat} {rest : List Nat}
    (awaited : f.waiting = next :: rest) (fault : Fault) :
    f.complete (.error fault) =
      { f with
        fetching := some next
        waiting := rest
        started := f.started + 1
        answers := f.answers ++ [(n, .error fault)] } := by
  simp [complete, fetches, promote, answer, start, awaited]

/-- A load of a loaded history answers at once. -/
theorem enter_of_loaded (loaded : f.history.fetched = some recorded) (n : Nat) :
    f.enter n = { f with answers := f.answers ++ [(n, .ok ⟨recorded, f.history.staged⟩)] } := by
  simp [enter, History.view?, loaded, answer]

/-- A load that finds neither events nor a fetch fetches. -/
theorem enter_of_idle (empty : f.history.fetched = none) (free : f.fetching = none) (n : Nat) :
    f.enter n = { f with fetching := some n, started := f.started + 1 } := by
  simp [enter, History.view?, empty, free, start]

/-- A load that finds a fetch under way waits. -/
theorem enter_of_fetching (empty : f.history.fetched = none) {other : Nat}
    (busy : f.fetching = some other) (n : Nat) :
    f.enter n = { f with waiting := f.waiting ++ [n] } := by
  simp [enter, History.view?, empty, busy]

/-! ## What a course leaves -/

/-- A fetch gave the events, and they were not forgotten since. -/
def Keeps (ms : List (Moment E)) (recorded : List (Recorded E)) : Prop :=
  ∃ front n since, ms = front ++ .settle n (.ok recorded) :: since ∧ .invalidate ∉ since

/-- A moment takes away what is kept, adds to it or leaves it. -/
theorem keeps_concat : Keeps (ms ++ [m]) recorded ↔
    (∃ n, m = .settle n (.ok recorded)) ∨ (m ≠ .invalidate ∧ Keeps ms recorded) := by
  constructor
  · rintro ⟨front, n, since, split, kept⟩
    induction since using List.reverseRecOn with
    | nil =>
      obtain ⟨-, last⟩ := List.append_inj' split rfl
      exact .inl ⟨n, List.singleton_inj.1 last⟩
    | append_singleton since last =>
      rw [← List.cons_append, ← List.append_assoc] at split
      obtain ⟨rfl, same⟩ := List.append_inj' split rfl
      obtain rfl := List.singleton_inj.1 same
      rw [List.mem_append, not_or, List.mem_singleton] at kept
      exact .inr ⟨fun same => kept.2 same.symm, front, n, since, rfl, kept.1⟩
  · rintro (⟨n, rfl⟩ | ⟨lasting, front, n, since, rfl, kept⟩)
    · exact ⟨ms, n, [], rfl, List.not_mem_nil⟩
    · refine ⟨front, n, since ++ [m], by simp, ?_⟩
      rw [List.mem_append, not_or, List.mem_singleton]
      exact ⟨kept, fun same => lasting same.symm⟩

/-- The flight after some moments. -/
structure Tracks (ms : List (Moment E)) (f : Flight E) : Prop where
  staged : f.history.staged = stagedIn ms
  kept : ∀ recorded, f.history.fetched = some recorded ↔ Keeps ms recorded
  /-- No fetch is under way once one has succeeded. -/
  settled : f.history.fetched ≠ none → f.fetching = none
  /-- Loads wait only for a fetch. -/
  awaited : f.fetching = none → f.waiting = []
  distinct : (loadsIn ms).Nodup
  /-- Every load that began has answered, fetches or waits. -/
  accounted : (f.answers.map Prod.fst ++ f.fetching.toList ++ f.waiting).Perm (loadsIn ms)

/-- The fetch under way was started for a history without events. -/
theorem Tracks.empty_of_fetching (tracks : Tracks ms f) (fetches : f.fetching = some n) :
    f.history.fetched = none := by
  by_contra loaded
  rw [tracks.settled loaded] at fetches
  cases fetches

/-- All loads have answered when none fetches. -/
theorem Tracks.answered (tracks : Tracks ms f) (free : f.fetching = none) :
    (f.answers.map Prod.fst).Perm (loadsIn ms) := by
  simpa [free, tracks.awaited free] using tracks.accounted

theorem Tracks.load (tracks : Tracks ms f) (fresh : n ∉ loadsIn ms) :
    Tracks (ms ++ [.load n]) (f.enter n) := by
  have staged : f.history.staged = stagedIn (ms ++ [.load n]) := by
    simp [Moment.stage?, tracks.staged]
  have loads : loadsIn (ms ++ [.load n]) = loadsIn ms ++ [n] := by simp [Moment.load?]
  have distinct : (loadsIn (ms ++ [.load n])).Nodup := by
    rw [loads, List.nodup_append]
    refine ⟨tracks.distinct, by simp, fun k present other same equal => ?_⟩
    rw [List.mem_singleton.1 same] at equal
    exact fresh (equal ▸ present)
  have kept (recorded : List (Recorded E)) :
      f.history.fetched = some recorded ↔ Keeps (ms ++ [.load n]) recorded := by
    rw [tracks.kept, keeps_concat]
    simp
  cases loaded : f.history.fetched with
  | some recorded =>
    have free := tracks.settled (by simp [loaded])
    rw [enter_of_loaded loaded]
    refine ⟨staged, kept, fun _ => free, tracks.awaited, distinct, ?_⟩
    simpa [loads, free, tracks.awaited free] using (tracks.answered free).append_right [n]
  | none =>
    cases busy : f.fetching with
    | none =>
      rw [enter_of_idle loaded busy]
      refine ⟨staged, kept, fun present => absurd loaded present, nofun, distinct, ?_⟩
      simpa [loads, tracks.awaited busy] using (tracks.answered busy).append_right [n]
    | some other =>
      rw [enter_of_fetching loaded busy]
      refine ⟨staged, kept, tracks.settled, fun free => ?_, distinct, ?_⟩
      · rw [busy] at free
        cases free
      · rw [loads, ← List.append_assoc]
        exact tracks.accounted.append_right [n]

theorem Tracks.settle_ok (tracks : Tracks ms f) (fetches : f.fetching = some n)
    (recorded : List (Recorded E)) :
    Tracks (ms ++ [.settle n (.ok recorded)]) (f.complete (.ok recorded)) := by
  rw [complete_ok fetches]
  refine ⟨?_, fun other => ?_, fun _ => rfl, fun _ => rfl, ?_, ?_⟩
  · simpa [Moment.stage?, History.fill] using tracks.staged
  · have before : ¬ Keeps ms other := by
      rw [← tracks.kept, tracks.empty_of_fetching fetches]
      exact nofun
    simp [keeps_concat, before, History.fill]
  · simpa [Moment.load?] using tracks.distinct
  · have accounted := tracks.accounted
    rw [fetches] at accounted
    simpa [Moment.load?, Function.comp_def] using accounted

theorem Tracks.settle_error (tracks : Tracks ms f) (fetches : f.fetching = some n)
    (fault : Fault) :
    Tracks (ms ++ [.settle n (.error fault)]) (f.complete (.error fault)) := by
  have empty := tracks.empty_of_fetching fetches
  have staged : f.history.staged = stagedIn (ms ++ [.settle n (.error fault)]) := by
    simp [Moment.stage?, tracks.staged]
  have loads : loadsIn (ms ++ [.settle n (.error fault)]) = loadsIn ms := by
    simp [Moment.load?]
  have kept (recorded : List (Recorded E)) :
      f.history.fetched = some recorded ↔ Keeps (ms ++ [.settle n (.error fault)]) recorded := by
    rw [tracks.kept, keeps_concat]
    simp
  have accounted := tracks.accounted
  rw [fetches] at accounted
  cases awaited : f.waiting with
  | nil =>
    rw [complete_error_alone fetches awaited]
    refine ⟨staged, kept, fun _ => rfl, fun _ => awaited, loads ▸ tracks.distinct, ?_⟩
    simpa [loads] using accounted
  | cons next rest =>
    rw [complete_error_awaited fetches awaited]
    refine ⟨staged, kept, fun present => absurd empty present, nofun, loads ▸ tracks.distinct, ?_⟩
    simpa [loads, awaited] using accounted

theorem Tracks.stage (tracks : Tracks ms f) (event : E) :
    Tracks (ms ++ [.stage event]) { f with history := f.history.stage event } := by
  refine ⟨?_, fun recorded => ?_, tracks.settled, tracks.awaited, ?_, ?_⟩
  · simp [Moment.stage?, History.stage, tracks.staged]
  · rw [keeps_concat]
    simpa [History.stage] using tracks.kept recorded
  · simpa [Moment.load?] using tracks.distinct
  · simpa [Moment.load?] using tracks.accounted

theorem Tracks.invalidate (tracks : Tracks ms f) :
    Tracks (ms ++ [.invalidate]) { f with history := f.history.invalidate } := by
  refine ⟨?_, fun recorded => ?_, fun present => absurd rfl present, tracks.awaited, ?_, ?_⟩
  · simpa [Moment.stage?, History.invalidate] using tracks.staged
  · simp [keeps_concat, History.invalidate]
  · simpa [Moment.load?] using tracks.distinct
  · simpa [Moment.load?] using tracks.accounted

/-- What a moment that can follow leaves. -/
theorem Tracks.after (tracks : Tracks ms (ofMoments ms)) (admits : Admits ms m) :
    Tracks (ms ++ [m]) ((ofMoments ms).after m) := by
  cases m with
  | load n => exact tracks.load admits
  | settle n result =>
    cases result with
    | ok recorded => exact tracks.settle_ok admits recorded
    | error fault => exact tracks.settle_error admits fault
  | stage event => exact tracks.stage event
  | invalidate => exact tracks.invalidate

theorem Course.tracks (course : Course ms) : Tracks ms (ofMoments ms) := by
  induction course with
  | nil => exact ⟨rfl, fun recorded => ⟨nofun, by simp [Keeps]⟩, nofun, fun _ => rfl, .nil, .nil⟩
  | snoc _ admits ih =>
    rw [ofMoments_concat]
    exact ih.after admits

/-! ## Sharing -/

/-- The answers that a moment brings. -/
structure Answers (front : List (Moment E)) (m : Moment E)
    (given : List (Nat × Except Fault (View E))) : Prop where
  appended : (ofMoments (front ++ [m])).answers = (ofMoments front).answers ++ given
  /-- A load that succeeds has the events of the fetch that is kept, and all staged ones. -/
  shared : ∀ n view, (n, .ok view) ∈ given →
    Keeps (front ++ [m]) view.recorded ∧ view.staged = stagedIn (front ++ [m])
  /-- A load fails only with its own fetch. -/
  own : ∀ n fault, (n, .error fault) ∈ given → m = .settle n (.error fault)
  /-- A load whose fetch ends has an answer. -/
  settled : ∀ n result, m = .settle n result → ∃ answer, (n, answer) ∈ given

theorem Course.exists_answers (course : Course (ms ++ [m])) : ∃ given, Answers ms m given := by
  have tracks := (course_concat.1 course).1.tracks
  have admits := (course_concat.1 course).2
  have tracksAfter := course.tracks
  rw [ofMoments_concat] at tracksAfter
  cases m with
  | load n =>
    cases loaded : (ofMoments ms).history.fetched with
    | some recorded =>
      have entered := enter_of_loaded loaded n
      refine ⟨[(n, .ok ⟨recorded, (ofMoments ms).history.staged⟩)], ?_, ?_, ?_, nofun⟩
      · simp [after, entered]
      · intro k view present
        obtain ⟨rfl, same⟩ := Prod.mk.inj (List.mem_singleton.1 present)
        obtain rfl := Except.ok.inj same
        rw [← tracksAfter.kept, ← tracksAfter.staged, after, entered]
        exact ⟨loaded, rfl⟩
      · simp
    | none =>
      refine ⟨[], ?_, nofun, nofun, nofun⟩
      cases busy : (ofMoments ms).fetching with
      | none => simp [after, enter_of_idle loaded busy]
      | some other => simp [after, enter_of_fetching loaded busy]
  | settle n result =>
    cases result with
    | ok recorded =>
      have completed := complete_ok admits recorded
      refine ⟨(n :: (ofMoments ms).waiting).map (·, .ok ⟨recorded, (ofMoments ms).history.staged⟩),
        ?_, ?_, by simp, ?_⟩
      · simp [after, completed]
      · intro k view present
        obtain ⟨k', -, same⟩ := List.mem_map.1 present
        obtain rfl := Except.ok.inj (Prod.mk.inj same).2
        rw [← tracksAfter.kept, ← tracksAfter.staged, after, completed]
        exact ⟨rfl, rfl⟩
      · rintro k result same
        obtain ⟨rfl, -⟩ := Moment.settle.inj same
        exact ⟨_, List.mem_cons_self⟩
    | error fault =>
      refine ⟨[(n, .error fault)], ?_, by simp, ?_, ?_⟩
      · cases awaited : (ofMoments ms).waiting with
        | nil => simp [after, complete_error_alone admits awaited]
        | cons next rest => simp [after, complete_error_awaited admits awaited]
      · intro k fault' present
        obtain ⟨rfl, same⟩ := Prod.mk.inj (List.mem_singleton.1 present)
        rw [Except.error.inj same]
      · rintro k result same
        obtain ⟨rfl, -⟩ := Moment.settle.inj same
        exact ⟨_, List.mem_cons_self⟩
  | stage event => exact ⟨[], by simp [after], nofun, nofun, nofun⟩
  | invalidate => exact ⟨[], by simp [after], nofun, nofun, nofun⟩

/-- While a fetch is kept, no fetch ends and none starts. -/
theorem Course.still (course : Course (front ++ since)) (loaded : Keeps front recorded)
    (kept : .invalidate ∉ since) :
    Keeps (front ++ since) recorded ∧ (∀ n result, .settle n result ∉ since) ∧
      (ofMoments (front ++ since)).started = (ofMoments front).started := by
  induction since using List.reverseRecOn with
  | nil => simpa using loaded
  | append_singleton since m ih =>
    rw [← List.append_assoc] at course ⊢
    obtain ⟨before, admits⟩ := course_concat.1 course
    rw [List.mem_append, not_or, List.mem_singleton] at kept
    obtain ⟨keeps, unsettled, started⟩ := ih before kept.1
    have tracks := before.tracks
    have fetched := (tracks.kept recorded).2 keeps
    have notSettle : ∀ n result, m ≠ .settle n result := by
      rintro n result rfl
      have none := tracks.empty_of_fetching admits
      rw [fetched] at none
      cases none
    refine ⟨keeps_concat.2 (.inr ⟨fun same => kept.2 same.symm, keeps⟩), fun n result => ?_, ?_⟩
    · rw [List.mem_append, not_or, List.mem_singleton]
      exact ⟨unsettled n result, fun same => notSettle n result same.symm⟩
    · rw [ofMoments_concat, ← started]
      cases m with
      | load n => simp [after, enter_of_loaded fetched]
      | settle n result => exact absurd rfl (notSettle n result)
      | stage event => rfl
      | invalidate => exact absurd rfl kept.2

/-- Once a fetch has succeeded, no other ends and none starts until it is forgotten. -/
theorem Course.still_of_settle (course : Course (front ++ .settle n (.ok recorded) :: since))
    (kept : .invalidate ∉ since) :
    (∀ k result, .settle k result ∉ since) ∧
      (ofMoments (front ++ .settle n (.ok recorded) :: since)).started =
        (ofMoments front).started := by
  have fetches : (ofMoments front).fetching = some n := course.admits_of_append
  rw [List.append_cons] at course ⊢
  obtain ⟨-, unsettled, started⟩ := course.still (keeps_concat.2 (.inl ⟨n, rfl⟩)) kept
  refine ⟨unsettled, started.trans ?_⟩
  simp [after, complete_ok fetches]

theorem Moment.succeeds_iff : m.succeeds ↔ ∃ n recorded, m = .settle n (.ok recorded) := by
  constructor
  · intro success
    cases m with
    | settle n result =>
      cases result with
      | ok recorded => exact ⟨n, recorded, rfl⟩
      | error fault => cases success
    | load n => cases success
    | stage event => cases success
    | invalidate => cases success
  · rintro ⟨n, recorded, rfl⟩
    rfl

/-- How the loads of a course share a fetch. -/
structure SharesFetch (ms : List (Moment E)) : Prop where
  /-- Between two invalidations at most one fetch succeeds. -/
  once : ∀ front during rest, ms = front ++ during ++ rest → .invalidate ∉ during →
    during.countP Moment.succeeds ≤ 1
  /-- No fetch starts after it has. -/
  final : ∀ front n recorded during rest,
    ms = front ++ .settle n (.ok recorded) :: during ++ rest → .invalidate ∉ during →
    (ofMoments (front ++ .settle n (.ok recorded) :: during)).started = (ofMoments front).started
  /-- What loads answer, and when. -/
  answers : ∀ front m rest, ms = front ++ m :: rest → ∃ given, Answers front m given
  /-- A fetch that fails leaves nothing, and the load that waits longest fetches. -/
  failed : ∀ front n fault rest, ms = front ++ .settle n (.error fault) :: rest →
    (ofMoments (front ++ [.settle n (.error fault)])).history.fetched = none ∧
      (ofMoments (front ++ [.settle n (.error fault)])).fetching = (ofMoments front).waiting.head? ∧
      (ofMoments (front ++ [.settle n (.error fault)])).started =
        (ofMoments front).started + (ofMoments front).waiting.head?.toList.length
  /-- A load that finds nothing and no fetch under way fetches. -/
  retried : ∀ front n rest, ms = front ++ .load n :: rest →
    (ofMoments front).history.fetched = none → (ofMoments front).fetching = none →
    (ofMoments (front ++ [.load n])).fetching = some n ∧
      (ofMoments (front ++ [.load n])).started = (ofMoments front).started + 1
  /-- What is staged and kept in the end, and where each load is. -/
  tracks : Tracks ms (ofMoments ms)

theorem loads_share_fetch (course : Course ms) : SharesFetch ms := by
  constructor
  case once =>
    rintro front during rest rfl kept
    have during_course := course.of_append
    by_cases some : ∃ m ∈ during, m.succeeds
    swap
    · rw [List.countP_eq_zero.2 fun m present success => some ⟨m, present, success⟩]
      exact Nat.zero_le 1
    obtain ⟨m, inDuring, success⟩ := some
    obtain ⟨n, recorded, rfl⟩ := Moment.succeeds_iff.1 success
    obtain ⟨early, late, rfl⟩ := List.append_of_mem inDuring
    rw [List.mem_append, not_or, List.mem_cons, not_or] at kept
    -- Neither before nor after one that has succeeded is there another.
    have noneEarly : ∀ m ∈ early, ¬ m.succeeds := by
      intro m inEarly success
      obtain ⟨k, other, rfl⟩ := Moment.succeeds_iff.1 success
      obtain ⟨first, middle, rfl⟩ := List.append_of_mem inEarly
      rw [List.mem_append, not_or, List.mem_cons, not_or] at kept
      rw [List.append_assoc, List.cons_append, ← List.append_assoc] at during_course
      refine (during_course.still_of_settle ?_).1 n (.ok recorded) (by simp)
      simp [kept]
    have noneLate : ∀ m ∈ late, ¬ m.succeeds := by
      intro m inLate success
      obtain ⟨k, other, rfl⟩ := Moment.succeeds_iff.1 success
      rw [← List.append_assoc] at during_course
      exact (during_course.still_of_settle kept.2.2).1 k (.ok other) inLate
    rw [List.countP_append, List.countP_cons, List.countP_eq_zero.2 noneEarly,
      List.countP_eq_zero.2 noneLate]
    simp [success]
  case final =>
    rintro front n recorded during rest rfl kept
    exact (course.of_append.still_of_settle kept).2
  case answers =>
    rintro front m rest rfl
    rw [List.append_cons] at course
    exact course.of_append.exists_answers
  case failed =>
    rintro front n fault rest rfl
    have fetches : (ofMoments front).fetching = some n := course.admits_of_append
    have empty := course.of_append.tracks.empty_of_fetching fetches
    rw [ofMoments_concat, after]
    cases awaited : (ofMoments front).waiting with
    | nil => simp [complete_error_alone fetches awaited, empty]
    | cons next rest => simp [complete_error_awaited fetches awaited, empty]
  case retried =>
    rintro front n rest rfl empty free
    simp [after, enter_of_idle empty free]
  case tracks => exact course.tracks

/-- An event stands under an id. -/
def noted (id : EventId) (event : String) : Recorded String := ⟨id, event, default, default⟩

/-- Two loads are under way when the fetch of the first fails, and a third begins before that
of the second succeeds; later what was fetched is forgotten. -/
def retriedCourse : List (Moment String) :=
  [.stage "s", .load 0, .load 1, .settle 0 (.error (.internal "boom")), .load 2,
    .settle 1 (.ok [noted 3 "x"]), .load 3, .invalidate, .stage "t", .load 4]

/-- The second load fetches for itself and the third, the fourth finds what it gave, and the
fifth fetches anew. -/
theorem loads_share_fetch_retried :
    Course retriedCourse ∧ (ofMoments retriedCourse).history.staged = ["s", "t"] ∧
      (ofMoments retriedCourse).fetching = some 4 ∧ (ofMoments retriedCourse).started = 3 ∧
      (ofMoments retriedCourse).answers.map Prod.fst = [0, 1, 2, 3] ∧
      ∃ given, Answers (retriedCourse.take 5) (.settle 1 (.ok [noted 3 "x"])) given := by
  have course : Course retriedCourse := by decide
  have shares := loads_share_fetch course
  exact ⟨course, shares.tracks.staged, rfl, rfl, rfl, shares.answers (retriedCourse.take 5) _ _ rfl⟩

/-! ## A load alone -/

/-- A load alone answers, and leaves the history, as loading it does. -/
theorem loadAll_singleton (h : History E) (result : Except Fault (List (Recorded E))) :
    ((loadAll h [result]).answer? 0, (loadAll h [result]).history) =
      (some ((History.load id (fun _ h => h) (Action.ofExcept result)).run h).1,
        ((History.load id (fun _ h => h) (Action.ofExcept result)).run h).2) := by
  obtain ⟨fetched, staged⟩ := h
  cases fetched with
  | some recorded => rfl
  | none => cases result <;> rfl

end Flight

end Chronicle
