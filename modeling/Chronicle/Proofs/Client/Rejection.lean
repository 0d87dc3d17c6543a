import Chronicle.Proofs.Filter.Grammar
import Chronicle.Proofs.Runner.Reads

/-!
# Streams that are turned down

A client checks the filters of all streams. A store checks those of the streams that
have types, in the same order and with the same faults
(`Selection.compile_eq_checkStreams`), before it looks at anything else: what it turns
down it turns down in every state, which stays as it is (`Store.rejection_exact`).

A stream without types compiles before its filter is looked at, so a store takes one
that a client turns down (`Store.typeless_filter_unchecked`). On streams that all have
types the two agree.
-/

namespace Chronicle

/-! ## The check of one stream -/

namespace Filter

theorem checkName_eq_error {field : String} {flaw : Flaw} (found : checkName field = .error flaw) :
    ∃ text, flaw.fault = .invalidFilter text := by
  unfold checkName at found
  split at found
  · obtain rfl := Except.error.inj found
    exact ⟨_, rfl⟩
  split at found
  · obtain rfl := Except.error.inj found
    exact ⟨_, rfl⟩
  · cases found

theorem checkCondition_eq_error {c : Condition} {flaw : Flaw}
    (found : checkCondition c = .error flaw) : ∃ text, flaw.fault = .invalidFilter text := by
  unfold checkCondition at found
  split at found
  · obtain rfl := Except.error.inj found
    exact ⟨_, rfl⟩
  split at found
  · cases found
  · obtain rfl := Except.error.inj found
    exact ⟨_, rfl⟩

/-- A filter that is turned down is invalid, and nothing else is wrong with it. -/
theorem validate_eq_error {f : Filter} {fault : Fault} (failed : f.validate = .error fault) :
    ∃ text, fault = .invalidFilter text := by
  unfold validate at failed
  cases checked : f.check with
  | ok _ =>
    rw [checked] at failed
    cases failed
  | error flaw =>
    rw [checked] at failed
    obtain rfl := Except.error.inj failed
    obtain ⟨entry, -, inEntry⟩ := exists_of_forM_eq_error checked
    unfold checkField at inEntry
    cases name : checkName entry.field with
    | error other =>
      rw [name] at inEntry
      obtain rfl := Except.error.inj inEntry
      exact checkName_eq_error name
    | ok _ =>
      rw [name] at inEntry
      obtain ⟨c, -, inCondition⟩ := exists_of_forM_eq_error inEntry
      exact checkCondition_eq_error inCondition

end Filter

namespace Stream

variable {s : Stream}

theorem compile_of_typeless (typeless : s.types = []) : s.compile = .ok s.test := by
  rw [compile, test, if_pos typeless, if_pos typeless]

/-- With types, what decides is the check of the filter. -/
theorem compile_of_typed (typed : s.types ≠ []) :
    s.compile = (s.filter.forM Filter.validate).map fun _ => s.test := by
  unfold compile test tests
  rw [if_neg typed, if_neg typed]
  cases s.filter with
  | none => rfl
  | some filter =>
    show (filter.compile).map _ = (filter.validate).map _
    unfold Filter.compile
    cases filter.validate <;> rfl

end Stream

/-! ## The check of some streams -/

namespace Client

variable {specs : List Stream} {fault : Fault}

theorem checkStreams_cons (spec : Stream) (specs : List Stream) :
    checkStreams (spec :: specs) =
      (spec.filter.forM Filter.validate >>= fun _ => checkStreams specs) := rfl

theorem checkStreams_eq_error (failed : checkStreams specs = .error fault) :
    ∃ text, fault = .invalidFilter text := by
  obtain ⟨spec, -, inSpec⟩ := Filter.exists_of_forM_eq_error failed
  cases given : spec.filter with
  | none =>
    rw [given] at inSpec
    cases inSpec
  | some filter =>
    rw [given] at inSpec
    exact Filter.validate_eq_error inSpec

/-- A client turns down streams of which one has an invalid filter. -/
theorem checkStreams_rejects_iff :
    (∃ text, checkStreams specs = .error (.invalidFilter text)) ↔ ∃ spec ∈ specs, ¬ spec.Valid := by
  constructor
  · rintro ⟨text, failed⟩
    by_contra allValid
    push Not at allValid
    rw [checkStreams_eq_ok.2 allValid] at failed
    cases failed
  · rintro ⟨spec, present, invalid⟩
    cases checked : checkStreams specs with
    | ok _ => exact absurd (checkStreams_eq_ok.1 checked spec present) invalid
    | error fault =>
      obtain ⟨text, rfl⟩ := checkStreams_eq_error checked
      exact ⟨text, rfl⟩

end Client

namespace Selection

variable {specs : List Stream}

/-- A store checks the streams that have types as a client would. -/
theorem compile_eq_checkStreams (specs : List Stream) :
    compile specs = (Client.checkStreams (specs.filter fun spec => spec.types ≠ [])).map
      fun _ => ofStreams specs := by
  induction specs with
  | nil => rfl
  | cons spec specs ih =>
    unfold compile at ih ⊢
    rw [List.mapM_cons, ih]
    by_cases typeless : spec.types = []
    · rw [Stream.compile_of_typeless typeless, List.filter_cons_of_neg (by simp [typeless])]
      cases Client.checkStreams (specs.filter _) <;> rfl
    · rw [Stream.compile_of_typed typeless, List.filter_cons_of_pos (by simp [typeless]),
        Client.checkStreams_cons]
      cases spec.filter.forM Filter.validate with
      | error fault => rfl
      | ok _ => cases Client.checkStreams (specs.filter _) <;> rfl

theorem compile_eq_error {fault : Fault} (failed : compile specs = .error fault) :
    ∃ text, fault = .invalidFilter text := by
  rw [compile_eq_checkStreams] at failed
  cases checked : Client.checkStreams (specs.filter fun spec => spec.types ≠ []) with
  | ok _ =>
    rw [checked] at failed
    cases failed
  | error other =>
    rw [checked] at failed
    obtain rfl := Except.error.inj failed
    exact Client.checkStreams_eq_error checked

theorem compile_rejects (rejected : ∃ spec ∈ specs, spec.types ≠ [] ∧ ¬ spec.Valid) :
    ∃ text, compile specs = .error (.invalidFilter text) := by
  obtain ⟨spec, present, typed, invalid⟩ := rejected
  have among : spec ∈ specs.filter fun spec => spec.types ≠ [] := by
    simpa using ⟨present, typed⟩
  obtain ⟨text, failed⟩ := Client.checkStreams_rejects_iff.2 ⟨spec, among, invalid⟩
  exact ⟨text, by rw [compile_eq_checkStreams, failed]; rfl⟩

theorem compile_accepts (accepted : ¬ ∃ spec ∈ specs, spec.types ≠ [] ∧ ¬ spec.Valid) :
    compile specs = .ok (ofStreams specs) := by
  have passes : Client.checkStreams (specs.filter fun spec => spec.types ≠ []) = .ok () := by
    refine Client.checkStreams_eq_ok.2 fun spec among => ?_
    obtain ⟨present, typed⟩ : spec ∈ specs ∧ spec.types ≠ [] := by simpa using among
    by_contra invalid
    exact accepted ⟨spec, present, typed, invalid⟩
  rw [compile_eq_checkStreams, passes]
  rfl

end Selection

/-! ## What a store turns down -/

/-- What fails over a list fails at one of its members. -/
theorem exists_of_mapM_eq_error {ε α β : Type} {f : α → Except ε β} {items : List α} {e : ε}
    (failed : items.mapM f = .error e) : ∃ item ∈ items, f item = .error e := by
  induction items with
  | nil => cases failed
  | cons item rest ih =>
    rw [List.mapM_cons] at failed
    cases first : f item with
    | error other =>
      rw [first] at failed
      obtain rfl := Except.error.inj failed
      exact ⟨item, List.mem_cons_self, first⟩
    | ok result =>
      rw [first] at failed
      cases others : rest.mapM f with
      | error other =>
        rw [others] at failed
        obtain rfl := Except.error.inj failed
        obtain ⟨later, inRest, fails⟩ := ih others
        exact ⟨later, List.mem_cons_of_mem _ inRest, fails⟩
      | ok results =>
        rw [others] at failed
        cases failed

theorem mapM_read_eq_error {rows : List EventRow} {fault : Fault}
    (failed : rows.mapM EventRow.read = .error fault) : fault = unreadable := by
  obtain ⟨row, -, unread⟩ := exists_of_mapM_eq_error failed
  unfold EventRow.read at unread
  split at unread
  · cases unread
  · exact (Except.error.inj unread).symm

namespace Store

variable {specs : List Stream}

/-- A read that got past its filters fails at the lock, the statement or a row. -/
theorem run_streams_not_invalidFilter (compiled : Selection.compile specs = .ok (.ofStreams specs))
    (after : Option EventId) (s : Store) (text : String) :
    ((streams specs after).run s).1 ≠ .error (.invalidFilter text) := by
  rw [run_streams, compiled]
  dsimp only
  split
  · simp
  split
  · simp
  split
  · simp
  cases reads : (s.tables.selected (.ofStreams specs) after).mapM EventRow.read with
  | ok events => simp
  | error fault => simp [mapM_read_eq_error reads, unreadable]

/-- So does a guarded append, or at a newer event or a row that is refused. -/
theorem run_appendIfNoNewer_not_invalidFilter
    (compiled : Selection.compile specs = .ok (.ofStreams specs)) (drafts : List Draft)
    (floor : EventId) (s : Store) (text : String) :
    ((appendIfNoNewer drafts floor specs).run s).1 ≠ .error (.invalidFilter text) := by
  rw [run_appendIfNoNewer, compiled]
  dsimp only
  split
  · simp
  split
  · simp
  split
  · simp
  split
  · simp [Fault.newerEvents]
  cases written : Tables.insertAll s.now drafts s.tables with
  | ok pair => simp
  | error fault =>
    obtain ⟨storageText, rfl⟩ := Tables.insertAll_eq_error written
    simp

/-- A store turns streams down exactly when one that has types has an invalid filter:
whatever the other streams, the drafts, the floor and the state are, and with the
state left as it is. A client turns them down exactly when any has an invalid filter.
Where all have types, both find the same fault. -/
theorem rejection_exact (specs : List Stream) :
    let rejected := ∃ spec ∈ specs, spec.types ≠ [] ∧ ¬ spec.Valid
    (rejected → ∃ text, Selection.compile specs = .error (.invalidFilter text) ∧
      (∀ (s : Store) (after : Option EventId),
        (streams specs after).run s = (.error (.invalidFilter text), s)) ∧
      ∀ (s : Store) (drafts : List Draft) (floor : EventId),
        (appendIfNoNewer drafts floor specs).run s = (.error (.invalidFilter text), s)) ∧
    (¬ rejected → Selection.compile specs = .ok (.ofStreams specs) ∧
      (∀ (s : Store) (after : Option EventId) (text : String),
        ((streams specs after).run s).1 ≠ .error (.invalidFilter text)) ∧
      ∀ (s : Store) (drafts : List Draft) (floor : EventId) (text : String),
        ((appendIfNoNewer drafts floor specs).run s).1 ≠ .error (.invalidFilter text)) ∧
    ((∃ text, Client.checkStreams specs = .error (.invalidFilter text)) ↔
      ∃ spec ∈ specs, ¬ spec.Valid) ∧
    ((∀ spec ∈ specs, spec.types ≠ []) → ∀ fault,
      Selection.compile specs = .error fault ↔ Client.checkStreams specs = .error fault) := by
  intro rejected
  refine ⟨fun isRejected => ?_, fun accepted => ?_, Client.checkStreams_rejects_iff,
    fun typed fault => ?_⟩
  · obtain ⟨text, failed⟩ := Selection.compile_rejects isRejected
    refine ⟨text, failed, fun s after => ?_, fun s drafts floor => ?_⟩
    · rw [run_streams, failed]
    · rw [run_appendIfNoNewer, failed]
  · have compiled := Selection.compile_accepts accepted
    exact ⟨compiled, fun s after text => run_streams_not_invalidFilter compiled after s text,
      fun s drafts floor text => run_appendIfNoNewer_not_invalidFilter compiled drafts floor s text⟩
  · have all : specs.filter (fun spec => spec.types ≠ []) = specs :=
      List.filter_eq_self.2 fun spec present => decide_eq_true (typed spec present)
    rw [Selection.compile_eq_checkStreams, all]
    cases Client.checkStreams specs with
    | error other => simp [Except.map]
    | ok _ => simp [Except.map]

/-- A stream with some types and a condition on a field without a name. -/
def unnamedStream (types : List String) : Stream :=
  ⟨types, some (Filter.empty.push "" (.compare .eq (.bool true)))⟩

theorem unnamedStream_invalid (types : List String) : ¬ (unnamedStream types).Valid := by
  intro valid
  cases valid _ rfl

/-- With a type the stream is turned down, also behind one that is not, without drafts
and by a store whose lock is broken. -/
theorem rejection_exact_unnamed :
    ∃ text, ∀ drafts floor,
      (appendIfNoNewer drafts floor [plainStream, unnamedStream ["T"]]).run
          { new default with poisoned := true } =
        (.error (.invalidFilter text), { new default with poisoned := true }) := by
  obtain ⟨text, -, -, appends⟩ := (rejection_exact [plainStream, unnamedStream ["T"]]).1
    ⟨unnamedStream ["T"], by simp, by simp [unnamedStream], unnamedStream_invalid _⟩
  exact ⟨text, appends _⟩

/-- Without types it is turned down by a client and taken by a store. -/
theorem typeless_filter_unchecked :
    Client.checkStreams [unnamedStream []] = .error (.invalidFilter "field name is empty") ∧
      Selection.compile [unnamedStream []] = .ok [.never] ∧
      ((streams [unnamedStream []] none).run (new default)).1 = .ok [] ∧
      ((appendIfNoNewer [⟨"T", .null⟩] noEvent [unnamedStream []]).run (new default)).1 =
        .ok [⟨1, "T", .null, default, default⟩] := by
  have compiled : Selection.compile [unnamedStream []] = .ok (.ofStreams [unnamedStream []]) := rfl
  have clean : ¬ (Selection.ofStreams [unnamedStream []]).SpellsNul := by
    rw [Selection.spellsNul_ofStreams]
    simp [unnamedStream, Stream.SpellsNul]
  refine ⟨rfl, rfl, ?_, ?_⟩
  · obtain ⟨metrics, ran⟩ := run_streams_of_holds (holds_new default) rfl compiled
      fun _ => (Statement.canSelect_iff _ none).2 ⟨clean, rfl⟩
    exact congrArg Prod.fst ran
  · exact appendIfNoNewer_of_quiet (holds_new default) (inService_new default) compiled
      (fun _ => (Statement.canGuard_iff _ _ _).2 ⟨clean, rfl⟩) (by decide) rfl

end Store

end Chronicle
