import Chronicle.Event.Codec
import Chronicle.Proofs.Filter.Building
import Chronicle.Proofs.Log.Guard
import Mathlib.Data.String.Basic

/-!
# Filters through JSON

The JSON form of a filter has each field once and each operator on it once, so of
conditions on one field with one operator it keeps the last (`Filter.written`). That
is also what is read back (`Filter.ofJson_toJson`).

A filter that was built with no operator used twice on a field, unless with the same
operands, matches after the round trip what it matched before, and a stream with it
selects and guards the same. Any other filter comes back with conditions missing: it
matches all that it did, and maybe more (`Filter.wire_round_trip`,
`Filter.round_trip_widens`).
-/

namespace Chronicle

/-! ## Objects with a member for each key -/

section Members

variable {α : Type} {key : α → String}

theorem insertMember_map (value : α → Json) (item : α) (items : List α) :
    Json.insertMember (key item) (value item) (items.map fun a => (key a, value a)) =
      (putByKey key item items).map fun a => (key a, value a) := by
  induction items with
  | nil => rfl
  | cons head rest ih =>
    rw [List.map_cons, Json.insertMember, putByKey]
    split
    · rfl
    split
    · rfl
    · rw [ih, List.map_cons]

theorem ofMembers_map (value : α → Json) (items : List α) :
    Json.ofMembers (items.map fun a => (key a, value a)) =
      .object ((lastByKey key items).map fun a => (key a, value a)) := by
  rw [Json.ofMembers]
  congr 1
  induction items using List.reverseRecOn with
  | nil => rfl
  | append_singleton items item ih =>
    rw [List.map_append, List.foldl_append, ih, lastByKey_append, ← insertMember_map]
    rfl

end Members

/-! ## Conditions -/

/-- An operand that is finite is read as it was written. -/
theorem Scalar.ofJson_toJson {operand : Scalar} (finite : operand.nonFinite? = none)
    (key : String) : Scalar.ofJson key operand.toJson = .ok operand := by
  cases operand with
  | infinite => cases finite
  | nan => cases finite
  | _ => rfl

theorem Scalar.listOfJson_map {operands : List Scalar}
    (finite : ∀ operand ∈ operands, operand.nonFinite? = none) (key : String) :
    Scalar.listOfJson key (.array (operands.map Scalar.toJson)) = .ok operands := by
  rw [Scalar.listOfJson]
  induction operands with
  | nil => rfl
  | cons operand rest ih =>
    obtain ⟨first, others⟩ := List.forall_mem_cons.1 finite
    rw [List.map_cons, List.mapM_cons, Scalar.ofJson_toJson first, ih others]
    rfl

theorem Comparison.ofKey?_key (comparison : Comparison) :
    Comparison.ofKey? comparison.key = some comparison := by
  cases comparison <;> rfl

/-- The operands are finite. -/
def Condition.Finite (c : Condition) : Prop := ∀ operand ∈ c.operands, operand.nonFinite? = none

theorem Condition.finite_of_check {c : Condition} (passes : Filter.checkCondition c = .ok ⟨⟩) :
    c.Finite := by
  unfold Filter.checkCondition at passes
  split at passes
  · cases passes
  · rename_i none
    exact List.findSome?_eq_none_iff.1 none

/-- A condition is read as it was written. -/
theorem Condition.ofJson_operandJson {c : Condition} (finite : c.Finite) :
    Condition.ofJson c.key c.operandJson = .ok c := by
  cases c with
  | compare comparison operand =>
    have first : operand.nonFinite? = none := finite operand List.mem_cons_self
    simp only [Condition.ofJson, Condition.key, Comparison.ofKey?_key, Condition.operandJson,
      Scalar.ofJson_toJson first]
    rfl
  | within operands =>
    have read := Scalar.listOfJson_map finite "in"
    simp only [Condition.operands] at read
    simp only [Condition.ofJson, Condition.key, Condition.operandJson, Comparison.ofKey?, read]
    rfl
  | outside operands =>
    have read := Scalar.listOfJson_map finite "nin"
    simp only [Condition.operands] at read
    simp only [Condition.ofJson, Condition.key, Condition.operandJson, Comparison.ofKey?, read]
    rfl

/-! ## Reading what is tidy -/

namespace Filter

/-- An entry as a member of a filter's JSON form. -/
def member (entry : FieldFilter) : String × Json :=
  (entry.field, .object (entry.conditions.map fun c => (c.key, c.operandJson)))

variable {f : Filter} {field : String}

/-- A condition on a new field is the first of a new entry. -/
theorem pushField_of_new {fields : List FieldFilter}
    (new : field ∉ fields.map FieldFilter.field) (c : Condition) (conditions : List Condition) :
    pushField field c (fields ++ [⟨field, conditions⟩]) =
        fields ++ [⟨field, conditions ++ [c]⟩] ∧
      pushField field c fields = fields ++ [⟨field, [c]⟩] := by
  induction fields with
  | nil => simp [pushField]
  | cons entry rest ih =>
    rw [List.map_cons, List.mem_cons, not_or] at new
    obtain ⟨later, first⟩ := ih new.2
    simp [pushField, Ne.symm new.1, later, first]

theorem foldl_push_of_new (new : field ∉ f.fields.map FieldFilter.field)
    {conditions : List Condition} (some_conditions : conditions ≠ []) :
    conditions.foldl (fun f c => f.push field c) f = ⟨f.fields ++ [⟨field, conditions⟩]⟩ := by
  induction conditions using List.reverseRecOn with
  | nil => exact absurd rfl some_conditions
  | append_singleton conditions c ih =>
    rw [List.foldl_append, List.foldl_cons, List.foldl_nil]
    by_cases first : conditions = []
    · subst first
      simp only [List.foldl_nil, push, (pushField_of_new new c []).2, List.nil_append]
    · rw [ih first, push, (pushField_of_new new c conditions).1]

theorem addOperators_eq {conditions : List Condition} (finite : ∀ c ∈ conditions, c.Finite) :
    f.addOperators field (conditions.map fun c => (c.key, c.operandJson)) =
      .ok (conditions.foldl (fun f c => f.push field c) f) := by
  unfold addOperators
  induction conditions generalizing f with
  | nil => rfl
  | cons c rest ih =>
    obtain ⟨first, others⟩ := List.forall_mem_cons.1 finite
    rw [List.map_cons, List.foldlM_cons]
    simp only [Condition.ofJson_operandJson first]
    exact ih others

/-- Entries of different fields are read as they are, those without conditions apart. -/
theorem assemble_entries {entries : List FieldFilter}
    (names : (entries.map FieldFilter.field).Nodup)
    (finite : ∀ entry ∈ entries, ∀ c ∈ entry.conditions, c.Finite) :
    assemble (.object (entries.map member)) =
      .ok ⟨entries.filter fun entry => entry.conditions ≠ []⟩ := by
  suffices ∀ done rest : List FieldFilter,
      ((done ++ rest).map FieldFilter.field).Nodup →
      (∀ entry ∈ rest, ∀ c ∈ entry.conditions, c.Finite) →
      (rest.map member).foldlM addMember (⟨done⟩ : Filter) =
        .ok ⟨done ++ rest.filter fun entry => entry.conditions ≠ []⟩ from
    this [] entries names finite
  intro done rest names finite
  induction rest generalizing done with
  | nil => simp [pure, Except.pure]
  | cons entry rest ih =>
    obtain ⟨finiteFirst, finiteOthers⟩ := List.forall_mem_cons.1 finite
    rw [List.map_cons, List.foldlM_cons, member, addMember, addOperators_eq finiteFirst]
    by_cases bare : entry.conditions = []
    · have namesRest : ((done ++ rest).map FieldFilter.field).Nodup :=
        names.sublist (((List.sublist_cons_self entry rest).append_left done).map _)
      have read := ih done namesRest finiteOthers
      simpa [bare, bind, Except.bind] using read
    · have new : entry.field ∉ done.map FieldFilter.field := fun present => by
        rw [List.map_append, List.map_cons] at names
        exact (List.nodup_append.1 names).2.2 _ present _ List.mem_cons_self rfl
      have read := ih (done ++ [entry]) (by simpa using names) finiteOthers
      rw [foldl_push_of_new new bare]
      simpa [bare, bind, Except.bind] using read

/-- A tidy filter is read from its entries as it is. -/
theorem assemble_members (tidy : f.Tidy)
    (finite : ∀ entry ∈ f.fields, ∀ c ∈ entry.conditions, c.Finite) :
    assemble (.object (f.fields.map member)) = .ok f := by
  rw [assemble_entries tidy.names finite, List.filter_eq_self.2]
  intro entry present
  simpa using tidy.conditions entry present

/-! ## What is written -/

/-- What the JSON form of a filter has: the fields in order, and of the conditions on
a field with one operator the last. -/
def written (f : Filter) : Filter :=
  ⟨lastByKey FieldFilter.field (f.fields.map fun entry =>
    ⟨entry.field, lastByKey Condition.key entry.conditions⟩)⟩

theorem toJson_eq (f : Filter) : f.toJson = .object (f.written.fields.map member) := by
  have each (entry : FieldFilter) :
      (entry.field, Json.ofMembers (entry.conditions.map fun c => (c.key, c.operandJson))) =
        member ⟨entry.field, lastByKey Condition.key entry.conditions⟩ := by
    rw [ofMembers_map]
    rfl
  have members := @ofMembers_map _ FieldFilter.field (fun entry => (member entry).2)
    (f.fields.map fun entry => ⟨entry.field, lastByKey Condition.key entry.conditions⟩)
  rw [List.map_map] at members
  rw [toJson]
  simp only [each]
  exact members

/-- What is written on a field comes from an entry of the filter. -/
theorem mem_written {entry : FieldFilter} (present : entry ∈ f.written.fields) :
    ∃ source ∈ f.fields,
      entry = ⟨source.field, lastByKey Condition.key source.conditions⟩ := by
  obtain ⟨source, has, same⟩ := List.mem_map.1 (mem_of_lastByKey present)
  exact ⟨source, has, same.symm⟩

theorem tidy_written (tidy : f.Tidy) : f.written.Tidy := by
  refine ⟨nodup_of_sorted (pairwise_lastByKey _), fun entry present => ?_⟩
  obtain ⟨source, has, rfl⟩ := mem_written present
  exact lastByKey_ne_nil (tidy.conditions source has)

theorem valid_written (valid : f.Valid) : f.written.Valid := by
  rw [valid_iff] at valid ⊢
  intro entry present
  obtain ⟨source, has, rfl⟩ := mem_written present
  obtain ⟨name, conditions⟩ := valid source has
  exact ⟨name, fun c kept => conditions c (mem_of_lastByKey kept)⟩

/-- What is read back is what was written. -/
theorem ofJson_toJson (tidy : f.Tidy) (valid : f.Valid) : ofJson f.toJson = .ok f.written := by
  have finite : ∀ entry ∈ f.written.fields, ∀ c ∈ entry.conditions, c.Finite :=
    fun entry present c has =>
      Condition.finite_of_check ((valid_iff.1 (valid_written valid) entry present).2 c has)
  have checked : f.written.check = .ok () := valid_written valid
  rw [ofJson, toJson_eq, assemble_members (tidy_written tidy) finite]
  simp [bind, Except.bind, checked, pure, Except.pure]

/-- Of the conditions on a field with one operator, the last is written. -/
theorem mem_tests_written (tidy : f.Tidy) {c : Condition} :
    (field, c) ∈ f.written.tests ↔
      ((f.conditionsOn field).filter fun other => other.key = c.key).getLast? = some c := by
  rw [mem_tests, ← mem_lastByKey]
  constructor
  · rintro ⟨entry, present, rfl, kept⟩
    obtain ⟨source, has, rfl⟩ := mem_written present
    rwa [tidy.conditionsOn_eq has]
  · intro kept
    obtain ⟨source, has, rfl, same⟩ := mem_of_conditionsOn (mem_of_lastByKey kept)
    have unique : ∀ a ∈ f.fields.map fun entry : FieldFilter =>
          (⟨entry.field, lastByKey Condition.key entry.conditions⟩ : FieldFilter),
        ∀ b ∈ f.fields.map fun entry => ⟨entry.field, lastByKey Condition.key entry.conditions⟩,
          a.field = b.field → a = b := by
      simp only [List.mem_map]
      rintro _ ⟨a, hasA, rfl⟩ _ ⟨b, hasB, rfl⟩ sameField
      have onA := find?_of_nodup tidy.names hasA
      rw [sameField, find?_of_nodup tidy.names hasB] at onA
      rw [Option.some.inj onA]
    refine ⟨⟨source.field, lastByKey Condition.key source.conditions⟩,
      (mem_lastByKey_of_unique unique).2 (List.mem_map_of_mem has), rfl, ?_⟩
    rwa [← same]

/-- Of the calls with one field and one operator, the last is written. -/
theorem mem_tests_written_build {calls : List (String × Condition)} {c : Condition} :
    (field, c) ∈ (build calls).written.tests ↔
      (calls.filter fun call => call.1 = field ∧ call.2.key = c.key).getLast? =
        some (field, c) := by
  rw [mem_tests_written (tidy_build calls), conditionsOn_build, List.filter_map,
    List.filter_filter, List.getLast?_map]
  have sameFilter : (calls.filter fun call =>
        ((fun other => decide (other.key = c.key)) ∘ Prod.snd) call && call.1 = field) =
      calls.filter fun call => call.1 = field ∧ call.2.key = c.key := by
    refine List.filter_congr fun call _ => ?_
    simp [Bool.and_comm]
  rw [sameFilter]
  cases ends : (calls.filter fun call => call.1 = field ∧ call.2.key = c.key).getLast? with
  | none => simp
  | some call =>
    obtain ⟨-, on⟩ := List.mem_filter.1 (List.mem_of_getLast? ends)
    obtain ⟨rfl, -⟩ := of_decide_eq_true on
    simp [Prod.ext_iff]

/-- No operator is used twice on a field, unless with the same operands. -/
def Univocal (calls : List (String × Condition)) : Prop :=
  ∀ a ∈ calls, ∀ b ∈ calls, a.1 = b.1 → a.2.key = b.2.key → a = b

instance (calls : List (String × Condition)) : Decidable (Univocal calls) :=
  inferInstanceAs (Decidable (∀ _ ∈ _, _))

variable {calls : List (String × Condition)}

/-- No condition of a built filter is lost when no operator is used with different
operands on a field. -/
theorem mem_tests_written_of_univocal (univocal : Univocal calls) {c : Condition} :
    (field, c) ∈ (build calls).written.tests ↔ (field, c) ∈ (build calls).tests := by
  have tidy := tidy_build calls
  have mem_calls (c : Condition) : (field, c) ∈ (build calls).tests ↔ (field, c) ∈ calls :=
    (tests_build calls).mem_iff
  rw [mem_tests_written tidy, ← mem_lastByKey, mem_lastByKey_of_unique, mem_calls,
    conditionsOn_build]
  · simp
  · simp only [conditionsOn_build, List.mem_map, List.mem_filter, decide_eq_true_eq]
    rintro _ ⟨⟨_, a⟩, ⟨hasA, rfl⟩, rfl⟩ _ ⟨⟨_, b⟩, ⟨hasB, rfl⟩, rfl⟩ sameKey
    exact congrArg Prod.snd (univocal _ hasA _ hasB rfl sameKey)

/-- What is written are conditions of the filter. -/
theorem tests_written_subset (f : Filter) : ∀ t ∈ f.written.tests, t ∈ f.tests := by
  rintro ⟨field, c⟩ present
  obtain ⟨entry, has, rfl, kept⟩ := mem_tests.1 present
  obtain ⟨source, inFilter, rfl⟩ := mem_written has
  exact mem_tests.2 ⟨source, inFilter, rfl, mem_of_lastByKey kept⟩

theorem holdsAll_written_of_univocal (univocal : Univocal calls) (payload : Payload) :
    holdsAll (build calls).written.fieldTests payload =
      holdsAll (build calls).fieldTests payload := by
  rw [Bool.eq_iff_iff, holdsAll_fieldTests, holdsAll_fieldTests]
  simp only [mem_tests_written_of_univocal univocal]

end Filter

/-! ## Streams -/

/-- A stream is read with the filter that was written. -/
theorem Stream.decoder_toJson (types : List String) {f : Filter} (tidy : f.Tidy)
    (valid : f.Valid) :
    Stream.decoder (Stream.toJson ⟨types, some f⟩) = .ok ⟨types, some f.written⟩ := by
  have readTypes : Decoder.list Decoder.string (.ofStrings types) = .ok types := by
    rw [Json.ofStrings, Decoder.list]
    induction types with
    | nil => rfl
    | cons type types ih =>
      rw [List.map_cons, List.mapM_cons, ih]
      rfl
  have readFilter : Decoder.optional Filter.decoder f.toJson = .ok (some f.written) := by
    have read := Filter.ofJson_toJson tidy valid
    rw [Filter.toJson_eq] at read ⊢
    simp [Decoder.optional, Filter.decoder, read, Except.mapError, Except.map]
  have members : Stream.toJson ⟨types, some f⟩ =
      .object [("filter", f.toJson), ("types", .ofStrings types)] := by
    have before : "filter" < "types" := by decide
    simp [Stream.toJson, Json.ofMembers, Json.insertMember, before]
  rw [members]
  simp [Stream.decoder, Record.decoder, Record.readMembers, Record.checkMembers, Record.required,
    Record.field, Record.pure, Json.member?, readTypes, readFilter, bind, Except.bind, pure,
    Except.pure, Except.map]

/-- Streams of the same types whose filters match the same hold of the same rows. -/
theorem Stream.holds_test_congr (types : List String) {f g : Filter}
    (same : ∀ payload, holdsAll g.fieldTests payload = holdsAll f.fieldTests payload)
    (type : String) (payload : Payload) :
    (Stream.test ⟨types, some g⟩).holds type payload =
      (Stream.test ⟨types, some f⟩).holds type payload := by
  by_cases typeless : types = []
  · simp [Stream.test, typeless]
  · simp [Stream.test, typeless, StreamTest.holds, Stream.tests, same]

namespace Store

variable {s : Store} {specs specs' : List Stream}

/-- Streams that hold of the same rows are read alike. -/
theorem run_streams_congr (some_specs : specs ≠ []) (some_specs' : specs' ≠ [])
    (compiled : Selection.compile specs = .ok (.ofStreams specs))
    (compiled' : Selection.compile specs' = .ok (.ofStreams specs'))
    (same : ∀ type payload,
      (Selection.ofStreams specs).holds type payload =
        (Selection.ofStreams specs').holds type payload) {after : Option EventId}
    (can : Statement.canSelect (.ofStreams specs) after)
    (can' : Statement.canSelect (.ofStreams specs') after) :
    (streams specs after).run s = (streams specs' after).run s := by
  have rows : s.tables.selected (.ofStreams specs) after =
      s.tables.selected (.ofStreams specs') after := by
    simp only [Tables.selected, same]
  simp only [Statement.canSelect, Bool.and_eq_true, Bool.not_eq_true'] at can can'
  rw [run_streams, run_streams, compiled, compiled']
  simp [some_specs, some_specs', can, can', rows]

/-- Streams that hold of the same rows guard alike. -/
theorem run_appendIfNoNewer_congr
    (compiled : Selection.compile specs = .ok (.ofStreams specs))
    (compiled' : Selection.compile specs' = .ok (.ofStreams specs'))
    (same : ∀ type payload,
      (Selection.ofStreams specs).holds type payload =
        (Selection.ofStreams specs').holds type payload) {drafts : List Draft} {floor : EventId}
    (can : Statement.canGuard drafts floor (.ofStreams specs))
    (can' : Statement.canGuard drafts floor (.ofStreams specs')) :
    (appendIfNoNewer drafts floor specs).run s = (appendIfNoNewer drafts floor specs').run s := by
  have rows : s.tables.selected (.ofStreams specs) (some floor) =
      s.tables.selected (.ofStreams specs') (some floor) := by
    simp only [Tables.selected, same]
  simp only [Statement.canGuard, Bool.and_eq_true, Bool.not_eq_true'] at can can'
  rw [run_appendIfNoNewer, run_appendIfNoNewer, compiled, compiled']
  simp [can, can', rows]

end Store

namespace Filter

variable {calls : List (String × Condition)}

/-- A valid filter that was built by any calls is read back from its JSON form as a
valid filter, and a stream with it as the same stream with that filter. It has, of
the calls with one field and one operator, the last, and so it matches whatever the
filter matched.

When no operator was used on a field with different operands, it matches nothing
else. Then the stream, among any others, is read with the same answer and guards
with the same effect, where the statements of both can be prepared. -/
theorem wire_round_trip (valid : (build calls).Valid) :
    ∃ g, ofJson (build calls).toJson = .ok g ∧ g.Valid ∧
      (∀ types, Stream.decoder (Stream.toJson ⟨types, some (build calls)⟩) =
        .ok ⟨types, some g⟩) ∧
      (∀ field c, (field, c) ∈ g.tests ↔
        (calls.filter fun call => call.1 = field ∧ call.2.key = c.key).getLast? =
          some (field, c)) ∧
      (∀ payload, holdsAll (build calls).fieldTests payload →
        holdsAll g.fieldTests payload) ∧
      (Univocal calls →
        (∀ payload, holdsAll g.fieldTests payload = holdsAll (build calls).fieldTests payload) ∧
        ∀ (types : List String) (others : List Stream), (∀ spec ∈ others, spec.Valid) →
          let sent := ⟨types, some (build calls)⟩ :: others
          let received := ⟨types, some g⟩ :: others
          ∀ s : Store,
            (∀ after, Statement.canSelect (.ofStreams sent) after →
              Statement.canSelect (.ofStreams received) after →
              (Store.streams received after).run s = (Store.streams sent after).run s) ∧
            ∀ drafts floor, Statement.canGuard drafts floor (.ofStreams sent) →
              Statement.canGuard drafts floor (.ofStreams received) →
              (Store.appendIfNoNewer drafts floor received).run s =
                (Store.appendIfNoNewer drafts floor sent).run s) := by
  have tidy := tidy_build calls
  refine ⟨(build calls).written, ofJson_toJson tidy valid, valid_written valid,
    fun types => Stream.decoder_toJson types tidy valid, fun _ _ => mem_tests_written_build,
    fun payload => holdsAll_of_subset (tests_written_subset _), fun univocal => ?_⟩
  have same := holdsAll_written_of_univocal univocal
  refine ⟨same, fun types others validOthers => ?_⟩
  intro sent received s
  have validSent : ∀ spec ∈ sent, spec.Valid :=
    List.forall_mem_cons.2 ⟨fun f given => Option.some.inj given ▸ valid, validOthers⟩
  have validReceived : ∀ spec ∈ received, spec.Valid :=
    List.forall_mem_cons.2
      ⟨fun f given => Option.some.inj given ▸ valid_written valid, validOthers⟩
  have holds (type : String) (payload : Payload) :
      (Selection.ofStreams received).holds type payload =
        (Selection.ofStreams sent).holds type payload := by
    exact congrArg (· || (Selection.ofStreams others).holds type payload)
      (Stream.holds_test_congr types same type payload)
  have compiledSent := Selection.compile_of_valid validSent
  have compiledReceived := Selection.compile_of_valid validReceived
  exact ⟨fun after can can' => Store.run_streams_congr (List.cons_ne_nil _ _)
      (List.cons_ne_nil _ _) compiledReceived compiledSent holds can' can,
    fun drafts floor can can' =>
      Store.run_appendIfNoNewer_congr compiledReceived compiledSent holds can' can⟩

/-- The integers 1 and 2 as operands. -/
def one : Number := .int 1 (by decide)

@[inherit_doc one]
def two : Number := .int 2 (by decide)

/-- Two fields, two operators on one of them. -/
def threeCalls : List (String × Condition) :=
  [("priority", .compare .gt (.number one)), ("listId", .compare .eq (.text "L1")),
    ("priority", .compare .lte (.number two))]

/-- Conditions on two fields come back, in another order, and match the same. -/
theorem wire_round_trip_three :
    ∃ g, ofJson (build threeCalls).toJson = .ok g ∧
      ∀ payload,
        holdsAll g.fieldTests payload = holdsAll (build threeCalls).fieldTests payload := by
  have valid : (build threeCalls).Valid := rfl
  obtain ⟨g, reads, -, -, -, -, same⟩ := wire_round_trip valid
  exact ⟨g, reads, (same (by decide)).1⟩

/-- Two lower bounds on one field, the stricter one first. -/
def twoBounds : List (String × Condition) :=
  [("a", .compare .gt (.number two)), ("a", .compare .gt (.number one))]

/-- Of two bounds on a field the first is lost, and a stream with the filter has an
event afterwards that it did not have. -/
theorem round_trip_widens :
    (build twoBounds).Valid ∧
      ∃ g, ofJson (build twoBounds).toJson = .ok g ∧
        (Stream.mk ["T"] (some (build twoBounds))).has "T" (.object [("a", .number two)]) = false ∧
        (Stream.mk ["T"] (some g)).has "T" (.object [("a", .number two)]) = true := by
  have valid : (build twoBounds).Valid := rfl
  refine ⟨valid, (build twoBounds).written, ofJson_toJson (tidy_build _) valid, ?_, ?_⟩
  · decide +kernel
  · decide +kernel

end Filter

end Chronicle
