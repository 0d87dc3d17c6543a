import Chronicle.Proofs.Client.Writes
import Chronicle.Proofs.Json.Records
import Chronicle.Proofs.Number.Nearest
import Chronicle.Todo.Event

/-!
# Writing and reading to-do events

An event is split into its type and data, and read from them again. What is read from
a payload is what its declared members show (`Event.Shown`, `Event.ofRaw_iff`). Two
things follow. An event reads from what it is split into exactly when it has no
float that is not finite (`Event.Finite`), so a client that writes it gets it back as
its row is read, or writes nothing. And a payload that reads as an event is split into
again up to what the event does not tell: members that are not declared, whether a float
was given as an integer, and whether a missing text was given as null (`Event.kept`).
Both are `Event.round_trip`.

A row is read from its text, and then a float can be another one (`Event.reread`). So
what comes back of an event need not be the event (`Event.float_comes_back_other`).
-/

namespace Chronicle

/-! ## Scalars -/

namespace Decoder

theorem string_eq_ok {value : Json} {s : String} : string value = .ok s ↔ value = .string s := by
  cases value <;> simp [string]

theorem bool_eq_ok {value : Json} {b : Bool} : bool value = .ok b ↔ value = .bool b := by
  cases value <;> simp [bool]

theorem double_eq_ok {value : Json} {x : Double} :
    double value = .ok x ↔ ∃ n : Number, value = .number n ∧ x = n.toDouble := by
  cases value <;> simp [double, eq_comm]

theorem optional_string_eq_ok {value : Json} {s : Option String} :
    optional string value = .ok s ↔ value = s.elim .null .string := by
  cases value <;> cases s <;> simp [optional, string, Except.map]

/-- A word of 64 bits is read from the integer that it stands for. -/
theorem int64_eq_ok {value : Json} {x : Int64} :
    int64 value = .ok x ↔ value = .ofInt x.toInt := by
  have low := x.le_toInt
  have high := x.toInt_lt
  have written : Json.ofInt x.toInt = .number (.int x.toInt ⟨by omega, by omega⟩) := by
    rw [Json.ofInt, Number.ofInt?, dif_pos]
  rw [written]
  constructor
  · intro read
    cases value with
    | number n =>
      cases n with
      | int n inRange =>
        rw [int64, integer] at read
        by_cases fits : IntegerRange.int64.low ≤ n ∧ n ≤ IntegerRange.int64.high
        · rw [if_pos fits] at read
          obtain rfl := Except.ok.inj read
          have back : (Int64.ofInt n).toInt = n :=
            Int64.toInt_ofInt_of_le fits.1 (Int.lt_add_one_of_le fits.2)
          simp only [back]
        · rw [if_neg fits] at read
          cases read
      | float => cases read
    | _ => cases read
  · rintro rfl
    have fits : IntegerRange.int64.low ≤ x.toInt ∧ x.toInt ≤ IntegerRange.int64.high :=
      ⟨low, Int.le_of_lt_add_one high⟩
    simp only [int64, integer, if_pos fits]
    rw [Except.map, Int64.ofInt_toInt]

end Decoder

namespace Todo.Event

/-! ## What a payload shows -/

/-- The names of the members that the data of an event may have. -/
def declared : Event → List String
  | listCreated .. => ["tenantId", "listId", "name"]
  | listDeleted .. => ["listId"]
  | itemAdded .. => ["listId", "itemId", "title"]
  | itemRemoved .. | itemCompleted .. | itemMarkedIncomplete .. =>
    ["tenantId", "listId", "itemId"]
  | itemCompletionSet .. => ["tenantId", "listId", "itemId", "completed"]
  | itemPrioritySet .. => ["tenantId", "listId", "itemId", "priority"]
  | sample .. => ["tenantId", "stringField", "numberField", "booleanField", "optionalField"]

/-- What members have to show for an event to be read from them. -/
def Shown (get : String → Option Json) : Event → Prop
  | listCreated tenant list name =>
    get "tenantId" = some (.string tenant) ∧ get "listId" = some (.string list) ∧
      get "name" = some (.string name)
  | listDeleted list => get "listId" = some (.string list)
  | itemAdded list item title =>
    get "listId" = some (.string list) ∧ get "itemId" = some (.string item) ∧
      get "title" = some (.string title)
  | itemRemoved tenant list item | itemCompleted tenant list item
  | itemMarkedIncomplete tenant list item =>
    get "tenantId" = some (.string tenant) ∧ get "listId" = some (.string list) ∧
      get "itemId" = some (.string item)
  | itemCompletionSet tenant list item completed =>
    get "tenantId" = some (.string tenant) ∧ get "listId" = some (.string list) ∧
      get "itemId" = some (.string item) ∧ get "completed" = some (.bool completed)
  | itemPrioritySet tenant list item priority =>
    get "tenantId" = some (.string tenant) ∧ get "listId" = some (.string list) ∧
      get "itemId" = some (.string item) ∧ get "priority" = some (.ofInt priority.toInt)
  | sample tenant text number flag extra =>
    get "tenantId" = some (.string tenant) ∧ get "stringField" = some (.string text) ∧
      (∃ n : Number, get "numberField" = some (.number n) ∧ number = n.toDouble) ∧
      get "booleanField" = some (.bool flag) ∧
      (get "optionalField" = some (extra.elim .null .string) ∨
        get "optionalField" = none ∧ extra = none)

open Decoder in
/-- The data of each type are read as a record, and what it is built from shows the
event. -/
theorem variant_record {type : String} {read : Decoder Event}
    (variant : (type, read) ∈ variants) :
    ∃ (r : Record Event) (name : String), read = r.objectDecoder name ∧ r.Sound ∧
      ∀ get e, r.build get = .ok e ↔ e.type = type ∧ e.Shown get := by
  simp only [variants, List.mem_cons, Prod.mk.injEq, List.not_mem_nil, or_false] at variant
  rcases variant with ⟨rfl, rfl⟩ | ⟨rfl, rfl⟩ | ⟨rfl, rfl⟩ | ⟨rfl, rfl⟩ | ⟨rfl, rfl⟩ | ⟨rfl, rfl⟩ |
    ⟨rfl, rfl⟩ | ⟨rfl, rfl⟩ | ⟨rfl, rfl⟩
  -- Each record is built from one field after another, as `Shown` lists them.
  all_goals
    refine ⟨_, _, rfl, ?_, fun get e => ?_⟩
    · repeat first | exact Record.sound_pure _ | apply Record.Sound.field
    simp only [withItem, withTenant, Record.build_required_eq_ok, Record.build_field_eq_ok,
      Record.pure, string_eq_ok, bool_eq_ok, int64_eq_ok, double_eq_ok, optional_string_eq_ok]
    cases e <;> simp [Event.type, Shown, and_assoc]
  grind

theorem type_known (e : Event) : ∃ read, (e.type, read) ∈ variants := by
  cases e <;> exact ⟨_, by simp [variants, Event.type]; rfl⟩

/-- Nothing is read where there are no members. -/
theorem not_shown_none (e : Event) : ¬ e.Shown fun _ => none := by
  cases e <;> simp [Shown]

/-- What is read from a payload is the event of its type that the payload shows. -/
theorem ofRaw_iff {type : String} {data : Json} (canonical : data.Canonical) {e : Event} :
    DomainEvent.ofRaw type data = .ok e ↔
      e.type = type ∧ e.Shown fun name => data.member? name := by
  rw [DomainEvent.ofRaw_eq_ok]
  show Decoder.tagged variants (Json.tagged type data) = .ok e ↔ _
  rw [Decoder.tagged_tagged]
  cases found : variants.find? (·.1 = type) with
  | none =>
    obtain ⟨read, known⟩ := e.type_known
    have apart : e.type ≠ type := by
      simpa using List.find?_eq_none.1 found (e.type, read) known
    simp [apart]
  | some variant =>
    obtain ⟨name, read⟩ := variant
    obtain rfl : name = type := by simpa using List.find?_some found
    obtain ⟨r, wanted, rfl, sound, built⟩ := variant_record (List.mem_of_find?_eq_some found)
    cases data with
    | object members =>
      show r.readMembers members = .ok e ↔ _
      rw [Record.readMembers_eq_ok sound canonical.1, built]
    | _ => simp [Record.objectDecoder, Json.member?, not_shown_none]

/-! ## What an event is split into -/

/-- An event without a float that is not finite. -/
def Finite : Event → Prop
  | sample _ _ number _ _ => ∃ x, number = .finite x
  | _ => True

/-- The data that an event is written with. -/
def data (e : Event) : Json := .ofMembers e.members

theorem toDraft_eq (e : Event) : DomainEvent.toDraft e = .ok ⟨e.type, e.data⟩ := by
  have content : (Json.tagged e.type e.data).member? "data" = some e.data := by
    simp [Json.tagged, Json.ofMembers]
  show Draft.ofTagged e.type (Json.tagged e.type e.data) = _
  rw [Json.tagged, Json.ofMembers] at content ⊢
  rw [Draft.ofTagged, content]
  rfl

theorem members_flat (e : Event) : ∀ m ∈ e.members, m.2.Canonical ∧ m.2.depth = 0 := by
  cases e
  case itemPrioritySet =>
    simp only [members, Json.ofInt]
    split <;> simp [Json.Canonical, Json.depth]
  case sample tenant text number flag extra =>
    cases number <;> cases extra <;> simp [members, floatJson, Json.Canonical, Json.depth]
  all_goals simp [members, Json.Canonical, Json.depth]

theorem canonical_data (e : Event) : e.data.Canonical :=
  Json.canonical_ofMembers fun m present => (e.members_flat m present).1

theorem legible_data (e : Event) : e.data.Legible := by
  have flat : e.data.depth ≤ 0 + 1 :=
    Json.depth_ofMembers_le fun m present => (e.members_flat m present).2.le
  exact flat.trans (by decide)

theorem member?_nil (name : String) : (Json.object []).member? name = none := rfl

theorem floatJson_eq_number {number : Double} {n : Number} :
    floatJson number = .number n ↔ ∃ x, number = .finite x ∧ n = .float x := by
  cases number <;> simp [floatJson, eq_comm]

/-- An event is seen in its own data unless its float is written as null. -/
theorem shown_data {e : Event} : e.Shown (fun name => e.data.member? name) ↔ e.Finite := by
  cases e
  case sample tenant text number flag extra =>
    have float : (∃ n : Number, floatJson number = .number n ∧ number = n.toDouble) ↔
        ∃ x, number = .finite x := by
      simp only [floatJson_eq_number]
      constructor
      · rintro ⟨_, ⟨x, same, -⟩, -⟩
        exact ⟨x, same⟩
      · rintro ⟨x, rfl⟩
        exact ⟨.float x, ⟨x, rfl, rfl⟩, rfl⟩
    cases extra <;>
      simp [Shown, Finite, data, members, Json.ofMembers, member?_nil, float]
  all_goals simp [Shown, Finite, data, members, Json.ofMembers]

/-- A number as a float. -/
def asFloat : Json → Json
  | .number (.int n _) => floatJson (.ofInt n)
  | value => value

/-- Nothing for null. -/
def unlessNull : Json → Option Json
  | .null => none
  | value => some value

/-- What stands under a name when an event is written again. -/
def kept (e : Event) (name : String) (value : Json) : Option Json :=
  if name ∉ e.declared then none
  else if name = "numberField" then some (asFloat value)
  else if name = "optionalField" then unlessNull value
  else some value

theorem member?_data_of_undeclared {e : Event} {name : String} (other : name ∉ e.declared) :
    e.data.member? name = none := by
  cases e
  case sample tenant text number flag extra =>
    cases extra <;> simp_all [declared, data, members, Json.ofMembers, member?_nil]
  all_goals simp_all [declared, data, members, Json.ofMembers, member?_nil]

theorem member?_data {e : Event} {get : String → Option Json} (shown : e.Shown get)
    (name : String) : e.data.member? name = (get name).bind (e.kept name) := by
  by_cases known : name ∈ e.declared
  · cases e
    case sample tenant text number flag extra =>
      obtain ⟨gotTenant, gotText, ⟨n, gotNumber, rfl⟩, gotFlag, gotExtra⟩ := shown
      have float : asFloat (.number n) = floatJson n.toDouble := by
        cases n <;> rfl
      simp only [declared, List.mem_cons, List.not_mem_nil, or_false] at known
      rcases known with rfl | rfl | rfl | rfl | rfl
      case inr.inr.inr.inr =>
        rcases gotExtra with got | ⟨got, rfl⟩
        · cases extra <;>
            simp [data, members, Json.ofMembers, got, kept, declared, member?_nil, unlessNull]
        · simp [data, members, Json.ofMembers, got, member?_nil]
      all_goals
        cases extra <;> simp [data, members, Json.ofMembers, kept, declared, *]
    all_goals
      simp only [Shown] at shown
      simp only [declared, List.mem_cons, List.not_mem_nil, or_false] at known
      rcases known with rfl | rfl | rfl | rfl
      all_goals simp [data, members, Json.ofMembers, kept, declared, shown]
  · have dropped : e.kept name = fun _ => none := funext fun _ => if_pos known
    rw [member?_data_of_undeclared known, dropped, Option.bind_fun_none]

/-- A payload that shows an event, as the event is written. -/
theorem data_of_shown {e : Event} {data : Json} (canonical : data.Canonical)
    (shown : e.Shown fun name => data.member? name) : e.data = data.mapMembers e.kept := by
  cases data with
  | object members =>
    refine congrArg Json.object (Json.members_ext (Json.pairwise_ofMembers e.members)
      (Json.pairwise_mapMembers canonical.1) fun name => ?_)
    rw [← Json.ofMembers]
    show e.data.member? name = ((Json.object members).mapMembers e.kept).member? name
    rw [member?_data shown, Json.member?_mapMembers canonical.1]
  | _ => exact absurd shown (not_shown_none e)

/-- An event without a float that is not finite reads back from what it is split into. -/
theorem ofRaw_of_finite {e : Event} (finite : e.Finite) :
    DomainEvent.ofRaw e.type e.data = .ok e :=
  (ofRaw_iff e.canonical_data).2 ⟨rfl, shown_data.2 finite⟩

/-- From what any other event is split into no event is read. -/
theorem ofRaw_of_infinite {e : Event} (infinite : ¬ e.Finite) :
    ∃ text, DomainEvent.ofRaw (E := Event) e.type e.data = .error (.validation text) := by
  refine DomainEvent.ofRaw_of_misfit fun other read => ?_
  obtain ⟨typed, shown⟩ := (ofRaw_iff e.canonical_data).1 read
  cases e
  case sample tenant text number flag extra =>
    cases other
    case sample =>
      obtain ⟨-, -, ⟨n, found, -⟩, -⟩ := shown
      have float : floatJson number = .number n := by
        cases extra <;> simpa [data, members, Json.ofMembers] using found
      obtain ⟨x, same, -⟩ := floatJson_eq_number.1 float
      exact infinite ⟨x, same⟩
    all_goals simp [Event.type] at typed
  all_goals exact infinite trivial

/-! ## What comes back -/

/-- The event that the row of an event is read as. -/
def reread : Event → Event
  | sample tenant text (.finite x) flag extra =>
    sample tenant text (Number.float x).reread.toDouble flag extra
  | e => e

theorem type_reread (e : Event) : e.reread.type = e.type := by
  unfold reread
  split <;> rfl

/-- Nothing but a float can be another. -/
theorem reread_cases (e : Event) : e.reread = e ∨
    ∃ tenant text x flag extra, e = sample tenant text (.finite x) flag extra ∧
      e.reread = sample tenant text (Number.float x).reread.toDouble flag extra := by
  unfold reread
  split
  · exact .inr ⟨_, _, _, _, _, rfl, rfl⟩
  · exact .inl rfl

/-- A float comes back as a finite one. -/
theorem finite_reread {e : Event} (finite : e.Finite) : e.reread.Finite := by
  unfold reread
  split
  · rename_i x _ _
    obtain ⟨y, same⟩ := Number.exists_reread_float x
    exact ⟨y, by rw [same]; rfl⟩
  · exact finite

theorem reread_ofInt (n : Int) : (Json.ofInt n).reread = .ofInt n := by
  unfold Json.ofInt Number.ofInt?
  split_ifs with inRange
  · exact congrArg Json.number (Number.reread_int inRange)
  · rfl

theorem shown_reread {e : Event} (finite : e.Finite) :
    e.reread.Shown fun name => e.data.reread.member? name := by
  simp only [Json.member?_reread]
  cases e
  case sample tenant text number flag extra =>
    obtain ⟨x, rfl⟩ := finite
    have float : (floatJson (.finite x)).reread = .number (Number.float x).reread := rfl
    cases extra <;>
      simp [Shown, reread, data, members, Json.ofMembers, member?_nil, float]
  all_goals simp [Shown, reread, data, members, Json.ofMembers, reread_ofInt]

/-- What is read of a row is an event when it was one that was written. -/
theorem ofRaw_reread {e : Event} (finite : e.Finite) :
    DomainEvent.ofRaw e.type e.data.reread = .ok e.reread :=
  (ofRaw_iff (Json.canonical_reread e.canonical_data)).2 ⟨e.type_reread, shown_reread finite⟩

theorem lasting {e : Event} (finite : e.Finite) (same : e.reread = e) : Client.Lasting e := by
  refine ⟨_, e.toDraft_eq, e.legible_data, ⟨e, ofRaw_of_finite finite⟩, ?_⟩
  rw [ofRaw_reread finite, same]

/-! ## The round trip -/

/-- An integer is kept as the float nearest to it. -/
theorem asFloat_int (n : Int) (inRange : -9223372036854775808 ≤ n ∧ n ≤ 18446744073709551615) :
    ∃ x : Binary, asFloat (.number (.int n inRange)) = .number (.float x) ∧ x.IsNearest n := by
  obtain ⟨x, rounded, near⟩ := Double.ofInt_isNearest (n := n) (by omega)
  exact ⟨x, by rw [asFloat, rounded, floatJson], near⟩

/-- What comes back of an event is what the answer to its append holds, and the store
decides alone whether there is one. -/
theorem append_of_finite {e : Event} (finite : e.Finite) (s : Store) :
    ((∃ recorded t, (Client.append e).run s = (.ok recorded, t) ∧ recorded.event = e.reread ∧
        t.tables = s.tables.push [Draft.stored ⟨e.type, e.data⟩ recorded.id s.now]) ∨
      ∃ fault t, (Client.append e).run s = (.error fault, t) ∧ t.tables = s.tables) ∧
      (s.InService → ∃ recorded, ((Client.append e).run s).1 = .ok recorded) := by
  have asked := Client.run_append_of_fits e.toDraft_eq ⟨e, ofRaw_of_finite finite⟩ s
  have decoded (id : EventId) (now : Instant) :
      Recorded.decode (Draft.stored ⟨e.type, e.data⟩ id now).reread =
        .ok ⟨id, e.reread, now, now⟩ := by
    have back := ofRaw_reread finite
    rw [Recorded.decode, StoredEvent.reread, Draft.stored, back]
    rfl
  rw [decoded] at asked
  constructor
  · rcases ran : (Store.appendBatch [⟨e.type, e.data⟩]).run s with ⟨answer, t⟩
    rw [ran] at asked
    cases answer with
    | error fault =>
      have kept := (Store.appends_appendBatch _).of_error ran
      exact .inr ⟨fault, t, asked, congrArg Prod.fst kept⟩
    | ok rows =>
      obtain ⟨-, grown, -⟩ := (Store.appends_appendBatch _).of_ok ran
      exact .inl ⟨_, t, asked, rfl, grown⟩
  · intro service
    have legible : ∀ draft ∈ [(⟨e.type, e.data⟩ : Draft)], draft.data.Legible :=
      List.forall_mem_singleton.2 e.legible_data
    obtain ⟨t, ran, -⟩ := Store.appendBatch_of_service service legible
    rw [asked, ran]
    exact ⟨_, rfl⟩

/-- An event reads from the type and data that it is split into when it has no float that
is not finite, and otherwise that fails as a misfit. So a client that appends it answers
with the event as it comes back, with its row after all others, or leaves the tables as
they were; with a float that is not finite the store is not asked, and without one a
store in service answers. What comes back has no such float either, and all but its float
is that of the event.

Conversely, a payload that reads as an event has its type, and the event is split into
the payload's declared members, an integer in the place of a float as the float nearest
to it, and null in the place of a text that may be missing left out. -/
theorem round_trip :
    (∀ e : Event, ∃ draft, DomainEvent.toDraft e = .ok draft ∧
      (e.Finite → DomainEvent.ofRaw draft.type draft.data = .ok e) ∧
      (¬ e.Finite → ∃ text,
        DomainEvent.ofRaw (E := Event) draft.type draft.data = .error (.validation text)) ∧
      ∀ s : Store,
        ((∃ recorded t, (Client.append e).run s = (.ok recorded, t) ∧
            recorded.event = e.reread ∧
            t.tables = s.tables.push [draft.stored recorded.id s.now]) ∨
          ∃ fault t, (Client.append e).run s = (.error fault, t) ∧ t.tables = s.tables) ∧
        (¬ e.Finite → ∃ text, (Client.append e).run s = (.error (.validation text), s)) ∧
        (e.Finite → s.InService → ∃ recorded, ((Client.append e).run s).1 = .ok recorded)) ∧
    (∀ e : Event, (e.Finite → e.reread.Finite) ∧ (e.reread = e ∨
      ∃ tenant text x flag extra, e = sample tenant text (.finite x) flag extra ∧
        e.reread = sample tenant text (Number.float x).reread.toDouble flag extra)) ∧
    (∀ (type : String) (data : Json) (e : Event), data.Canonical →
      DomainEvent.ofRaw type data = .ok e →
      DomainEvent.typeOf e = type ∧
        DomainEvent.toDraft e = .ok ⟨type, data.mapMembers e.kept⟩) ∧
    ∀ (n : Int) (inRange : -9223372036854775808 ≤ n ∧ n ≤ 18446744073709551615),
      ∃ x : Binary, asFloat (.number (.int n inRange)) = .number (.float x) ∧ x.IsNearest n := by
  refine ⟨fun e => ⟨_, e.toDraft_eq, ofRaw_of_finite, ofRaw_of_infinite, fun s => ?_⟩,
    fun e => ⟨finite_reread, e.reread_cases⟩, ?_, asFloat_int⟩
  · by_cases finite : e.Finite
    · obtain ⟨outcome, answers⟩ := append_of_finite finite s
      exact ⟨outcome, fun infinite => absurd finite infinite, fun _ => answers⟩
    · obtain ⟨text, misfits⟩ := ofRaw_of_infinite finite
      have refused := Client.run_append_of_misfit e.toDraft_eq misfits s
      exact ⟨.inr ⟨_, s, refused, rfl⟩, fun _ => ⟨text, refused⟩,
        fun isFinite => absurd isFinite finite⟩
  · intro type data e canonical read
    obtain ⟨rfl, shown⟩ := (ofRaw_iff canonical).1 read
    exact ⟨rfl, by rw [toDraft_eq, data_of_shown canonical shown]⟩

/-- A payload with an integer for the float, null for the missing text and a member
that is not declared reads as an event, and the event is written. With a float that is
not a number it is not. -/
theorem round_trip_sample :
    DomainEvent.toDraft (sample "t" "a" (.ofInt 3) true none) =
        .ok ⟨"EXAMPLE_EVENT", (Json.ofMembers
          [("tenantId", .string "t"), ("stringField", .string "a"),
            ("numberField", .number (.int 3 (by decide))), ("booleanField", .bool true),
            ("optionalField", .null), ("note", .string "b")]).mapMembers
          (sample "t" "a" (.ofInt 3) true none).kept⟩ ∧
      (∃ recorded,
        ((Client.append (sample "t" "a" (.ofInt 3) true none)).run (Store.new default)).1 =
          .ok recorded) ∧
      ∃ text, (Client.append (sample "t" "a" .nan true none)).run (Store.new default) =
        (.error (.validation text), Store.new default) := by
  have canonical : (Json.ofMembers
      [("tenantId", .string "t"), ("stringField", .string "a"),
        ("numberField", .number (.int 3 (by decide))), ("booleanField", .bool true),
        ("optionalField", .null), ("note", .string "b")]).Canonical :=
    Json.canonical_ofMembers (by simp [Json.Canonical])
  refine ⟨(round_trip.2.2.1 "EXAMPLE_EVENT" _ _ canonical ?_).2, ?_, ?_⟩
  · refine (ofRaw_iff canonical).2 ⟨rfl, ?_⟩
    simp [Shown, Json.ofMembers, Number.toDouble]
  · obtain ⟨draft, -, -, -, written⟩ := round_trip.1 (sample "t" "a" (.ofInt 3) true none)
    obtain ⟨x, rounded, -⟩ := Double.ofInt_isNearest (n := 3) (by decide)
    exact (written _).2.2 ⟨x, rounded⟩ (Store.inService_new default)
  · obtain ⟨draft, -, -, -, written⟩ := round_trip.1 (sample "t" "a" .nan true none)
    exact (written _).2.1 (by simp [Finite])

/-- An event with a float that is read as the one before it. It is what is read from what it
is split into, but its append answers with another event. -/
theorem float_comes_back_other :
    let e := sample "t" "a" (.finite .roundFloat) true none
    DomainEvent.ofRaw e.type e.data = .ok e ∧
      ∃ recorded t, (Client.append e).run (Store.new default) = (.ok recorded, t) ∧
        recorded.event = sample "t" "a" (.finite .beforeRound) true none ∧ recorded.event ≠ e := by
  intro e
  have finite : e.Finite := ⟨_, rfl⟩
  obtain ⟨outcome, answers⟩ := append_of_finite finite (Store.new default)
  obtain ⟨given, answered⟩ := answers (Store.inService_new default)
  have back : e.reread = sample "t" "a" (.finite .beforeRound) true none := by
    rw [reread, Number.reread_roundFloat]
    rfl
  refine ⟨ofRaw_of_finite finite, ?_⟩
  rcases outcome with ⟨recorded, t, ran, same, -⟩ | ⟨fault, t, ran, -⟩
  · refine ⟨recorded, t, ran, same.trans back, ?_⟩
    rw [same, back]
    simp [e, Binary.beforeRound, Binary.roundFloat]
  · rw [ran] at answered
    cases answered

end Todo.Event

end Chronicle
