import Chronicle.Event.Domain
import Chronicle.Proofs.Query.Fields
import Chronicle.Proofs.Runner.Reads

/-!
# Reading records

A record is read from an object when what is declared is there and fits; members that
are not declared do not matter. Reading goes twice over an object: first each member
is checked against its field, then the value is built from the members. The first pass
refuses nothing that the second accepts (`Record.Sound`), so that building alone says
what is read (`Record.readMembers_eq_ok`).

A tagged form reads as its data do under its type (`Decoder.tagged_tagged`), and events
are read from a type and a payload accordingly (`DomainEvent.ofRaw_eq_ok`).
-/

namespace Chronicle

/-! ## Members of an object -/

namespace Json

/-- Members that are in order are determined by what the names give. -/
theorem members_ext {members others : List (String × Json)}
    (sorted : members.Pairwise (·.1 < ·.1)) (sortedOthers : others.Pairwise (·.1 < ·.1))
    (same : ∀ name, (object members).member? name = (object others).member? name) :
    members = others := by
  have apart {items : List (String × Json)} (sorted : items.Pairwise (·.1 < ·.1)) :
      items.Nodup := (nodup_of_sorted sorted).of_map
  have permuted : members.Perm others := by
    refine (List.perm_ext_iff_of_nodup (apart sorted) (apart sortedOthers)).2 ?_
    rintro ⟨name, value⟩
    rw [← member?_object sorted, ← member?_object sortedOthers, same]
  exact permuted.eq_of_pairwise (fun _ _ _ _ less more => absurd more (lt_asymm less)) sorted
    sortedOthers

theorem pairwise_ofMembers (members : List (String × Json)) :
    (members.foldl (fun sorted m => insertMember m.1 m.2 sorted) []).Pairwise (·.1 < ·.1) := by
  induction members using List.reverseRecOn with
  | nil => exact .nil
  | append_singleton members last ih =>
    rw [List.foldl_append]
    exact pairwise_insertMember last.1 last.2 ih

theorem depthOfMembers_le_iff {members : List (String × Json)} {n : Nat} :
    depthOfMembers members ≤ n ↔ ∀ m ∈ members, m.2.depth ≤ n := by
  induction members with
  | nil => simp [depthOfMembers]
  | cons m members ih => simp [depthOfMembers, ih]

theorem depth_ofMembers_le {members : List (String × Json)} {n : Nat}
    (each : ∀ m ∈ members, m.2.depth ≤ n) : (ofMembers members).depth ≤ n + 1 := by
  rw [ofMembers, depth]
  refine Nat.succ_le_succ (depthOfMembers_le_iff.2 ?_)
  induction members using List.reverseRecOn with
  | nil => simp
  | append_singleton members last ih =>
    intro m present
    rw [List.foldl_append] at present
    rcases mem_insertMember present with rfl | earlier
    · exact each last (by simp)
    · exact ih (fun m inFront => each m (List.mem_append_left _ inFront)) m earlier

/-- The members of an object that are kept, with the values that they are kept with. -/
def mapMembers (keep : String → Json → Option Json) : Json → Json
  | .object members =>
    .object (members.filterMap fun m => (keep m.1 m.2).map fun value => (m.1, value))
  | value => value

section MapMembers

variable {keep : String → Json → Option Json} {members : List (String × Json)}

theorem pairwise_mapMembers (sorted : members.Pairwise (·.1 < ·.1)) :
    (members.filterMap fun m => (keep m.1 m.2).map fun value => (m.1, value)).Pairwise
      (·.1 < ·.1) := by
  refine sorted.filterMap _ ?_
  rintro ⟨name, value⟩ ⟨other, second⟩ less m kept m' kept'
  obtain ⟨_, -, rfl⟩ := Option.map_eq_some_iff.1 kept
  obtain ⟨_, -, rfl⟩ := Option.map_eq_some_iff.1 kept'
  exact less

theorem member?_mapMembers (sorted : members.Pairwise (·.1 < ·.1)) (name : String) :
    ((object members).mapMembers keep).member? name =
      ((object members).member? name).bind (keep name) := by
  refine Option.ext fun value => ?_
  rw [mapMembers, member?_object (pairwise_mapMembers sorted), Option.bind_eq_some_iff]
  simp only [member?_object sorted, List.mem_filterMap, Option.map_eq_some_iff, Prod.mk.injEq,
    Prod.exists]
  constructor
  · rintro ⟨_, old, present, _, kept, rfl, rfl⟩
    exact ⟨old, present, kept⟩
  · rintro ⟨old, present, kept⟩
    exact ⟨name, old, present, value, kept, rfl, rfl⟩

end MapMembers

end Json

/-! ## Fields -/

namespace Record

variable {α β : Type} {r : Record (α → β)} {get : String → Option Json} {name : String}
  {read : Decoder α}

/-- What a field that may be missing adds to a value. -/
theorem build_field_eq_ok {fallback : Option α} {b : β} :
    (r.field name read fallback).build get = .ok b ↔
      ∃ make a, r.build get = .ok make ∧ b = make a ∧
        ((∃ value, get name = some value ∧ read value = .ok a) ∨
          get name = none ∧ fallback = some a) := by
  show (r.build get >>= _) = _ ↔ _
  rw [bind_eq_ok]
  refine exists_congr fun make => ?_
  cases found : get name with
  | none =>
    cases fallback with
    | none => simp
    | some a => simp [Pure.pure, Except.pure, eq_comm]
  | some value =>
    simp only [bind_eq_ok, Pure.pure, Except.pure, Except.ok.injEq]
    constructor
    · rintro ⟨built, a, fits, same⟩
      exact ⟨a, built, same.symm, .inl ⟨value, rfl, fits⟩⟩
    · rintro ⟨a, built, same, ⟨other, same_value, fits⟩ | ⟨absent, -⟩⟩
      · obtain rfl := Option.some.inj same_value
        exact ⟨built, a, fits, same.symm⟩
      · cases absent

/-- What a field that has to be there adds to a value. -/
theorem build_required_eq_ok {b : β} :
    (r.required name read).build get = .ok b ↔
      ∃ make a, r.build get = .ok make ∧ b = make a ∧
        ∃ value, get name = some value ∧ read value = .ok a := by
  rw [required, build_field_eq_ok]
  simp

/-- What a value is built from fits the fields. -/
structure Sound (r : Record α) : Prop where
  fits : ∀ get a, r.build get = .ok a → ∀ shape ∈ r.fields, ∀ value,
    get shape.name = some value → shape.check value = .ok ()

theorem sound_pure (a : α) : (Record.pure a).Sound where
  fits _ _ _ shape present := by simp [Record.pure] at present

theorem Sound.field (sound : r.Sound) (name : String) (read : Decoder α) (fallback : Option α) :
    (r.field name read fallback).Sound := by
  refine ⟨fun get b built shape present value found => ?_⟩
  obtain ⟨make, a, builtFront, -, given⟩ := build_field_eq_ok.1 built
  rcases List.mem_append.1 present with earlier | last
  · exact sound.fits get make builtFront shape earlier value found
  · obtain rfl := List.mem_singleton.1 last
    rcases given with ⟨other, foundOther, fits⟩ | ⟨absent, -⟩
    · obtain rfl : other = value := Option.some.inj (foundOther.symm.trans found)
      show (read other).map _ = _
      rw [fits]
      rfl
    · cases absent.symm.trans found

end Record

namespace Record

variable {α : Type} {r : Record α} {members : List (String × Json)} {a : α}

/-- A record is read from an object when it can be built from the members. -/
theorem readMembers_eq_ok (sound : r.Sound) (sorted : members.Pairwise (·.1 < ·.1)) :
    r.readMembers members = .ok a ↔
      r.build (fun name => (Json.object members).member? name) = .ok a := by
  rw [readMembers, bind_eq_ok]
  refine ⟨fun ⟨_, _, built⟩ => built, fun built => ⟨(), forM_eq_ok.2 ?_, built⟩⟩
  rintro ⟨name, value⟩ present
  dsimp only
  cases declared : r.fields.find? (·.name = name) with
  | none => rfl
  | some shape =>
    have named : shape.name = name := by simpa using List.find?_some declared
    exact sound.fits _ a built shape (List.mem_of_find?_eq_some declared) value
      (named ▸ (Json.member?_object sorted).2 present)

end Record

/-! ## Tagged forms -/

/-- A tagged form reads as its data do under its type. -/
theorem Decoder.tagged_tagged {α : Type} (variants : List (String × Decoder α)) (type : String)
    (data : Json) :
    Decoder.tagged variants (Json.tagged type data) =
      match variants.find? (·.1 = type) with
      | none => .error (.unknownVariant type (variants.map (·.1)))
      | some (_, read) => read data := by
  have tag : (Json.tagged type data).member? "type" = some (.string type) := by
    simp [Json.tagged, Json.ofMembers]
  have content : (Json.tagged type data).member? "data" = some data := by
    simp [Json.tagged, Json.ofMembers]
  simp only [Decoder.tagged, tag, content]
  rfl

theorem DomainEvent.ofRaw_eq_ok {E : Type} [DomainEvent E] {type : String} {data : Json} {e : E} :
    ofRaw type data = .ok e ↔ ofTagged (Json.tagged type data) = .ok e := by
  rw [ofRaw]
  cases ofTagged (E := E) (Json.tagged type data) <;> simp [Except.mapError]

/-- A payload that does not read as an event is a validation fault. -/
theorem DomainEvent.ofRaw_of_misfit {E : Type} [DomainEvent E] {type : String} {data : Json}
    (misfits : ∀ e : E, ofRaw type data ≠ .ok e) :
    ∃ text, ofRaw (E := E) type data = .error (.validation text) := by
  rw [ofRaw] at misfits ⊢
  cases read : ofTagged (E := E) (Json.tagged type data) with
  | ok e => exact absurd (by rw [read]; rfl) (misfits e)
  | error mismatch => exact ⟨_, rfl⟩

end Chronicle
