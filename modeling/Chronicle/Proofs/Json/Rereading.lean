import Chronicle.Proofs.Number.Rereading

/-!
# Values read back from their text

Every value can be read back (`Json.reread?_eq`), and comes back with the structure, the
names, the texts and the integers that it had (`Json.reread`, `Json.member?_reread`): its
floats alone may be others. There are values that do not come back as they were
(`Json.reread_roundData`).
-/

namespace Chronicle

namespace Json

mutual

/-- The value that a value is read back as. -/
def reread : Json → Json
  | .number n => .number n.reread
  | .array items => .array (rereadItems items)
  | .object members => .object (rereadMembers members)
  | other => other

def rereadItems : List Json → List Json
  | [] => []
  | item :: items => reread item :: rereadItems items

def rereadMembers : List (String × Json) → List (String × Json)
  | [] => []
  | (name, value) :: members => (name, reread value) :: rereadMembers members

end

@[simp]
theorem reread_null : Json.null.reread = .null := rfl

@[simp]
theorem reread_bool (b : Bool) : (Json.bool b).reread = .bool b := rfl

@[simp]
theorem reread_string (s : String) : (Json.string s).reread = .string s := rfl

mutual

/-- Every value can be read back. -/
theorem reread?_eq (data : Json) : data.reread? = some data.reread := by
  cases data with
  | number n => rw [reread?, n.reread?_eq, reread]; rfl
  | array items => rw [reread?, rereadItems?_eq, reread]; rfl
  | object members => rw [reread?, rereadMembers?_eq, reread]; rfl
  | _ => rfl

theorem rereadItems?_eq (items : List Json) : rereadItems? items = some (rereadItems items) := by
  cases items with
  | nil => rfl
  | cons item items => rw [rereadItems?, reread?_eq, rereadItems?_eq items]; rfl

theorem rereadMembers?_eq (members : List (String × Json)) :
    rereadMembers? members = some (rereadMembers members) := by
  cases members with
  | nil => rfl
  | cons m members =>
    obtain ⟨name, value⟩ := m
    rw [rereadMembers?, reread?_eq, rereadMembers?_eq members]; rfl

end

theorem rereadMembers_eq (members : List (String × Json)) :
    rereadMembers members = members.map fun m => (m.1, m.2.reread) := by
  induction members with
  | nil => rfl
  | cons m members ih => rw [rereadMembers, ih, List.map_cons]

/-- Every member comes back under its name. -/
theorem member?_reread (data : Json) (name : String) :
    data.reread.member? name = (data.member? name).map reread := by
  cases data with
  | object members =>
    rw [reread, rereadMembers_eq, member?, member?, List.find?_map, Option.map_map, Option.map_map]
    rfl
  | _ => rfl

theorem reread_eq_string {data : Json} {s : String} :
    data.reread = .string s ↔ data = .string s := by
  cases data <;> simp [reread]

/-- A text that is found in what is read back was there before. -/
theorem member?_of_reread {data : Json} {name s : String}
    (present : data.reread.member? name = some (.string s)) :
    data.member? name = some (.string s) := by
  rw [member?_reread, Option.map_eq_some_iff] at present
  obtain ⟨value, found, same⟩ := present
  rw [found, reread_eq_string.1 same]

mutual

/-- Members stay in order. -/
theorem canonical_reread {data : Json} (canonical : data.Canonical) : data.reread.Canonical := by
  cases data with
  | array items => exact canonicalItems_reread canonical
  | object members =>
    refine ⟨?_, canonicalMembers_reread canonical.2⟩
    rw [rereadMembers_eq]
    exact List.pairwise_map.2 canonical.1
  | _ => trivial

theorem canonicalItems_reread {items : List Json} (canonical : CanonicalItems items) :
    CanonicalItems (rereadItems items) := by
  cases items with
  | nil => trivial
  | cons item items =>
    exact ⟨canonical_reread canonical.1, canonicalItems_reread canonical.2⟩

theorem canonicalMembers_reread {members : List (String × Json)}
    (canonical : CanonicalMembers members) : CanonicalMembers (rereadMembers members) := by
  cases members with
  | nil => trivial
  | cons m members =>
    exact ⟨canonical_reread canonical.1, canonicalMembers_reread canonical.2⟩

end

/-- Data with the float `1.9e+24`. -/
def roundData : Json := .object [("f", .number (.float .roundFloat))]

/-- The same with the float before it. -/
def beforeData : Json := .object [("f", .number (.float .beforeRound))]

theorem reread_roundData : roundData.reread = beforeData := by
  simp [roundData, beforeData, reread, rereadMembers, Number.reread_roundFloat]

theorem beforeData_ne : beforeData ≠ roundData := by
  simp [beforeData, roundData, Binary.beforeRound, Binary.roundFloat]

end Json

end Chronicle
