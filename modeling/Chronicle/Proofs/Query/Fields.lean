import Chronicle.Proofs.Keyed
import Chronicle.Proofs.Query.Paths
import Mathlib.Data.String.Basic

/-!
# The member that a condition reads

A condition reads what `Payload.cell?` finds under its field. In a stored object a
name without a backslash and without a NUL finds its own member (`cell?_of_plain`).
Members whose names go on after it with a NUL agree with it too, but stand after it,
so they matter only where the member itself is absent (`Json.Extends`). A name with
a backslash never finds its own member (`cell?_of_escaped`).
-/

namespace Chronicle

/-- The name stands for itself in a path, and the path for the whole name. -/
def IsPlain (name : String) : Prop := '\\' ∉ name.toList ∧ ¬ HasNul name

instance (name : String) : Decidable (IsPlain name) := inferInstanceAs (Decidable (_ ∧ _))

namespace Json

/-- The value has a member whose name is the given one, a NUL and anything after. -/
def Extends (name : String) (value : Json) : Prop :=
  ∃ rest : String, value.member? (name ++ "\x00" ++ rest) ≠ none

/-- The value without its member of a name. -/
def without (name : String) : Json → Json
  | .object members => .object (members.filter (·.1 ≠ name))
  | value => value

theorem member?_object {name : String} {value : Json} {members : List (String × Json)}
    (sorted : members.Pairwise (·.1 < ·.1)) :
    (object members).member? name = some value ↔ (name, value) ∈ members := by
  have nodup : (members.map Prod.fst).Nodup := nodup_of_sorted sorted
  rw [member?, Option.map_eq_some_iff]
  constructor
  · rintro ⟨m, found, rfl⟩
    obtain rfl : m.1 = name := by simpa using List.find?_some found
    exact List.mem_of_find?_eq_some found
  · intro present
    exact ⟨(name, value), find?_of_nodup nodup present, rfl⟩

theorem member?_eq_none {name : String} {members : List (String × Json)} :
    (object members).member? name = none ↔ ∀ m ∈ members, m.1 ≠ name := by
  simp [member?]

end Json

/-! ## Names that agree -/

/-- A name agrees with one that has no NUL when it is that one, or goes on after it
with a NUL. -/
theorem sameName_iff {name other : String} (clean : ¬ HasNul name) :
    sameName (points other) (points name) ↔
      other = name ∨ ∃ rest : String, other = name ++ "\x00" ++ rest := by
  have injective : Function.Injective (List.map Char.toNat) :=
    List.map_injective_iff.2 fun _ _ same => Char.toNat_inj.1 same
  have split : other.toList.takeWhile (·.toNat ≠ 0) ++ other.toList.dropWhile (·.toNat ≠ 0) =
      other.toList := List.takeWhile_append_dropWhile
  have front : (points other).takeWhile (· ≠ 0) =
      (other.toList.takeWhile (·.toNat ≠ 0)).map Char.toNat := List.takeWhile_map
  rw [sameName, decide_eq_true_eq, takeWhile_points clean, front, points,
    injective.eq_iff]
  constructor
  · intro same
    rw [same] at split
    cases after : other.toList.dropWhile (·.toNat ≠ 0) with
    | nil =>
      rw [after, List.append_nil] at split
      exact .inl (String.toList_inj.1 split.symm)
    | cons c rest =>
      have isNul : c.toNat = 0 := by
        have stops := List.head?_dropWhile_not (·.toNat ≠ 0) other.toList
        rw [after] at stops
        simpa using stops
      obtain rfl : c = Char.ofNat 0 := Char.toNat_inj.1 isNul
      refine .inr ⟨String.ofList rest, String.toList_inj.1 ?_⟩
      rw [← split, after]
      simp only [String.toList_append, String.toList_ofList, List.append_assoc]
      rfl
  · have whole : name.toList.takeWhile (·.toNat ≠ 0) = name.toList := by
      have kept := takeWhile_points clean
      rw [points, List.takeWhile_map] at kept
      exact injective kept
    rintro (rfl | ⟨rest, rfl⟩)
    · exact whole
    · have stops : ("\x00" ++ rest).toList.takeWhile (·.toNat ≠ 0) = [] := by
        rw [String.toList_append]
        rfl
      rw [String.append_assoc, String.toList_append,
        List.takeWhile_append_of_pos (List.takeWhile_eq_self_iff.1 whole), stops, List.append_nil]

theorem lt_append_nul (name rest : String) : name < name ++ "\x00" ++ rest := by
  rw [String.lt_iff_toList_lt, String.append_assoc, String.toList_append]
  have longer : name.toList ++ [] < name.toList ++ Char.ofNat 0 :: rest.toList :=
    List.append_left_lt (List.nil_lt_cons (Char.ofNat 0) rest.toList)
  rw [List.append_nil] at longer
  rw [String.toList_append]
  exact longer

namespace Payload

variable {name : String} {p : Json}

theorem cell?_object (name : String) (members : List (String × Json)) :
    (value (.object members)).cell? name =
      ((members.find? fun m => sameName (points m.1) (pathPoints name)).map (·.2)).bind
        Cell.ofJson? := by
  rw [cell?, find?, List.find?_map, Option.map_map]
  rfl

/-- A plain name finds its own member where the value has one, and nothing where it
has none and no member extends the name. -/
theorem cell?_of_plain (plain : IsPlain name) (canonical : p.Canonical)
    (alone : p.member? name = none → ¬ p.Extends name) :
    (value p).cell? name = (p.member? name).bind Cell.ofJson? := by
  cases p with
  | object members =>
    have sorted : members.Pairwise (·.1 < ·.1) := canonical.1
    rw [cell?_object, pathPoints_of_plain plain.1]
    cases found : (Json.object members).member? name with
    | none =>
      have absent := Json.member?_eq_none.1 found
      have none_agrees : ∀ m ∈ members, ¬ sameName (points m.1) (points name) := by
        intro m present agrees
        rcases (sameName_iff plain.2).1 agrees with same | ⟨rest, longer⟩
        · exact absent m present same
        · refine alone found ⟨rest, ?_⟩
          rw [← longer, (Json.member?_object sorted).2 present]
          exact Option.some_ne_none _
      rw [List.find?_eq_none.2 none_agrees]
      rfl
    | some v =>
      obtain ⟨before, after, rfl⟩ := List.append_of_mem ((Json.member?_object sorted).1 found)
      -- What agrees with the name does not stand before it.
      have earlier : ∀ m ∈ before, ¬ sameName (points m.1) (points name) := by
        intro m inBefore agrees
        have lower : m.1 < name :=
          (List.pairwise_append.1 sorted).2.2 m inBefore (name, v) List.mem_cons_self
        rcases (sameName_iff plain.2).1 agrees with same | ⟨rest, longer⟩
        · exact String.lt_irrefl _ (same ▸ lower)
        · have higher := lt_append_nul name rest
          rw [← longer] at higher
          exact String.lt_irrefl _ (String.lt_trans lower higher)
      have itself : sameName (points name) (points name) := (sameName_iff plain.2).2 (.inl rfl)
      rw [List.find?_append, List.find?_eq_none.2 earlier, Option.none_or]
      simp [itself]
  | _ => rfl

/-- A name with a backslash finds what it would find without its own member. -/
theorem cell?_of_escaped (escaped : '\\' ∈ name.toList) (clean : ¬ HasNul name) (p : Json) :
    (value p).cell? name = (value (p.without name)).cell? name := by
  cases p with
  | object members =>
    rw [Json.without, cell?_object, cell?_object, List.find?_filter]
    congr 3
    funext m
    by_cases own : m.1 = name
    · simp [own, sameName_of_escaped escaped clean]
    · simp [own]
  | _ => rfl

end Payload

/-! ## Conditions on a member -/

namespace Condition

/-- The condition on a field holds of a payload. -/
def holdsOf (c : Condition) (field : String) (p : Json) : Bool := (c.test field).holds (.value p)

end Condition

end Chronicle
