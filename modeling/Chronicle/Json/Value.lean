import Chronicle.Number.Layout

/-!
# JSON values

A value of the payload language. Numbers are of two sorts: integers that fit
one of the two 64-bit ranges, and finite binary64 numbers. The members of an
object are kept in ascending order of their names, which is both the order of
their UTF-8 bytes and the order in which they are written and visited.

* `Json.ofMembers` builds an object from members in any order; of members with
  one name the last counts.
* `Json.Canonical` states the order of members throughout a value;
  `Json.canonical_ofMembers` says that building an object establishes it.
-/

namespace Chronicle

/-- A JSON number: an integer within the signed or the unsigned 64-bit range,
or a finite binary64 number. `1` and `1.0` are different numbers. -/
inductive Number where
  | int (value : Int)
      (inRange : -9223372036854775808 ≤ value ∧ value ≤ 18446744073709551615)
  | float (value : Binary)
  deriving DecidableEq

namespace Number

/-- The integer as a number, if it is in range. -/
def ofInt? (n : Int) : Option Number :=
  if h : -9223372036854775808 ≤ n ∧ n ≤ 18446744073709551615 then some (.int n h) else none

/-- The number as a binary64 value: integers go to the nearest one. -/
def toDouble : Number → Double
  | .int n _ => .ofInt n
  | .float x => .finite x

def text : Number → String
  | .int n _ => toString n
  | .float x => x.jsonText

end Number

inductive Json where
  | null
  | bool (value : Bool)
  | number (value : Number)
  | string (value : String)
  | array (items : List Json)
  | object (members : List (String × Json))
  deriving Inhabited

namespace Json

/-- Put a member at its place in ascending order, replacing one of the same
name. -/
def insertMember (name : String) (value : Json) : List (String × Json) → List (String × Json)
  | [] => [(name, value)]
  | (other, old) :: rest =>
    if name < other then (name, value) :: (other, old) :: rest
    else if name = other then (name, value) :: rest
    else (other, old) :: insertMember name value rest

/-- The object with the given members; of those with one name the last
counts. -/
def ofMembers (members : List (String × Json)) : Json :=
  .object (members.foldl (fun sorted m => insertMember m.1 m.2 sorted) [])

/-- The member of an object with the given name; none for other values. -/
def member? (name : String) : Json → Option Json
  | .object members => (members.find? (·.1 = name)).map (·.2)
  | _ => none

theorem mem_insertMember {name : String} {value : Json} {members : List (String × Json)}
    {m : String × Json} (present : m ∈ insertMember name value members) :
    m = (name, value) ∨ m ∈ members := by
  induction members with
  | nil => simpa [insertMember] using present
  | cons head rest ih =>
    obtain ⟨other, old⟩ := head
    rw [insertMember] at present
    split at present
    · simpa using present
    · split at present
      · simp only [List.mem_cons] at present ⊢
        exact present.imp_right Or.inr
      · simp only [List.mem_cons] at present ⊢
        rcases present with rfl | inRest
        · exact Or.inr (Or.inl rfl)
        · exact (ih inRest).imp_right Or.inr

theorem pairwise_insertMember {members : List (String × Json)} (name : String) (value : Json)
    (sorted : members.Pairwise (·.1 < ·.1)) :
    (insertMember name value members).Pairwise (·.1 < ·.1) := by
  induction members with
  | nil => simp [insertMember]
  | cons head rest ih =>
    obtain ⟨other, old⟩ := head
    rw [List.pairwise_cons] at sorted
    obtain ⟨below, restSorted⟩ := sorted
    rw [insertMember]
    split
    · rename_i before
      refine List.pairwise_cons.2 ⟨?_, List.pairwise_cons.2 ⟨below, restSorted⟩⟩
      intro m present
      rcases List.mem_cons.1 present with rfl | inRest
      · exact before
      · exact String.lt_trans before (below m inRest)
    · split
      · rename_i same
        subst same
        exact List.pairwise_cons.2 ⟨below, restSorted⟩
      · rename_i notBefore different
        refine List.pairwise_cons.2 ⟨?_, ih restSorted⟩
        intro m present
        rcases mem_insertMember present with rfl | inRest
        · exact Std.lt_of_le_of_ne (String.not_lt.1 notBefore) (Ne.symm different)
        · exact below m inRest

/-- After a member is put, its name gives its value and every other name what
it gave before. -/
@[simp]
theorem member?_insertMember (key name : String) (value : Json)
    (members : List (String × Json)) :
    (object (insertMember name value members)).member? key =
      if key = name then some value else (object members).member? key := by
  induction members with
  | nil =>
    by_cases same : key = name
    · simp [insertMember, member?, same]
    · simp [insertMember, member?, same, Ne.symm same]
  | cons head rest ih =>
    obtain ⟨other, old⟩ := head
    simp only [member?] at ih ⊢
    grind [insertMember]

mutual

/-- Levels of nesting: zero for scalars, and one more than the deepest item or
member for arrays and objects. -/
def depth : Json → Nat
  | .array items => depthOfItems items + 1
  | .object members => depthOfMembers members + 1
  | _ => 0

def depthOfItems : List Json → Nat
  | [] => 0
  | item :: items => max (depth item) (depthOfItems items)

def depthOfMembers : List (String × Json) → Nat
  | [] => 0
  | (_, value) :: members => max (depth value) (depthOfMembers members)

end

mutual

/-- Every object in the value has its members in strictly ascending order of
names. -/
def Canonical : Json → Prop
  | .array items => CanonicalItems items
  | .object members => members.Pairwise (·.1 < ·.1) ∧ CanonicalMembers members
  | _ => True

def CanonicalItems : List Json → Prop
  | [] => True
  | item :: items => Canonical item ∧ CanonicalItems items

def CanonicalMembers : List (String × Json) → Prop
  | [] => True
  | (_, value) :: members => Canonical value ∧ CanonicalMembers members

end

theorem canonicalMembers_iff {members : List (String × Json)} :
    CanonicalMembers members ↔ ∀ m ∈ members, Canonical m.2 := by
  induction members with
  | nil => simp [CanonicalMembers]
  | cons m members ih => simp [CanonicalMembers, ih]

/-- Whatever order members are given in, the object has them in order. -/
theorem canonical_ofMembers {members : List (String × Json)}
    (canonical : ∀ m ∈ members, Canonical m.2) : Canonical (ofMembers members) := by
  suffices kept : ∀ sorted : List (String × Json),
      sorted.Pairwise (·.1 < ·.1) → (∀ m ∈ sorted, Canonical m.2) →
      Canonical (.object
        (members.foldl (fun sorted m => insertMember m.1 m.2 sorted) sorted)) from
    kept [] .nil (by simp)
  induction members with
  | nil =>
    intro sorted inOrder each
    exact ⟨inOrder, canonicalMembers_iff.2 each⟩
  | cons head rest ih =>
    intro sorted inOrder each
    refine ih (fun m present => canonical m (List.mem_cons_of_mem _ present)) _
      (pairwise_insertMember _ _ inOrder) ?_
    intro m present
    rcases mem_insertMember present with rfl | old
    · exact canonical head List.mem_cons_self
    · exact each m old

/-- A value inside `n` arrays of one item. -/
def nested (value : Json) : Nat → Json
  | 0 => value
  | n + 1 => .array [nested value n]

theorem depth_nested (value : Json) (n : Nat) : (nested value n).depth = value.depth + n := by
  induction n with
  | zero => rfl
  | succ n ih => simp [nested, depth, depthOfItems, ih, Nat.add_assoc]

end Json

end Chronicle
