import Mathlib.Data.List.Induction
import Mathlib.Data.List.Nodup
import Mathlib.Order.Lattice

/-!
# Lists by key

A list in the strict order of its keys has each key once. An item is put at the place
of its key, instead of the one that has it (`putByKey`), and what is under other keys
stays (`mem_putByKey`). Putting one item after another keeps the last with each key
(`lastByKey`, `mem_lastByKey`).
-/

namespace Chronicle

variable {α κ : Type}

/-- Where no two items have one key, an item is found by its key. -/
theorem find?_of_nodup [DecidableEq κ] {key : α → κ} {items : List α}
    (nodup : (items.map key).Nodup) {item : α} (present : item ∈ items) :
    items.find? (fun other => key other = key item) = some item := by
  induction items with
  | nil => simp at present
  | cons head rest ih =>
    rw [List.map_cons, List.nodup_cons] at nodup
    rcases List.mem_cons.1 present with rfl | inRest
    · simp
    · have differs : key head ≠ key item := fun same =>
        nodup.1 (same ▸ List.mem_map_of_mem inRest)
      rw [List.find?_cons_of_neg (by simpa using differs)]
      exact ih nodup.2 inRest

section Order

variable [LinearOrder κ] (key : α → κ)

/-- Put an item at the place of its key, instead of one that has the key. -/
def putByKey (item : α) : List α → List α
  | [] => [item]
  | other :: rest =>
    if key item < key other then item :: other :: rest
    else if key item = key other then item :: rest
    else other :: putByKey item rest

/-- Items in the order of their keys; of those with one key the last. -/
def lastByKey (items : List α) : List α :=
  items.foldl (fun sorted item => putByKey key item sorted) []

variable {key} {item other : α} {items : List α}

/-- No key is there twice. -/
theorem nodup_of_sorted (sorted : items.Pairwise (key · < key ·)) : (items.map key).Nodup :=
  List.nodup_iff_pairwise_ne.2 (List.pairwise_map.2 (sorted.imp ne_of_lt))

/-! ## Putting an item -/

theorem mem_putByKey (sorted : items.Pairwise (key · < key ·)) :
    other ∈ putByKey key item items ↔
      other = item ∨ other ∈ items ∧ key other ≠ key item := by
  induction items with
  | nil => simp [putByKey]
  | cons head rest ih =>
    obtain ⟨first, sortedRest⟩ := List.pairwise_cons.1 sorted
    rw [putByKey]
    split
    · -- All items come after the one that is put.
      rename_i before
      have above : ∀ later ∈ head :: rest, key later ≠ key item := fun later present => by
        rcases List.mem_cons.1 present with rfl | inRest
        · exact ne_of_gt before
        · exact ne_of_gt (lt_trans before (first later inRest))
      rw [List.mem_cons]
      exact or_congr_right ⟨fun present => ⟨present, above other present⟩, And.left⟩
    split
    · rename_i same
      have above : ∀ later ∈ rest, key later ≠ key item := fun later inRest =>
        same ▸ ne_of_gt (first later inRest)
      grind
    · rw [List.mem_cons, ih sortedRest]
      grind

theorem pairwise_putByKey (item : α) (sorted : items.Pairwise (key · < key ·)) :
    (putByKey key item items).Pairwise (key · < key ·) := by
  induction items with
  | nil => simp [putByKey]
  | cons head rest ih =>
    obtain ⟨first, sortedRest⟩ := List.pairwise_cons.1 sorted
    rw [putByKey]
    split
    · rename_i before
      refine List.pairwise_cons.2 ⟨fun later present => ?_, sorted⟩
      rcases List.mem_cons.1 present with rfl | inRest
      · exact before
      · exact lt_trans before (first later inRest)
    split
    · rename_i same
      exact List.pairwise_cons.2 ⟨fun later inRest => same ▸ first later inRest, sortedRest⟩
    · rename_i notBefore differs
      refine List.pairwise_cons.2 ⟨fun later present => ?_, ih sortedRest⟩
      rcases (mem_putByKey sortedRest).1 present with rfl | ⟨inRest, -⟩
      · exact lt_of_le_of_ne (not_lt.1 notBefore) (Ne.symm differs)
      · exact first later inRest

/-- What comes after all items is put at the end. -/
theorem putByKey_of_above (above : ∀ other ∈ items, key other < key item) :
    putByKey key item items = items ++ [item] := by
  induction items with
  | nil => rfl
  | cons head rest ih =>
    obtain ⟨first, others⟩ := List.forall_mem_cons.1 above
    rw [putByKey, if_neg (not_lt_of_gt first), if_neg (ne_of_gt first), ih others]
    rfl

/-! ## The last item with each key -/

theorem lastByKey_append (items : List α) (item : α) :
    lastByKey key (items ++ [item]) = putByKey key item (lastByKey key items) := by
  simp [lastByKey]

theorem pairwise_lastByKey (items : List α) : (lastByKey key items).Pairwise (key · < key ·) := by
  induction items using List.reverseRecOn with
  | nil => exact .nil
  | append_singleton items item ih =>
    rw [lastByKey_append]
    exact pairwise_putByKey item ih

theorem lastByKey_ne_nil (some_items : items ≠ []) : lastByKey key items ≠ [] := by
  induction items using List.reverseRecOn with
  | nil => exact some_items
  | append_singleton items item _ =>
    rw [lastByKey_append]
    exact List.ne_nil_of_mem ((mem_putByKey (pairwise_lastByKey items)).2 (.inl rfl))

/-- What is kept is the last item with its key. -/
theorem mem_lastByKey : item ∈ lastByKey key items ↔
    (items.filter fun other => key other = key item).getLast? = some item := by
  induction items using List.reverseRecOn with
  | nil => simp [lastByKey]
  | append_singleton items last ih =>
    rw [lastByKey_append, mem_putByKey (pairwise_lastByKey items), ih, List.filter_append]
    by_cases same : key last = key item
    · simp [same, eq_comm]
    · have apart : ¬ item = last := fun equal => same (congrArg key equal.symm)
      simp [same, apart, Ne.symm same]

/-- Items that are in the order of their keys stay as they are. -/
theorem lastByKey_of_sorted (sorted : items.Pairwise (key · < key ·)) :
    lastByKey key items = items := by
  induction items using List.reverseRecOn with
  | nil => rfl
  | append_singleton items item ih =>
    obtain ⟨front, -, below⟩ := List.pairwise_append.1 sorted
    rw [lastByKey_append, ih front]
    exact putByKey_of_above fun other present => below other present item List.mem_cons_self

theorem mem_of_lastByKey (kept : item ∈ lastByKey key items) : item ∈ items :=
  (List.mem_filter.1 (List.mem_of_getLast? (mem_lastByKey.1 kept))).1

/-- Where items with one key are the same, all are kept. -/
theorem mem_lastByKey_of_unique
    (unique : ∀ a ∈ items, ∀ b ∈ items, key a = key b → a = b) :
    item ∈ lastByKey key items ↔ item ∈ items := by
  refine ⟨mem_of_lastByKey, fun present => mem_lastByKey.2 ?_⟩
  cases ends : (items.filter fun other => key other = key item).getLast? with
  | none =>
    have inFilter : item ∈ items.filter fun other => key other = key item :=
      List.mem_filter.2 ⟨present, by simp⟩
    rw [List.getLast?_eq_none_iff.1 ends] at inFilter
    simp at inFilter
  | some last =>
    obtain ⟨has, same⟩ := List.mem_filter.1 (List.mem_of_getLast? ends)
    rw [unique last has item present (by simpa using same)]

end Order

end Chronicle
