import Chronicle.Runner.Validation
import Chronicle.Todo.ListState

/-!
# The rules of to-do lists

Three validators guard a list: it has at most three incomplete items, only an
item that is present and incomplete can be completed, and only one that is
present and completed can be reopened. Completion is judged by committed events
alone, since staged ones state the very change that is asked for.
-/

namespace Chronicle.Todo

def reject (reason : String) : Except Fault Unit := .error (.invariantViolation reason)

/-- The ids of incomplete items after one more event. -/
def countIncomplete (ids : List String) : Event → List String
  | .itemAdded _ item _ => ids ++ [item]
  | .itemRemoved _ _ item | .itemCompleted _ _ item => ids.filter (· ≠ item)
  | .itemMarkedIncomplete _ _ item => ids.filter (· ≠ item) ++ [item]
  | _ => ids

/-- A list has at most three incomplete items. -/
def addItem (list : String) : Validator Event where
  streams :=
    [listStream ["ITEM_ADDED", "ITEM_REMOVED", "ITEM_COMPLETED", "ITEM_MARKED_INCOMPLETE"] list]
  accepts view :=
    if 3 < (view.reduce countIncomplete []).length then
      reject "Incomplete item count is greater than three"
    else .ok ()

/-- Whether an item is done. -/
inductive Completion where
  | complete
  | incomplete
  deriving DecidableEq

/-- Whether an item is done after one more event, if that is known. -/
def completion (status : Option Completion) : Event → Option Completion
  | .itemCompleted .. => some .complete
  | .itemMarkedIncomplete .. => some .incomplete
  | .itemAdded .. => status.or (some .incomplete)
  | _ => status

/-- Whether an item is in its list after one more event. -/
def presence (present : Bool) : Event → Bool
  | .itemAdded .. => true
  | .itemRemoved .. => false
  | _ => present

/-- The events of one item of a list. -/
def itemStream (list item : String) : Stream where
  types := ["ITEM_COMPLETED", "ITEM_MARKED_INCOMPLETE", "ITEM_ADDED", "ITEM_REMOVED"]
  filter := some
    ((Filter.empty.push "listId" (.compare .eq (.text list))).push "itemId"
      (.compare .eq (.text item)))

/-- Only a present, incomplete item can be completed. -/
def completeItem (list item : String) : Validator Event where
  streams := [itemStream list item]
  accepts view :=
    if ¬ view.reduce presence false then reject "Item is not present in list"
    else if view.reduceRecorded completion none ≠ some .incomplete then
      reject "Item is not incomplete"
    else .ok ()

/-- Only a present, completed item can be reopened. -/
def reopenItem (list item : String) : Validator Event where
  streams := [itemStream list item]
  accepts view :=
    if ¬ view.reduceRecorded presence false then reject "Item is not present in list"
    else if view.reduceRecorded completion none ≠ some .complete then
      reject "Item is not complete"
    else .ok ()

end Chronicle.Todo
