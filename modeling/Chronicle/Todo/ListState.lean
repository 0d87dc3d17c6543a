import Chronicle.Runner.Projection
import Chronicle.Todo.Event

/-!
# The read model of a to-do list

A list's state has its name and three lists of items: incomplete, completed and
removed ones. The projection folds the events of one list into it.
-/

namespace Chronicle.Todo

structure Item where
  id : String
  text : String
  deriving DecidableEq

namespace Item

def decoder : Decoder Item :=
  (((Record.pure Item.mk).required "id" Decoder.string).required "text"
    Decoder.string).decoder "struct Item"

def toJson (i : Item) : Json := .ofMembers [("id", .string i.id), ("text", .string i.text)]

end Item

structure ListState where
  list : String
  name : String
  incomplete : List Item
  completed : List Item
  removed : List Item
  deriving DecidableEq

namespace ListState

def decoder : Decoder ListState :=
  (Record.pure ListState.mk
    |>.required "listId" Decoder.string
    |>.required "name" Decoder.string
    |>.required "incompleteItems" (Decoder.list Item.decoder)
    |>.required "completedItems" (Decoder.list Item.decoder)
    |>.required "removedItems" (Decoder.list Item.decoder)).decoder "struct ListState"

def toJson (s : ListState) : Json :=
  .ofMembers
    [("listId", .string s.list), ("name", .string s.name),
      ("incompleteItems", .array (s.incomplete.map Item.toJson)),
      ("completedItems", .array (s.completed.map Item.toJson)),
      ("removedItems", .array (s.removed.map Item.toJson))]

instance : ProjectedState ListState := ⟨decoder, fun state => .ok state.toJson⟩

/-- A list without name and items. -/
def initial (list : String) : ListState := ⟨list, "", [], [], []⟩

def find? (item : String) (items : List Item) : Option Item := items.find? (·.id = item)

def without (item : String) (items : List Item) : List Item := items.filter (·.id ≠ item)

/-- Add an item unless one has its id. -/
def addNew (items : List Item) (item : Item) : List Item :=
  if (find? item.id items).isSome then items else items ++ [item]

/-- What an event changes. Completing moves the first incomplete item of an id
to the end of the completed ones, reopening moves it back, and removing takes it
from wherever it is; the other items of the id are dropped. -/
def apply (s : ListState) : Event → ListState
  | .listCreated _ _ name => { s with name := name }
  | .itemAdded _ item title => { s with incomplete := s.incomplete ++ [⟨item, title⟩] }
  | .itemCompleted _ _ item =>
    { s with
      completed := s.completed ++ (find? item s.incomplete).toList
      incomplete := without item s.incomplete }
  | .itemMarkedIncomplete _ _ item =>
    { s with
      incomplete := (find? item s.completed).toList.foldl addNew s.incomplete
      completed := without item s.completed }
  | .itemRemoved _ _ item =>
    { s with
      removed :=
        ((find? item s.completed).or (find? item s.incomplete)).toList.foldl addNew s.removed
      completed := without item s.completed
      incomplete := without item s.incomplete }
  | _ => s

end ListState

/-- The events of some types that belong to a list. -/
def listStream (types : List String) (list : String) : Stream :=
  ⟨types, some (Filter.empty.push "listId" (.compare .eq (.text list)))⟩

/-- The read model of a list. -/
def listProjection (list : String) : Projection Event ListState where
  type := "list"
  id := list
  streams :=
    [listStream
      ["LIST_CREATED", "ITEM_ADDED", "ITEM_COMPLETED", "ITEM_MARKED_INCOMPLETE", "ITEM_REMOVED"]
      list]
  initial := .initial list
  fold := ListState.apply
  check _ := .ok ()

end Chronicle.Todo
