import Chronicle.Event.Domain

/-!
# Events of to-do lists

The closed set of events of the to-do domain. The payload of each is an object
with fixed members; others are ignored, and arrays are not read. One event
carries a float: a float that is not finite is written as null and then does
not read back.
-/

namespace Chronicle.Todo

inductive Event where
  | listCreated (tenant list name : String)
  | listDeleted (list : String)
  | itemAdded (list item title : String)
  | itemRemoved (tenant list item : String)
  | itemCompleted (tenant list item : String)
  | itemMarkedIncomplete (tenant list item : String)
  | itemCompletionSet (tenant list item : String) (completed : Bool)
  | itemPrioritySet (tenant list item : String) (priority : Int64)
  | sample (tenant text : String) (number : Double) (flag : Bool) (extra : Option String)
  deriving DecidableEq

namespace Event

def type : Event → String
  | listCreated .. => "LIST_CREATED"
  | listDeleted .. => "LIST_DELETED"
  | itemAdded .. => "ITEM_ADDED"
  | itemRemoved .. => "ITEM_REMOVED"
  | itemCompleted .. => "ITEM_COMPLETED"
  | itemMarkedIncomplete .. => "ITEM_MARKED_INCOMPLETE"
  | itemCompletionSet .. => "ITEM_COMPLETION_SET"
  | itemPrioritySet .. => "ITEM_PRIORITY_SET"
  | sample .. => "EXAMPLE_EVENT"

/-- Members that several events share. -/
def withTenant {α : Type} (make : String → α) : Record α :=
  (Record.pure make).required "tenantId" Decoder.string

@[inherit_doc withTenant]
def withItem {α : Type} (make : String → String → String → α) : Record α :=
  ((withTenant make).required "listId" Decoder.string).required "itemId" Decoder.string

/-- How the data of each type are read, in the order in which messages list
the types. -/
def variants : List (String × Decoder Event) :=
  [("LIST_CREATED",
      (((withTenant listCreated).required "listId" Decoder.string).required "name"
        Decoder.string).objectDecoder "struct variant TodoEvent::ListCreated"),
    ("LIST_DELETED",
      ((Record.pure listDeleted).required "listId" Decoder.string).objectDecoder
        "struct variant TodoEvent::ListDeleted"),
    ("ITEM_ADDED",
      ((((Record.pure itemAdded).required "listId" Decoder.string).required "itemId"
        Decoder.string).required "title" Decoder.string).objectDecoder
          "struct variant TodoEvent::ItemAdded"),
    ("ITEM_REMOVED",
      (withItem itemRemoved).objectDecoder "struct variant TodoEvent::ItemRemoved"),
    ("ITEM_COMPLETED",
      (withItem itemCompleted).objectDecoder "struct variant TodoEvent::ItemCompleted"),
    ("ITEM_MARKED_INCOMPLETE",
      (withItem itemMarkedIncomplete).objectDecoder
        "struct variant TodoEvent::ItemMarkedIncomplete"),
    ("ITEM_COMPLETION_SET",
      ((withItem itemCompletionSet).required "completed" Decoder.bool).objectDecoder
        "struct variant TodoEvent::ItemCompletionSet"),
    ("ITEM_PRIORITY_SET",
      ((withItem itemPrioritySet).required "priority" Decoder.int64).objectDecoder
        "struct variant TodoEvent::ItemPrioritySet"),
    ("EXAMPLE_EVENT",
      (((((withTenant sample).required "stringField" Decoder.string).required
        "numberField" Decoder.double).required "booleanField" Decoder.bool).field
          "optionalField" (Decoder.optional Decoder.string) (some none)).objectDecoder
            "struct variant TodoEvent::Example")]

/-- A float as JSON: null when it is not finite. -/
def floatJson : Double → Json
  | .finite x => .number (.float x)
  | .infinite _ | .nan => .null

def members : Event → List (String × Json)
  | listCreated tenant list name =>
    [("tenantId", .string tenant), ("listId", .string list), ("name", .string name)]
  | listDeleted list => [("listId", .string list)]
  | itemAdded list item title =>
    [("listId", .string list), ("itemId", .string item), ("title", .string title)]
  | itemRemoved tenant list item | itemCompleted tenant list item
  | itemMarkedIncomplete tenant list item =>
    [("tenantId", .string tenant), ("listId", .string list), ("itemId", .string item)]
  | itemCompletionSet tenant list item completed =>
    [("tenantId", .string tenant), ("listId", .string list), ("itemId", .string item),
      ("completed", .bool completed)]
  | itemPrioritySet tenant list item priority =>
    [("tenantId", .string tenant), ("listId", .string list), ("itemId", .string item),
      ("priority", .ofInt priority.toInt)]
  | sample tenant text number flag extra =>
    [("tenantId", .string tenant), ("stringField", .string text),
      ("numberField", floatJson number), ("booleanField", .bool flag)] ++
      match extra with
      | some s => [("optionalField", .string s)]
      | none => []

def toTagged (e : Event) : Json := Json.tagged e.type (.ofMembers e.members)

end Event

instance : DomainEvent Event where
  typeOf := Event.type
  ofTagged := Decoder.tagged Event.variants
  toDraft e := Draft.ofTagged e.type e.toTagged

end Chronicle.Todo
