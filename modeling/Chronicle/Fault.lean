/-!
# Faults

Every operation of the library that can fail does so with a `Fault`. A fault
says what went wrong and carries the particulars as text; the wording of whole
messages is in `Fault.message` alone.
-/

namespace Chronicle

inductive Fault where
  /-- An event or projection payload does not have its declared shape. -/
  | validation (text : String)
  /-- A filter names an operator that does not exist. -/
  | unknownOperator (operator : String)
  | invalidFilter (text : String)
  /-- A conditional write came too late. -/
  | conflict (text : String)
  | appliedEventsPresent
  | noEventsToSave
  /-- A validator turned the events down. -/
  | invariantViolation (text : String)
  | storage (text : String)
  | serialization (text : String)
  | config (text : String)
  | lock (text : String)
  | notFound (text : String)
  | internal (text : String)
  | io (text : String)
  | other (text : String)
  /-- A storage call did not run to its end. -/
  | crashed
  deriving DecidableEq, Inhabited

namespace Fault

/-- The message of a fault: what kind it is, then its particulars. -/
def message : Fault → String
  | validation text => "Validation error: " ++ text
  | unknownOperator operator => "Unknown filter operator: " ++ operator
  | invalidFilter text => "Invalid filter: " ++ text
  | conflict text => "Concurrent modification detected: " ++ text
  | appliedEventsPresent => "Cannot save a projection while applied events are present"
  | noEventsToSave =>
    "No events to save: projection has neither stored events nor a prior snapshot"
  | invariantViolation text => "Invariant violation: " ++ text
  | storage text => "Storage error: " ++ text
  | serialization text => "Serialization error: " ++ text
  | config text => "Configuration error: " ++ text
  | lock text => "Lock error: " ++ text
  | notFound text => "Not found: " ++ text
  | internal text => "Internal error: " ++ text
  | io text => "IO error: " ++ text
  | other text => "Other error: " ++ text
  | crashed => "Internal error: storage task failed"

/-- A conditional write lost against an earlier one. -/
def isConflict : Fault → Bool
  | conflict _ => true
  | _ => false

/-- Reading, validating and writing once more may succeed. -/
def isRetryable : Fault → Bool
  | conflict _ | invariantViolation _ => true
  | _ => false

/-- The text of the underlying cause, for the faults that wrap one. -/
def source? : Fault → Option String
  | storage text | io text | other text => some text
  | _ => none

/-- A conditional append found events after its floor. -/
def newerEvents (floor : Int) : Fault :=
  conflict s!"events newer than {floor} exist in the watched streams"

/-- A conditional projection update found a snapshot that is not older. -/
def staleSnapshot (type id : String) (event : Int) : Fault :=
  conflict s!"projection {type}/{id} is already at or beyond event {event}"

end Fault

end Chronicle
