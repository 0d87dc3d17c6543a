import Chronicle.Store.Basic

/-!
# Interventions

Changes to a database that do not go through the library: other programs may
write any rows to the tables, change the schema version, refuse event types, or
crash while they hold the lock.
-/

namespace Chronicle

namespace Store

def intervene (change : Tables → Except Fault Tables) : Action Store Unit := do
  lock
  commit (← Action.ofExcept (change (← get).tables))

/-- Set the schema version, if its row is there. -/
def setVersion (version : Int) : Action Store Unit :=
  intervene fun t => .ok { t with version := t.version.map fun _ => version }

def dropVersion : Action Store Unit :=
  intervene fun t => .ok { t with version := none }

/-- Refuse rows of an event type from now on. -/
def refuseType (type : String) : Action Store Unit :=
  intervene fun t => .ok { t with barred := type :: t.barred }

/-- A document as a payload, up to a NUL if there is one. -/
def readPayload (text : String) : Except Fault Payload :=
  let document := text.toList.takeWhile (· ≠ Char.ofNat 0)
  match Document.parse? (String.ofList document) with
  | some parsed => .ok (.verbatim parsed (document ≠ text.toList))
  | none => .error (.storage "payload is not valid JSON")

/-- Write a row of the event table as it is. -/
def writeEvent (type text created updated : String) : Action Store Unit :=
  intervene fun t => do
    let data ← readPayload text
    let (_, t) ← t.insertRow type data (.verbatim created) (.verbatim updated)
    return t

/-- Write a row of the projection table as it is. Its key must be free. -/
def writeProjection (type id text : String) (event : EventId) (created updated : String) :
    Action Store Unit :=
  intervene fun t => do
    let data ← readPayload text
    if ¬ data.isStorable ∨ (t.projection? type id).isSome then
      throw (.storage "row is refused")
    let row : ProjectionRow := ⟨type, id, data, event, .verbatim created, .verbatim updated⟩
    return { t with projections := Tables.putProjection row t.projections }

/-- Crash while holding the lock. -/
def poison : Action Store Unit := modify fun s => { s with poisoned := true }

end Store

end Chronicle
