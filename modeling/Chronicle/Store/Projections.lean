import Chronicle.Store.Basic

/-!
# The projections of a store

Projections can be written in three ways: unconditionally, forward only, and
without touching the last event. Data that are nested too deeply are refused,
and data that are nested less deeply but still too deeply to be read are not.
-/

namespace Chronicle

namespace Store

/-- Data may stand in a payload column. -/
def checkData (data : Json) : Action Store Unit := do
  if ¬ (Payload.value data).isStorable then throw (.storage "payload is not valid JSON")

def getProjection (type id : String) : Action Store (Option StoredProjection) := do
  lock
  match (← get).tables.projection? type id with
  | none => return none
  | some row => return some (← Action.ofExcept row.read)

theorem run_getProjection (type id : String) (s : Store) :
    (getProjection type id).run s =
      if s.poisoned then (.error (.lock "connection mutex poisoned"), s)
      else match s.tables.projection? type id with
        | none => (.ok none, s)
        | some row => (row.read.map some, s) := by
  unfold getProjection
  by_cases poisoned : s.poisoned <;>
    cases found : s.tables.projection? type id <;>
    simp [Action.run_bind, Action.run_map, poisoned, found]

/-- Read the projections of a type that pass a filter, by id. -/
def queryProjections (type : String) (filter : Option Filter) :
    Action Store (List StoredProjection) := do
  let tests ← Action.ofExcept (compileOptional filter)
  lock
  prepare (Statement.selectProjections type tests) (Statement.testsNest tests)
  let rows ← Action.ofExcept (((← get).tables.projectionsOf type tests).mapM ProjectionRow.read)
  count (·.read rows.length)
  return rows

theorem run_queryProjections (type : String) (filter : Option Filter) (s : Store) :
    (queryProjections type filter).run s =
      match compileOptional filter with
      | .error fault => (.error fault, s)
      | .ok tests =>
        if s.poisoned then (.error (.lock "connection mutex poisoned"), s)
        else if Statement.testsNest tests ∨
            ¬ (Statement.selectProjections type tests).isPreparable then
          (.error (.storage "statement cannot be prepared"), s)
        else match (s.tables.projectionsOf type tests).mapM ProjectionRow.read with
          | .ok rows => (.ok rows, { s with metrics := s.metrics.read rows.length })
          | .error fault => (.error fault, s) := by
  unfold queryProjections
  cases compiled : compileOptional filter with
  | error fault => simp [Action.run_bind]
  | ok tests =>
    cases poisoned : s.poisoned <;>
      cases nests : Statement.testsNest tests <;>
      cases prepared : (Statement.selectProjections type tests).isPreparable <;>
      cases reads : (s.tables.projectionsOf type tests).mapM ProjectionRow.read <;>
      simp [Action.run_bind, Action.run_map, Except.map, poisoned, nests, prepared, reads]

/-- Write data and last event under a key. -/
def putProjection (type id : String) (data : Json) (event : EventId) : Action Store Unit := do
  let s ← get
  commit (s.tables.upsert s.now type id data event)

/-- Write data and last event, whatever was there. -/
def saveProjection (type id : String) (data : Json) (event : EventId) : Action Store Unit := do
  lock
  checkData data
  putProjection type id data event
  count (·.add .projectionsSaved 1)

theorem run_saveProjection (type id : String) (data : Json) (event : EventId) (s : Store) :
    (saveProjection type id data event).run s =
      if s.poisoned then (.error (.lock "connection mutex poisoned"), s)
      else if (Payload.value data).isStorable then
        (.ok (),
          { s with
            tables := s.tables.upsert s.now type id data event
            metrics := s.metrics.add .projectionsSaved 1 })
      else (.error (.storage "payload is not valid JSON"), s) := by
  unfold saveProjection checkData putProjection
  by_cases poisoned : s.poisoned <;>
    by_cases storable : (Payload.value data).isStorable <;>
    simp [Action.run_bind, poisoned, storable]

/-- Replace the data of a projection and leave its last event. -/
def forceProjection (type id : String) (data : Json) : Action Store Unit := do
  lock
  let s ← get
  match s.tables.projection? type id with
  | none => throw (.notFound s!"projection {type}/{id}")
  | some row =>
    checkData data
    commit (s.tables.replaceData s.now row data)
    count (·.add .projectionsForced 1)

theorem run_forceProjection (type id : String) (data : Json) (s : Store) :
    (forceProjection type id data).run s =
      if s.poisoned then (.error (.lock "connection mutex poisoned"), s)
      else match s.tables.projection? type id with
        | none => (.error (.notFound s!"projection {type}/{id}"), s)
        | some row =>
          if (Payload.value data).isStorable then
            (.ok (),
              { s with
                tables := s.tables.replaceData s.now row data
                metrics := s.metrics.add .projectionsForced 1 })
          else (.error (.storage "payload is not valid JSON"), s) := by
  unfold forceProjection checkData
  by_cases poisoned : s.poisoned <;>
    by_cases storable : (Payload.value data).isStorable <;>
    cases found : s.tables.projection? type id <;>
    simp [Action.run_bind, poisoned, storable, found]

/-- Write data and last event if that moves the last event forward. -/
def updateProjection (type id : String) (data : Json) (event : EventId) : Action Store Unit := do
  lock
  checkData data
  if ((← get).tables.projection? type id).all (·.lastEvent < event) then
    putProjection type id data event
    count (·.add .projectionsUpdated 1)
  else
    count (·.add .projectionConflicts 1)
    throw (.staleSnapshot type id event)

theorem run_updateProjection (type id : String) (data : Json) (event : EventId) (s : Store) :
    (updateProjection type id data event).run s =
      if s.poisoned then (.error (.lock "connection mutex poisoned"), s)
      else if (Payload.value data).isStorable then
        if (s.tables.projection? type id).all (·.lastEvent < event) then
          (.ok (),
            { s with
              tables := s.tables.upsert s.now type id data event
              metrics := s.metrics.add .projectionsUpdated 1 })
        else
          (.error (.staleSnapshot type id event),
            { s with metrics := s.metrics.add .projectionConflicts 1 })
      else (.error (.storage "payload is not valid JSON"), s) := by
  unfold updateProjection checkData putProjection
  by_cases poisoned : s.poisoned <;>
    by_cases storable : (Payload.value data).isStorable <;>
    by_cases older : (s.tables.projection? type id).all (·.lastEvent < event) <;>
    simp [Action.run_bind, poisoned, storable, older]

instance : ProjectionStore Store where
  get := getProjection
  query := queryProjections
  save := saveProjection
  force := forceProjection
  update := updateProjection

end Store

end Chronicle
