import Chronicle.Database.Workspace
import Chronicle.Proofs.Runner.Effects

/-!
# The order of a log

Databases are opened, in files or in memory, and whatever there is to ask for is
asked for through any of their connections (`Operation`). Opening makes tables or
finds them as they are (`Moves.openFile`), and an operation adds events at the end
of what its connection sees (`Operation.extends`). So does every step
(`Move.extends`), and every run: the log that a connection sees only grows at its
end, its n-th event has the id n, and reads give its events in that order
(`Workspace.log_only_grows`).
-/

namespace Chronicle

/-! ## Operations -/

/-- A call of a client, of events or of projections. -/
inductive Client.Call (E T : Type) where
  | write (w : Write E)
  | latest (type : String) (filter : Option Filter)
  | streams (specs : List Stream) (after : Option EventId)
  | getProjection (type id : String)
  | queryProjections (type : String) (filter : Option Filter)
  | saveProjection (type id : String) (state : T) (event : EventId)
  | forceProjection (type id : String) (state : T)
  | updateProjection (type id : String) (state : T) (event : EventId)

section Operations

variable {E T : Type} [DomainEvent E] [ProjectedState T]

/-- The store that a call leaves. -/
def Client.Call.perform (s : Store) : Client.Call E T → Store
  | write w => w.perform s
  | latest type filter => ((Client.latest E type filter).run s).2
  | streams specs after => ((Client.streams E specs after).run s).2
  | getProjection type id => ((Client.getProjection T type id).run s).2
  | queryProjections type filter => ((Client.queryProjections T type filter).run s).2
  | saveProjection type id state event => ((Client.saveProjection type id state event).run s).2
  | forceProjection type id state => ((Client.forceProjection type id state).run s).2
  | updateProjection type id state event =>
    ((Client.updateProjection type id state event).run s).2

theorem Client.keeps_latest (type : String) (filter : Option Filter) :
    Action.Keeps Store.content (Client.latest E type filter : Action Store _) := by
  refine .bind (.ofExcept _) fun _ => .bind (Store.keeps_latest type filter) fun found => ?_
  cases found with
  | none => exact .pure _
  | some row => exact .bind (.ofExcept _) fun _ => .pure _

theorem Client.keeps_queryProjections (type : String) (filter : Option Filter) :
    Action.Keeps Store.content (Client.queryProjections T type filter : Action Store _) :=
  .bind (.ofExcept _) fun _ => .bind (Store.keeps_queryProjections type filter) fun _ =>
    .ofExcept _

/-- A state that cannot be written as JSON is not written at all. -/
theorem Client.grows_encoded {P : Draft → Prop} (state : T) {write : Json → Action Store Unit}
    {s : Store} (grows : ∀ data, Store.Grows P s ((write data).run s).2) :
    Store.Grows P s ((Action.ofExcept (ProjectedState.encode state) >>= write).run s).2 := by
  rw [Action.run_bind, Action.run_ofExcept]
  cases ProjectedState.encode state with
  | error fault => exact Store.grows_of_events rfl
  | ok data => exact grows data

/-- A client adds events at the end of the table, or leaves it. -/
theorem Client.Call.grows_perform (c : Client.Call E T) (s : Store) :
    Store.Grows (fun _ => True) s (c.perform s) := by
  cases c with
  | write w => exact (w.grows_perform s).imp fun _ _ => trivial
  | latest type filter => exact Store.grows_of_keeps (Client.keeps_latest type filter) s
  | streams specs after => exact Store.grows_of_keeps (Client.keeps_streams specs after) s
  | getProjection type id =>
    exact Store.grows_of_keeps (fun s => Client.content_getProjection type id s) s
  | queryProjections type filter =>
    exact Store.grows_of_keeps (Client.keeps_queryProjections type filter) s
  | saveProjection type id state event =>
    exact Client.grows_encoded state fun data =>
      Store.grows_perform (.saveProjection type id data event) s
  | forceProjection type id state =>
    exact Client.grows_encoded state fun data =>
      Store.grows_perform (.forceProjection type id data) s
  | updateProjection type id state event =>
    exact Client.grows_encoded state fun data =>
      Store.grows_perform (.updateProjection type id data event) s

end Operations

/-- What can be done to the store behind a connection: by its own calls, by
clients of any domain, or by runners, whatever they have read and staged. A holder
of the lock may crash. -/
inductive Operation : (Store → Store) → Prop
  | store (c : Store.Call) : Operation fun s => c.perform s
  | client {E T : Type} [DomainEvent E] [ProjectedState T] (c : Client.Call E T) :
    Operation fun s => c.perform s
  | validation {E : Type} [DomainEvent E] (r : ValidationRunner E) (c : ValidationRunner.Call E) :
    Operation fun s => (c.perform (r, s)).2
  | projection {E T : Type} [DomainEvent E] [ProjectedState T] (r : ProjectionRunner E T)
    (c : ProjectionRunner.Call E) : Operation fun s => (c.perform (r, s)).2
  | crash : Operation fun s => { s with poisoned := true }

theorem Operation.grows {f : Store → Store} (asked : Operation f) (s : Store) :
    Store.Grows (fun _ => True) s (f s) := by
  cases asked with
  | store c => exact Store.grows_perform c s
  | client c => exact c.grows_perform s
  | validation r c => exact (ValidationRunner.grows_perform r s c).imp fun _ _ => trivial
  | projection r c => exact Store.grows_of_events (ProjectionRunner.events_perform r s c)
  | crash => exact Store.grows_of_events rfl

/-- An operation adds events after those that are there. -/
theorem Operation.extends {f : Store → Store} (asked : Operation f) {s : Store}
    {log : List StoredEvent} (holds : s.tables.Holds log) :
    ∃ more, (f s).tables.Holds (log ++ more) := by
  obtain ⟨more, grown, -⟩ := (asked.grows s).holds holds
  exact ⟨more, grown⟩

/-! ## Where logs are kept -/

/-- The tables of a connection hold a log. -/
def Source.Holds (source : Source) (d : Disk) (log : List StoredEvent) : Prop :=
  match source with
  | .memory tables => tables.Holds log
  | .file l => ∃ tables : Tables, d.file? l = some (.database tables.catalog) ∧ tables.Holds log

/-- What held a log holds it still, with more at its end or nothing more. -/
def Source.Follows (before : Source) (d : Disk) (after : Source) (d' : Disk) : Prop :=
  ∀ log, before.Holds d log → ∃ more, after.Holds d' (log ++ more)

theorem Source.Follows.of_same {source : Source} {d d' : Disk}
    (same : ∀ log, source.Holds d log → source.Holds d' log) : source.Follows d source d' :=
  fun log holds => ⟨[], by simpa using same log holds⟩

theorem Source.Follows.trans {first second third : Source} {d d' d'' : Disk}
    (before : first.Follows d second d') (after : second.Follows d' third d'') :
    first.Follows d third d'' := by
  intro log holds
  obtain ⟨more, holdsMore⟩ := before log holds
  obtain ⟨added, holdsAdded⟩ := after _ holdsMore
  exact ⟨more ++ added, by rwa [← List.append_assoc]⟩

theorem Disk.file?_putFile (d : Disk) (l : Location) (content : FileContent) (l' : Location) :
    (d.putFile l content).file? l' = if l' = l then some content else d.file? l' := by
  unfold file? putFile
  by_cases same : l' = l
  · simp [same]
  · have other : ¬ l = l' := fun h => same h.symm
    simp only [List.find?_cons, other, decide_false, if_neg same, List.find?_filter]
    congr 2
    funext file
    by_cases here : file.1 = l'
    · simp [here, same]
    · simp [here]

/-- A file that is put down holds a log; other files are as they were. -/
theorem Disk.holds_putFile {d : Disk} {l : Location} {tables : Tables} {log : List StoredEvent}
    (holds : tables.Holds log) :
    (Source.file l).Holds (d.putFile l (.database tables.catalog)) log :=
  ⟨tables, by rw [file?_putFile, if_pos rfl], holds⟩

theorem Disk.follows_putFile {d : Disk} {l : Location} {content : FileContent}
    (here : (Source.file l).Follows d (.file l) (d.putFile l content)) (source : Source) :
    source.Follows d source (d.putFile l content) := by
  cases source with
  | memory tables => exact .of_same fun log holds => holds
  | file l' =>
    by_cases same : l' = l
    · exact same ▸ here
    · refine .of_same fun log ⟨tables, there, holds⟩ => ⟨tables, ?_, holds⟩
      rwa [file?_putFile, if_neg same]

/-- Completing the tables of a database leaves its events. -/
theorem Catalog.completed_catalog (c : Catalog) :
    ∃ tables : Tables, c.completed = tables.catalog ∧ tables.events = c.events.getD [] :=
  ⟨⟨_, _, _, _, _⟩, rfl, rfl⟩

/-! ## Steps of a workspace -/

namespace Workspace

/-- Every file and every connection has a log. -/
structure Sound (w : Workspace) : Prop where
  files : ∀ l, (w.disk.file? l).isSome → ∃ log, (Source.file l).Holds w.disk log
  sources : ∀ (n : Nat) (c : Connection), w.connections[n]? = some c →
    ∃ log, c.source.Holds w.disk log

/-- Logs have grown at their ends. -/
structure Extends (w w' : Workspace) : Prop where
  files : ∀ l, (Source.file l).Follows w.disk (.file l) w'.disk
  sources : ∀ (n : Nat) (c : Connection), w.connections[n]? = some c →
    ∃ c' : Connection, w'.connections[n]? = some c' ∧
      c.source.Follows w.disk c'.source w'.disk

namespace Extends

variable {w w' w'' : Workspace}

theorem refl (w : Workspace) : Extends w w :=
  ⟨fun _ => .of_same fun _ => id, fun _ c found => ⟨c, found, .of_same fun _ => id⟩⟩

theorem trans (before : Extends w w') (after : Extends w' w'') : Extends w w'' := by
  refine ⟨fun l => (before.files l).trans (after.files l), fun n c found => ?_⟩
  obtain ⟨c', found', follows⟩ := before.sources n c found
  obtain ⟨c'', found'', followsMore⟩ := after.sources n c' found'
  exact ⟨c'', found'', follows.trans followsMore⟩

end Extends

/-- What opening databases and using connections consists of. -/
inductive Move : Workspace → Workspace → Prop
  /-- Neither files nor what connections are made to have changed. -/
  | aside {w w' : Workspace} (files : w'.disk.files = w.disk.files)
    (sources : w'.connections.map Connection.source = w.connections.map Connection.source) :
    Move w w'
  /-- The tables that a file lacks are created. -/
  | fill (w : Workspace) {l : Location} {found : Catalog} (was : w.disk.catalog l = .ok found) :
    Move w { w with disk := w.disk.putFile l (.database found.completed) }
  | attachMemory (w : Workspace) {tables : Tables} (new : tables.Holds []) (logged : Bool) :
    Move w { w with connections := w.connections ++ [⟨.memory tables, false, logged⟩] }
  | attachFile (w : Workspace) {l : Location} (there : (w.disk.file? l).isSome) (logged : Bool) :
    Move w { w with connections := w.connections ++ [⟨.file l, false, logged⟩] }
  | use (w : Workspace) {n : Nat} {c : Connection} {tables : Tables} {f : Store → Store}
    (found : w.connections[n]? = some c) (has : w.tables c.source = .ok tables)
    (asked : Operation f) :
    Move w (w.keep n c.source (f ⟨tables, c.poisoned, w.now, w.metrics⟩))

abbrev Moves : Workspace → Workspace → Prop := Relation.ReflTransGen Move

section Moves

variable {w w' : Workspace}

/-- When all logs that there were have grown, it is left to say what new files and
connections hold. -/
theorem Sound.grow (sound : w.Sound) (grown : w.Extends w')
    (files : ∀ l, w.disk.file? l = none → (w'.disk.file? l).isSome →
      ∃ log, (Source.file l).Holds w'.disk log)
    (new : ∀ (n : Nat) (c : Connection), w.connections[n]? = none →
      w'.connections[n]? = some c → ∃ log, c.source.Holds w'.disk log) : w'.Sound := by
  refine ⟨fun l there => ?_, fun n c' found' => ?_⟩
  · cases was : w.disk.file? l with
    | none => exact files l was there
    | some content =>
      obtain ⟨log, holds⟩ := sound.files l (by simp [was])
      obtain ⟨more, holdsMore⟩ := grown.files l log holds
      exact ⟨log ++ more, holdsMore⟩
  · cases was : w.connections[n]? with
    | none => exact new n c' was found'
    | some c =>
      obtain ⟨log, holds⟩ := sound.sources n c was
      obtain ⟨c₁, found₁, follows⟩ := grown.sources n c was
      obtain rfl := Option.some.inj (found₁.symm.trans found')
      obtain ⟨more, holdsMore⟩ := follows log holds
      exact ⟨log ++ more, holdsMore⟩

/-- No connection is new when there are as many as before. -/
theorem absent_of_length (same : w'.connections.length = w.connections.length) (n : Nat)
    (c : Connection) (absent : w.connections[n]? = none) : w'.connections[n]? ≠ some c := by
  rw [List.getElem?_eq_none (same ▸ List.getElem?_eq_none_iff.1 absent)]
  exact nofun

theorem extends_aside (files : w'.disk.files = w.disk.files)
    (sources : w'.connections.map Connection.source = w.connections.map Connection.source) :
    w.Extends w' := by
  have same (source : Source) : source.Follows w.disk source w'.disk := by
    refine .of_same fun log holds => ?_
    cases source with
    | memory tables => exact holds
    | file l =>
      obtain ⟨tables, there, holdsTables⟩ := holds
      refine ⟨tables, ?_, holdsTables⟩
      rwa [Disk.file?, files]
  refine ⟨fun l => same _, fun n c found => ?_⟩
  have kept : w'.connections[n]?.map Connection.source = some c.source := by
    rw [← List.getElem?_map, sources, List.getElem?_map, found]
    rfl
  obtain ⟨c', found', sameSource⟩ := Option.map_eq_some_iff.1 kept
  exact ⟨c', found', sameSource ▸ same c.source⟩

/-- Attaching a connection leaves the others. -/
theorem extends_attach (w : Workspace) (c : Connection) :
    w.Extends { w with connections := w.connections ++ [c] } := by
  refine ⟨fun l => .of_same fun _ => id, fun n c' found => ⟨c', ?_, .of_same fun _ => id⟩⟩
  rw [List.getElem?_append_left (List.getElem?_eq_some_iff.1 found).1]
  exact found

theorem new_of_attach {n : Nat} {c c' : Connection} (was : w.connections[n]? = none)
    (found : (w.connections ++ [c])[n]? = some c') : c' = c := by
  rw [List.getElem?_append_right (List.getElem?_eq_none_iff.1 was)] at found
  exact List.mem_singleton.1 (List.mem_of_getElem? found)

/-- What is found at a location of a sound workspace lacks its tables or has a log. -/
theorem Sound.catalog_eq (sound : w.Sound) {l : Location} {found : Catalog}
    (was : w.disk.catalog l = .ok found) :
    (w.disk.file? l = none ∧ found = .empty) ∨
      ∃ tables : Tables, w.disk.file? l = some (.database tables.catalog) ∧
        found = tables.catalog := by
  unfold Disk.catalog at was
  cases there : w.disk.file? l with
  | none =>
    rw [there] at was
    exact .inl ⟨rfl, (Except.ok.inj was).symm⟩
  | some content =>
    obtain ⟨log, tables, same, -⟩ := sound.files l (by simp [there])
    obtain rfl := Option.some.inj (there.symm.trans same)
    rw [there] at was
    exact .inr ⟨tables, rfl, (Except.ok.inj was).symm⟩

/-- Creating what a file lacks leaves the log that it has. -/
theorem extends_fill (sound : w.Sound) {l : Location} {found : Catalog}
    (was : w.disk.catalog l = .ok found) :
    w.Extends { w with disk := w.disk.putFile l (.database found.completed) } := by
  have here : (Source.file l).Follows w.disk (.file l)
      (w.disk.putFile l (.database found.completed)) := by
    obtain ⟨completed, same, events⟩ := Catalog.completed_catalog found
    rintro log ⟨tables, there, holds⟩
    rcases sound.catalog_eq was with ⟨none, -⟩ | ⟨tables', there', rfl⟩
    · rw [there] at none
      cases none
    · have sameCatalog : tables.catalog = tables'.catalog := by simpa [there] using there'
      refine ⟨[], ?_⟩
      rw [List.append_nil, same]
      refine Disk.holds_putFile (holds.of_events ?_)
      rw [events, ← sameCatalog]
      rfl
  exact ⟨fun l' => Disk.follows_putFile here _, fun n c found =>
    ⟨c, found, Disk.follows_putFile here _⟩⟩

/-- The tables of a connection to a file with a log are those that hold it. -/
theorem tables_file {l : Location} {tables : Tables}
    (there : w.disk.file? l = some (.database tables.catalog)) :
    w.tables (.file l) = .ok tables := by
  unfold Workspace.tables
  simp only [there]
  rfl

/-- A connection that is used stays, and the others stay as they are. -/
theorem found_modify {n : Nat} {c : Connection} (found : w.connections[n]? = some c)
    (f : Connection → Connection) (m : Nat) :
    (w.connections.modify n f)[m]? = if n = m then some (f c) else w.connections[m]? := by
  rw [List.getElem?_modify]
  by_cases same : n = m
  · simp [← same, found]
  · simp [same]

/-- Using a connection adds events to what it sees. Others see the same, if they
are made to the same file, and else what they saw. -/
theorem extends_use {n : Nat} {c : Connection} {tables : Tables} {f : Store → Store}
    (found : w.connections[n]? = some c) (has : w.tables c.source = .ok tables)
    (asked : Operation f) :
    w.Extends (w.keep n c.source (f ⟨tables, c.poisoned, w.now, w.metrics⟩)) := by
  obtain ⟨source, poisoned, logged⟩ := c
  dsimp only at has ⊢
  cases source with
  | memory kept =>
    obtain rfl := Except.ok.inj has
    refine ⟨fun l => .of_same fun _ => id, fun m c' found' => ?_⟩
    rw [keep, found_modify found]
    by_cases same : n = m
    · subst same
      obtain rfl := Option.some.inj (found.symm.trans found')
      exact ⟨_, if_pos rfl, fun log holds =>
        asked.extends (s := ⟨kept, poisoned, w.now, w.metrics⟩) holds⟩
    · exact ⟨c', by rw [if_neg same, found'], .of_same fun _ => id⟩
  | file l =>
    have here : (Source.file l).Follows w.disk (.file l) (w.disk.putFile l
        (.database (f ⟨tables, poisoned, w.now, w.metrics⟩).tables.catalog)) := by
      rintro log ⟨kept, there, holds⟩
      obtain rfl := Except.ok.inj ((tables_file there).symm.trans has)
      obtain ⟨more, grown⟩ :=
        asked.extends (s := ⟨kept, poisoned, w.now, w.metrics⟩) holds
      exact ⟨more, Disk.holds_putFile grown⟩
    refine ⟨fun l' => Disk.follows_putFile here _, fun m c' found' => ?_⟩
    rw [keep, found_modify found]
    by_cases same : n = m
    · subst same
      obtain rfl := Option.some.inj (found.symm.trans found')
      exact ⟨_, if_pos rfl, here⟩
    · exact ⟨c', by rw [if_neg same, found'], Disk.follows_putFile here _⟩

/-- Using a connection makes no file. -/
theorem file?_keep {source : Source} {tables : Tables} (has : w.tables source = .ok tables)
    (n : Nat) (s : Store) {l : Location} (absent : w.disk.file? l = none) :
    (w.keep n source s).disk.file? l = none := by
  cases source with
  | memory kept => exact absent
  | file l' =>
    rw [keep, Disk.file?_putFile, if_neg, absent]
    rintro rfl
    simp [Workspace.tables, absent] at has

theorem Sound.attach (sound : w.Sound) {c : Connection}
    (holds : ∃ log, c.source.Holds w.disk log) :
    Sound { w with connections := w.connections ++ [c] } := by
  refine sound.grow (extends_attach w c) (fun l absent there => ?_) fun n c' absent found => ?_
  · rw [absent] at there
    cases there
  · obtain rfl := new_of_attach absent found
    exact holds

/-- A step leaves every file and every connection with a log, which begins with
what it was before. -/
theorem Move.sound (move : Move w w') (sound : w.Sound) : w'.Sound ∧ w.Extends w' := by
  cases move with
  | aside files sources =>
    have grown := extends_aside files sources
    have length := congrArg List.length sources
    rw [List.length_map, List.length_map] at length
    refine ⟨sound.grow grown (fun l absent there => ?_) fun n c absent found =>
      absurd found (absent_of_length length n c absent), grown⟩
    rw [Disk.file?, files, ← Disk.file?, absent] at there
    cases there
  | @fill l catalog was =>
    have grown := extends_fill sound was
    refine ⟨sound.grow grown (fun l' absent there => ?_) fun n c absent found =>
      absurd found (absent_of_length (by rfl) n c absent), grown⟩
    dsimp only at there ⊢
    rw [Disk.file?_putFile] at there
    split at there
    · rename_i same
      subst same
      obtain ⟨completed, same, events⟩ := Catalog.completed_catalog catalog
      rcases sound.catalog_eq was with ⟨-, rfl⟩ | ⟨tables, present, -⟩
      · rw [same]
        exact ⟨[], Disk.holds_putFile ((Store.holds_new default).of_events events)⟩
      · rw [absent] at present
        cases present
    · rw [absent] at there
      cases there
  | attachMemory new logged => exact ⟨sound.attach ⟨[], new⟩, extends_attach ..⟩
  | attachFile there logged => exact ⟨sound.attach (sound.files _ there), extends_attach ..⟩
  | @use n c tables f found has asked =>
    have grown := extends_use found has asked
    refine ⟨sound.grow grown (fun l absent there => ?_) fun m c' absent found =>
      absurd found (absent_of_length (List.length_modify ..) m c' absent), grown⟩
    rw [file?_keep has n _ absent] at there
    cases there

theorem Moves.sound (moves : Moves w w') (sound : w.Sound) : w'.Sound ∧ w.Extends w' := by
  induction moves with
  | refl => exact ⟨sound, .refl w⟩
  | tail _ move ih =>
    obtain ⟨soundBefore, before⟩ := ih
    obtain ⟨soundAfter, after⟩ := move.sound soundBefore
    exact ⟨soundAfter, before.trans after⟩

theorem sound_empty (rootSize : Nat) (now : Instant) : (empty rootSize now).Sound := by
  refine ⟨fun l there => ?_, fun n c found => ?_⟩
  · cases there
  · cases found

end Moves

/-! ## Opening and using databases -/

/-- Making directories leaves the files. -/
theorem files_makeDirectory (path : Path) :
    Action.Keeps Disk.files (Disk.makeDirectory path) := fun d => by
  unfold Disk.makeDirectory
  rw [Action.run_bind, Action.run_get]
  simp only [Action.run_ite]
  split
  · rfl
  cases d.place? path.unslashed with
  | none => rfl
  | some l =>
    simp only [Action.run_ite]
    split <;> rfl

theorem files_makeDirectories (path : Path) :
    Action.Keeps Disk.files (Disk.makeDirectories path) := by
  refine .bind .get fun d => .ite _ ?_ (.throw _)
  induction path.ways with
  | nil => exact .pure _
  | cons way ways ih =>
    rw [List.forM_eq_forM, List.forM_cons]
    exact .bind (files_makeDirectory way) fun _ => ih

theorem run_onConnection {α : Type} (n : Nat) (act : Action Store α) (w : Workspace) :
    (onConnection n act).run w =
      match w.connections[n]? with
      | none => (.error (.internal "no such connection"), w)
      | some c =>
        match w.tables c.source with
        | .error fault => (.error fault, w)
        | .ok tables =>
          ((act.run ⟨tables, c.poisoned, w.now, w.metrics⟩).1,
            w.keep n c.source (act.run ⟨tables, c.poisoned, w.now, w.metrics⟩).2) := by
  unfold onConnection
  rw [Action.run_bind, Action.run_get]
  cases found : w.connections[n]? with
  | none => simp only [found, Action.run_throw]
  | some c =>
    cases has : w.tables c.source <;>
      simp only [found, has, Action.run_bind, Action.run_ofExcept, Action.run_set]

/-- Whatever is asked for through a connection. -/
theorem moves_onConnection (n : Nat) {f : Store → Store} (asked : Operation f) (w : Workspace) :
    Moves w ((onConnection n (modify f)).run w).2 := by
  rw [run_onConnection]
  cases found : w.connections[n]? with
  | none => exact .refl
  | some c =>
    cases has : w.tables c.source with
    | error fault =>
      simp only [has]
      exact .refl
    | ok tables =>
      simp only [has]
      exact .single (.use w found has asked)

theorem moves_onDisk {act : Action Disk Unit} (kept : Action.Keeps Disk.files act) (w : Workspace) :
    Moves w ((onDisk act).run w).2 := by
  have ran : ((onDisk act).run w).2 = { w with disk := (act.run w.disk).2 } := by
    simp [onDisk, Action.run_bind]
  rw [ran]
  exact .single (.aside (kept w.disk) rfl)

theorem moves_openInMemory (config : Config) (w : Workspace) :
    Moves w ((openInMemory config).run w).2 := by
  unfold openInMemory
  obtain ⟨answer, completed⟩ := Store.run_initialise .empty
  rw [completed]
  simp only [Action.run_bind, Action.run_ofExcept]
  cases answer with
  | error fault => exact .refl
  | ok => exact .single (.attachMemory w (Store.holds_new default) false)

theorem moves_openFile (path : Path) (config : Config) (w : Workspace) :
    Moves w ((openFile path config).run w).2 := by
  unfold openFile
  have made := moves_onDisk (files_makeDirectories path.parent) w
  rw [Action.run_bind]
  rcases ran : (onDisk (Disk.makeDirectories path.parent)).run w with ⟨answer, w₁⟩
  rw [ran] at made
  cases answer with
  | error fault => exact made
  | ok =>
    simp only [Action.run_bind, Action.run_get]
    cases w₁.disk.databaseFile? path with
    | none => exact made
    | some location =>
      simp only [Action.run_bind, Action.run_ofExcept]
      cases was : w₁.disk.catalog location with
      | error fault => exact made
      | ok found =>
        obtain ⟨answer, completed⟩ := Store.run_initialise found
        simp only [completed, Action.run_modify]
        have filled := made.tail (.fill w₁ was)
        cases answer with
        | error fault => exact filled
        | ok =>
          exact filled.tail (.attachFile _ (by simp [Disk.file?_putFile]) _)

theorem moves_openWith (config : Config) (w : Workspace) :
    Moves w ((openWith config).run w).2 := by
  unfold openWith
  split
  · exact moves_openFile ..
  · exact moves_openInMemory ..

theorem moves_openDirectory (path : Path) (w : Workspace) :
    Moves w ((openDirectory path).run w).2 := by
  unfold openDirectory
  have made := moves_onDisk (files_makeDirectories path) w
  rw [Action.run_bind]
  rcases ran : (onDisk (Disk.makeDirectories path)).run w with ⟨answer, w₁⟩
  rw [ran] at made
  cases answer with
  | error fault => exact made
  | ok => exact made.trans (moves_openFile ..)

theorem moves_release (held : List Nat) (w : Workspace) : Moves w (w.release held) := by
  refine .single (.aside rfl (List.ext_getElem? fun n => ?_))
  rw [release, List.getElem?_map, List.getElem?_mapIdx, List.getElem?_map]
  cases w.connections[n]? <;> rfl

/-! ## Runs -/

/-- A database is opened, a connection is used or given up, or time passes. -/
inductive Step : Workspace → Workspace → Prop
  | openWith (w : Workspace) (config : Config) : Step w ((openWith config).run w).2
  | openDirectory (w : Workspace) (path : Path) : Step w ((openDirectory path).run w).2
  | use (w : Workspace) (n : Nat) {f : Store → Store} (asked : Operation f) :
    Step w ((onConnection n (modify f)).run w).2
  | release (w : Workspace) (held : List Nat) : Step w (w.release held)
  | meanwhile (w : Workspace) (now : Instant) (metrics : Metrics) :
    Step w { w with now := now, metrics := metrics }

/-- Any number of steps. -/
abbrev Steps : Workspace → Workspace → Prop := Relation.ReflTransGen Step

theorem Step.moves {w w' : Workspace} (step : Step w w') : Moves w w' := by
  cases step with
  | openWith config => exact moves_openWith config w
  | openDirectory path => exact moves_openDirectory path w
  | use n asked => exact moves_onConnection n asked w
  | release held => exact moves_release held w
  | meanwhile now metrics => exact .single (.aside rfl rfl)

theorem Steps.sound {w w' : Workspace} (run : Steps w w') (sound : w.Sound) :
    w'.Sound ∧ w.Extends w' := by
  have moves : Moves w w' := by
    induction run with
    | refl => exact .refl
    | tail _ step ih => exact ih.trans step.moves
  exact moves.sound sound

/-- The tables that a connection has. -/
def of? (w : Workspace) (n : Nat) : Option Tables :=
  w.connections[n]?.bind fun c => (w.tables c.source).toOption

/-- What a connection has holds the log of what it is made to. -/
theorem of?_of_holds {w : Workspace} {n : Nat} {c : Connection} {log : List StoredEvent}
    (found : w.connections[n]? = some c) (holds : c.source.Holds w.disk log) :
    ∃ tables, w.of? n = some tables ∧ w.tables c.source = .ok tables ∧ tables.Holds log := by
  unfold of?
  rw [found]
  obtain ⟨source, poisoned, logged⟩ := c
  cases source with
  | memory tables => exact ⟨tables, rfl, rfl, holds⟩
  | file l =>
    obtain ⟨tables, there, holdsTables⟩ := holds
    have has := tables_file there
    exact ⟨tables, by simp [has, Except.toOption], has, holdsTables⟩

/-- What a connection answers is what its store does. -/
theorem run_onConnection_of {w : Workspace} {n : Nat} {tables : Tables}
    (opened : w.of? n = some tables) :
    ∃ s : Store, s.tables = tables ∧
      ∀ {α : Type} (act : Action Store α), ((onConnection n act).run w).1 = (act.run s).1 := by
  unfold of? at opened
  cases found : w.connections[n]? with
  | none => simp [found] at opened
  | some c =>
    cases has : w.tables c.source with
    | error fault => simp [found, has, Except.toOption] at opened
    | ok tables' =>
      obtain rfl : tables' = tables := by simpa [found, has, Except.toOption] using opened
      refine ⟨⟨tables', c.poisoned, w.now, w.metrics⟩, rfl, fun act => ?_⟩
      rw [run_onConnection]
      simp only [found, has]

/-- At any later time, the log of a connection begins with what it was: events are
added at its end and none is changed. The table holds nothing else, the n-th event
has the id n, and whatever streams are read, by the store or by clients of any
domain, their events come in this order, as they are read back. -/
theorem log_only_grows {rootSize : Nat} {now : Instant} {w w' : Workspace}
    (before : Steps (empty rootSize now) w)
    (after : Steps w w') {n : Nat} {tables : Tables} (opened : w.of? n = some tables) :
    ∃ tables' added, w'.of? n = some tables' ∧
      tables'.events = tables.events ++ added.map StoredEvent.row ∧
      tables'.log = tables.log ++ added ∧
      tables'.events = tables'.log.map StoredEvent.row ∧
      (∀ (k : Nat) (event : StoredEvent), tables'.log[k]? = some event → event.id = k + 1) ∧
      ∀ (specs : List Stream) (floor : Option EventId),
        (∀ events, ((onConnection n (Store.streams specs floor)).run w').1 = .ok events →
          events = (tables'.log.filter fun event =>
            event.isOf specs && floor.all (· < event.id)).map StoredEvent.reread) ∧
        ∀ (E : Type) [DomainEvent E] (recorded : List (Recorded E)),
          ((onConnection n (Client.streams E specs floor)).run w').1 = .ok recorded →
          Client.readAll E (tables'.log.filter fun event =>
            event.isOf specs && floor.all (· < event.id)) = .ok recorded := by
  obtain ⟨sound, -⟩ := before.sound (sound_empty rootSize now)
  obtain ⟨-, grown⟩ := after.sound sound
  cases found : w.connections[n]? with
  | none => simp [of?, found] at opened
  | some c =>
    obtain ⟨log, holds⟩ := sound.sources n c found
    obtain ⟨c', found', follows⟩ := grown.sources n c found
    obtain ⟨added, holdsMore⟩ := follows log holds
    obtain ⟨first, shown, -, holdsFirst⟩ := of?_of_holds found holds
    obtain ⟨tables', opened', -, holdsTables⟩ := of?_of_holds found' holdsMore
    obtain rfl : first = tables := Option.some.inj (shown.symm.trans opened)
    obtain ⟨s, rfl, answers⟩ := run_onConnection_of opened'
    refine ⟨s.tables, added, opened', ?_, ?_, ?_, fun k event there => ?_, fun specs floor =>
      ⟨fun events answered => ?_, fun E _ recorded answered => ?_⟩⟩
    · rw [holdsTables.rows, holdsFirst.rows, List.map_append]
    · rw [holdsTables.log_eq, holdsFirst.log_eq]
    · rw [holdsTables.log_eq, holdsTables.rows]
    · rw [holdsTables.log_eq] at there
      simpa [noEvent] using holdsTables.numbered.id_eq there
    · rw [answers] at answered
      rw [holdsTables.log_eq]
      exact (Store.run_streams_eq_ok holdsTables (Prod.ext answered rfl)).1
    · rw [answers] at answered
      rw [holdsTables.log_eq, filter_after holdsTables.numbered]
      exact (Client.streams_eq_ok holdsTables (Prod.ext answered rfl)).1

/-! ## Two writes and a refusal -/

open Sample in
/-- A client writes a batch of the domain of every shape. -/
def probing (events : List Probe) (s : Store) : Store :=
  (Client.Call.write (T := Json) (.appendBatch events)).perform s

theorem operation_probing (events : List Sample.Probe) : Operation (probing events) :=
  .client (.write (.appendBatch events))

/-- An event was written to a database in memory. -/
def oneWritten : Workspace :=
  ((onConnection 0 (modify (probing [.note "a"]))).run
    ((openWith .inMemory).run (empty 0 default)).2).2

/-- A batch was refused, and then another event was written. -/
def twoWritten : Workspace :=
  ((onConnection 0 (modify (probing [.note "b"]))).run
    ((onConnection 0 (modify (probing [.note "c", .ping]))).run oneWritten).2).2

/-- No id was skipped. -/
theorem log_only_grows_two :
    ∃ tables tables' added, oneWritten.of? 0 = some tables ∧ twoWritten.of? 0 = some tables' ∧
      tables'.log = tables.log ++ added ∧ tables'.log.map StoredEvent.id = [1, 2] := by
  have before : Steps (empty 0 default) oneWritten :=
    .tail (.single (.openWith _ .inMemory)) (.use _ 0 (operation_probing _))
  have after : Steps oneWritten twoWritten :=
    .tail (.single (.use _ 0 (operation_probing _))) (.use _ 0 (operation_probing _))
  obtain ⟨tables', added, opened, -, grown, -⟩ := log_only_grows before after (n := 0) rfl
  refine ⟨_, tables', added, rfl, opened, grown, ?_⟩
  have shown : (twoWritten.of? 0).map (fun t => t.log.map StoredEvent.id) = some [1, 2] := by rfl
  rw [opened] at shown
  exact Option.some.inj shown

end Workspace

end Chronicle
