import Chronicle.Proofs.Log.Growth
import Chronicle.Proofs.Runner.Reads
import Chronicle.Sample.Probe

/-!
# What clients write

A client has five ways to write events (`Client.Write`), and all of them do the
same: check what is to be written, ask the store for one append, and decode the
rows as they come back (`Write.run_action`). What the store has written it keeps
(`Write.outcome`). Where payloads are read back as they were written, what passes
the check can be decoded, so that nothing fails after that: a write that fails leaves
the tables as they were, and one that answers has put what it was asked to write
after everything else (`write_all_or_nothing`).
-/

namespace Chronicle

/-- Appending one draft is appending it alone. -/
theorem Store.run_append (draft : Draft) (s : Store) :
    (EventLog.append draft).run s =
      match (Store.appendBatch [draft]).run s with
      | (.ok _, t) => (.ok (draft.stored (s.tables.lastId + 1) s.now).reread, t)
      | (.error fault, t) => (.error fault, t) := by
  unfold EventLog.append
  simp only [Action.run_bind, EventLog.appendBatch]
  rcases ran : (Store.appendBatch [draft]).run s with ⟨answer, t⟩
  cases answer with
  | error fault => rfl
  | ok rows =>
    obtain ⟨rfl, -⟩ := (Store.appends_appendBatch [draft]).of_ok ran
    rfl

namespace Client

variable {E : Type} [DomainEvent E]

/-- What a client can ask to be written. -/
inductive Write (E : Type) where
  | append (event : E)
  | appendRaw (draft : Draft)
  | appendBatch (events : List E)
  | appendBatchRaw (drafts : List Draft)
  | appendIfNoNewer (events : List E) (floor : EventId) (specs : List Stream)

namespace Write

/-- The operation. The answer to a single event is a list of one. -/
def action : Write E → Action Store (List (Recorded E))
  | append event => (fun recorded => [recorded]) <$> Client.append event
  | appendRaw draft => (fun recorded => [recorded]) <$> Client.appendRaw E draft
  | appendBatch events => Client.appendBatch events
  | appendBatchRaw drafts => Client.appendBatchRaw E drafts
  | appendIfNoNewer events floor specs => Client.appendIfNoNewer events floor specs

/-- The store that a write leaves. -/
def perform (w : Write E) (s : Store) : Store := (w.action.run s).2

/-- What is asked to be written, in the form it is written in. -/
def drafts : Write E → Except Fault (List Draft)
  | append event => [event].mapM DomainEvent.toDraft
  | appendRaw draft => .ok [draft]
  | appendBatch events | appendIfNoNewer events _ _ => events.mapM DomainEvent.toDraft
  | appendBatchRaw drafts => .ok drafts

/-- The same after all that is checked before the store is asked. -/
def checked : Write E → Except Fault (List Draft)
  | append event => encode [event]
  | appendRaw draft => do
    checkDrafts E [draft]
    return [draft]
  | appendBatch events => encode events
  | appendBatchRaw drafts => do
    checkDrafts E drafts
    return drafts
  | appendIfNoNewer events _ specs => do
    checkStreams specs
    encode events

/-- What the store is asked for. -/
def request (drafts : List Draft) : Write E → Action Store (List StoredEvent)
  | appendIfNoNewer _ floor specs => Store.appendIfNoNewer drafts floor specs
  | _ => Store.appendBatch drafts

/-- Asking it, and decoding the rows that come back. -/
def ask (drafts : List Draft) (w : Write E) : Action Store (List (Recorded E)) := do
  let rows ← w.request drafts
  Action.ofExcept (decodeAll E rows)

omit [DomainEvent E] in
theorem appends_request (w : Write E) (drafts : List Draft) :
    Store.Appends drafts (w.request drafts) := by
  cases w with
  | appendIfNoNewer events floor specs => exact Store.appends_appendIfNoNewer drafts floor specs
  | append | appendRaw | appendBatch | appendBatchRaw => exact Store.appends_appendBatch drafts

theorem checked_eq_ok {w : Write E} {drafts : List Draft} (passed : w.checked = .ok drafts) :
    w.drafts = .ok drafts ∧ checkDrafts E drafts = .ok () := by
  have raw {given : List Draft} (passed : (do checkDrafts E given; return given) = .ok drafts) :
      Except.ok (ε := Fault) given = .ok drafts ∧ checkDrafts E drafts = .ok () := by
    obtain ⟨_, fit, same⟩ := bind_eq_ok.1 passed
    obtain rfl := Except.ok.inj same
    exact ⟨rfl, fit⟩
  cases w with
  | append event => exact encode_eq_ok.1 passed
  | appendRaw draft => exact raw passed
  | appendBatch events => exact encode_eq_ok.1 passed
  | appendBatchRaw given => exact raw passed
  | appendIfNoNewer events floor specs =>
    obtain ⟨_, -, encoded⟩ := bind_eq_ok.1 passed
    exact encode_eq_ok.1 encoded

theorem decodeAll_singleton (row : StoredEvent) :
    decodeAll E [row] = (Recorded.decode row).map fun recorded => [recorded] := by
  cases decoded : Recorded.decode (E := E) row <;>
    simp [decodeAll, decoded, Except.map, bind, Except.bind, pure, Except.pure]

theorem run_ask (w : Write E) (drafts : List Draft) (s : Store) :
    (w.ask drafts).run s =
      match (w.request drafts).run s with
      | (.ok rows, t) => (decodeAll E rows, t)
      | (.error fault, t) => (.error fault, t) := by
  rw [ask, Action.run_bind]
  rcases (w.request drafts).run s with ⟨answer, t⟩
  cases answer with
  | error fault => rfl
  | ok rows => exact Action.run_ofExcept ..

/-- A single draft is written like a batch of one. -/
theorem run_appendRaw (draft : Draft) (s : Store) :
    (action (E := E) (.appendRaw draft)).run s =
      (action (E := E) (.appendBatchRaw [draft])).run s := by
  rw [action, action, Action.run_map, Client.appendRaw, Client.appendBatchRaw]
  simp only [Action.run_bind, Action.run_ofExcept, EventLog.appendBatch, Store.run_append]
  cases checkDrafts E [draft] with
  | error fault => rfl
  | ok =>
    dsimp only
    rcases ran : (Store.appendBatch [draft]).run s with ⟨answer, t⟩
    cases answer with
    | error fault => rfl
    | ok rows =>
      obtain ⟨rfl, -⟩ := (Store.appends_appendBatch [draft]).of_ok ran
      exact Prod.ext (decodeAll_singleton _).symm rfl

/-- So is a single event. -/
theorem run_append (event : E) (s : Store) :
    (action (.append event)).run s = (action (.appendBatch [event])).run s := by
  rw [action, action, Action.run_map, Client.append, Client.appendBatch, Action.run_bind,
    Action.run_ofExcept, Action.run_bind, Action.run_ofExcept]
  cases split : DomainEvent.toDraft event with
  | error fault =>
    have alone : encode [event] = .error fault := by simp [encode, split, bind, Except.bind]
    rw [alone]
    rfl
  | ok draft =>
    have alone : encode [event] = (checkDrafts E [draft]).map fun _ => [draft] := by
      cases checked : checkDrafts E [draft] <;>
        simp [encode, split, checked, bind, Except.bind, pure, Except.pure, Except.map]
    have raw := run_appendRaw (E := E) draft s
    rw [action, action, Action.run_map, Client.appendBatchRaw, Action.run_bind,
      Action.run_ofExcept] at raw
    rw [alone]
    refine raw.trans ?_
    cases checkDrafts E [draft] <;> rfl

/-- A write checks first and then asks the store once. -/
theorem run_action (w : Write E) (s : Store) :
    w.action.run s =
      match w.checked with
      | .error fault => (.error fault, s)
      | .ok drafts => (w.ask drafts).run s := by
  have batch (events : List E) :
      (action (.appendBatch events)).run s =
        match encode events with
        | .error fault => (.error fault, s)
        | .ok drafts => (ask drafts (.appendBatch events)).run s := by
    rw [action, Client.appendBatch, Action.run_bind, Action.run_ofExcept]
    cases encode events <;> rfl
  have raw (drafts : List Draft) :
      (action (E := E) (.appendBatchRaw drafts)).run s =
        match checked (E := E) (.appendBatchRaw drafts) with
        | .error fault => (.error fault, s)
        | .ok drafts => (ask (E := E) drafts (.appendBatchRaw drafts)).run s := by
    rw [action, Client.appendBatchRaw, Action.run_bind, Action.run_ofExcept, checked]
    cases checkDrafts E drafts <;> rfl
  cases w with
  | append event => exact (run_append event s).trans (batch [event])
  | appendRaw draft => exact (run_appendRaw draft s).trans (raw [draft])
  | appendBatch events => exact batch events
  | appendBatchRaw drafts => exact raw drafts
  | appendIfNoNewer events floor specs =>
    rw [action, Client.appendIfNoNewer, Action.run_bind, Action.run_ofExcept, checked]
    cases checkStreams specs with
    | error fault => rfl
    | ok =>
      dsimp only
      rw [Action.run_bind, Action.run_ofExcept]
      cases encode events <;> rfl

/-- A write fails and leaves what there was, or what it was asked to write stands after
everything else. Then it answers what is read back of that. -/
theorem outcome (w : Write E) (s : Store) :
    (∃ fault, (w.action.run s).1 = .error fault ∧ (w.perform s).content = s.content) ∨
      ∃ drafts, w.drafts = .ok drafts ∧ (∀ draft ∈ drafts, draft.Fits E) ∧
        (∀ draft ∈ drafts, draft.data.Legible) ∧
        (w.perform s).tables = s.tables.push (Draft.numbered s.now s.tables.lastId drafts) ∧
        (w.action.run s).1 = readAll E (Draft.numbered s.now s.tables.lastId drafts) := by
  rw [perform, run_action]
  cases passed : w.checked with
  | error fault => exact .inl ⟨fault, rfl, rfl⟩
  | ok drafts =>
    obtain ⟨given, fit⟩ := checked_eq_ok passed
    dsimp only
    rw [run_ask]
    rcases ran : (w.request drafts).run s with ⟨answer, t⟩
    cases answer with
    | error fault => exact .inl ⟨fault, rfl, (appends_request w drafts).of_error ran⟩
    | ok rows =>
      obtain ⟨rfl, grown, legible⟩ := (appends_request w drafts).of_ok ran
      exact .inr ⟨drafts, given, fits_of_checkDrafts fit, legible, grown, rfl⟩

/-- The payloads to be written are read back as they are. -/
def Exact (w : Write E) : Prop :=
  ∀ drafts, w.drafts = .ok drafts → ∀ draft ∈ drafts, draft.data.reread = draft.data

end Write

section Append

variable {event : E} {draft : Draft}

/-- An event that does not read back is refused before the store is asked. -/
theorem run_append_of_misfit {fault : Fault} (split : DomainEvent.toDraft event = .ok draft)
    (misfits : DomainEvent.ofRaw (E := E) draft.type draft.data = .error fault) (s : Store) :
    (append event).run s = (.error fault, s) := by
  have refused : checkDrafts E [draft] = .error fault := by
    simp [checkDrafts, misfits, Except.map, bind, Except.bind]
  rw [append, Action.run_bind, Action.run_ofExcept, split]
  dsimp only
  rw [appendRaw, Action.run_bind, Action.run_ofExcept, refused]

/-- One that does is written, and what is read back of it is decoded. -/
theorem run_append_of_fits (split : DomainEvent.toDraft event = .ok draft) (fits : draft.Fits E)
    (s : Store) :
    (append event).run s =
      match (Store.appendBatch [draft]).run s with
      | (.ok _, t) => (Recorded.decode (draft.stored (s.tables.lastId + 1) s.now).reread, t)
      | (.error fault, t) => (.error fault, t) := by
  obtain ⟨back, reads⟩ := fits
  have passed : checkDrafts E [draft] = .ok () := by
    simp [checkDrafts, reads, Except.map, bind, Except.bind, pure, Except.pure]
  rw [append, Action.run_bind, Action.run_ofExcept, split]
  dsimp only
  rw [appendRaw, Action.run_bind, Action.run_ofExcept, passed]
  dsimp only
  rw [Action.run_bind, Store.run_append]
  rcases (Store.appendBatch [draft]).run s with ⟨answer, t⟩
  cases answer with
  | error fault => rfl
  | ok rows => exact Action.run_ofExcept ..

end Append

/-- A write of a client whose payloads are read back as they are leaves the tables as
they were when it fails. One that answers has added rows after all others: the rows are
what was asked to be written, one for one and in order, and the answer is what is read
back of them and decoded. -/
theorem write_all_or_nothing (w : Write E) (s : Store) :
    (w.Exact → ∀ fault, (w.action.run s).1 = .error fault → (w.perform s).tables = s.tables) ∧
      ∀ recorded, (w.action.run s).1 = .ok recorded →
        ∃ drafts rows, w.drafts = .ok drafts ∧
          rows.map (fun row => (row.type, row.data)) =
            drafts.map (fun draft => (draft.type, draft.data)) ∧
          (w.perform s).tables.events = s.tables.events ++ rows.map StoredEvent.row ∧
          readAll E rows = .ok recorded ∧ (w.Exact → decodeAll E rows = .ok recorded) := by
  rcases w.outcome s with ⟨fault, failed, kept⟩ | ⟨drafts, given, fit, -, grown, answered⟩
  · refine ⟨fun _ _ _ => congrArg Prod.fst kept, fun recorded answered => ?_⟩
    rw [failed] at answered
    cases answered
  · refine ⟨fun exact fault failed => ?_, fun recorded succeeded => ?_⟩
    · -- What was checked is what is read back, so that decoding it cannot fail.
      have back : ∀ draft ∈ drafts, draft.reread.Fits E := fun draft present => by
        rw [Draft.reread, exact drafts given draft present]
        exact fit draft present
      obtain ⟨recorded, decoded⟩ := readAll_numbered back s.now s.tables.lastId
      rw [answered, decoded] at failed
      cases failed
    · rw [succeeded] at answered
      refine ⟨drafts, _, given, Draft.map_numbered Prod.mk .., congrArg Tables.events grown,
        answered.symm, fun exact => ?_⟩
      rw [answered, readAll, map_reread_of_exact fun row written => ?_]
      obtain ⟨draft, inDrafts, -, data⟩ := Draft.mem_numbered written
      rw [data, exact drafts given draft inDrafts]

open Sample in
/-- The second event of a batch does not read back, so the first is not written.
Alone it is. -/
theorem write_all_or_nothing_probe :
    ((Write.appendBatch [Probe.note "a", .ping]).perform (Store.new default)).tables =
        (Store.new default).tables ∧
      ∃ drafts rows, (Write.appendBatch [Probe.note "a"]).drafts = .ok drafts ∧
        rows.map (fun row => (row.type, row.data)) =
          drafts.map (fun draft => (draft.type, draft.data)) ∧
        ((Write.appendBatch [Probe.note "a"]).perform (Store.new default)).tables.events =
          (Store.new default).tables.events ++ rows.map StoredEvent.row ∧
        decodeAll Probe rows = .ok [⟨1, .note "a", default, default⟩] := by
  have exact {events : List Probe} (drafts : List Draft)
      (given : (Write.appendBatch events).drafts = .ok drafts)
      (same : ∀ draft ∈ drafts, draft.data.reread = draft.data) :
      (Write.appendBatch events).Exact := fun other again => by
    obtain rfl := Except.ok.inj (given.symm.trans again)
    exact same
  have refused := (write_all_or_nothing (.appendBatch [Probe.note "a", .ping])
    (Store.new default)).1 (exact [⟨"NOTE", .string "a"⟩, ⟨"PING", .object []⟩] rfl
      (by simp [Json.reread, Json.rereadMembers])) _ rfl
  obtain ⟨drafts, rows, given, same, added, -, decoded⟩ :=
    (write_all_or_nothing (.appendBatch [Probe.note "a"]) (Store.new default)).2 _ rfl
  exact ⟨refused, drafts, rows, given, same, added,
    decoded (exact [⟨"NOTE", .string "a"⟩] rfl (by simp [Json.reread]))⟩

end Client

end Chronicle
