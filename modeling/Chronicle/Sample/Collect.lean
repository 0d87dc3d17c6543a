import Chronicle.Runner.Projection

/-!
# Collecting

A projection that collects the values of one payload field, over raw events and
any streams.
-/

namespace Chronicle.Sample

instance : ProjectedState (List Json) := ⟨Decoder.list Decoder.any, fun items => .ok (.array items)⟩

/-- Collect the values that events have at a field, in order, at most `max` of
them if that is given. -/
def collect (type id : String) (streams : List Stream) (field : String) (max : Option Nat) :
    Projection Draft (List Json) where
  type := type
  id := id
  streams := streams
  initial := []
  fold items event := items ++ (event.data.member? field).toList
  check items :=
    match max with
    | some most =>
      if most < items.length then
        .error (.validation s!"state has {items.length} entries, at most {most} allowed")
      else .ok ()
    | none => .ok ()

end Chronicle.Sample
