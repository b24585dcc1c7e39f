import Playback.Agents.Store
import Playback.Json.Datum
import Playback.Json.Writer

namespace Playback.Agents

open Json (Value)

structure Inspection where
  parsed : Parsed
  store : Store
  deriving DecidableEq, Repr

namespace Inspection

def ofText (autoExpand : Bool) (clock : Instant) (seed : Nat) (text : String) : Inspection :=
  let parsed := Marker.parse text
  ⟨parsed, (Store.new autoExpand clock seed).handleAll parsed.events⟩

def toValue (i : Inspection) : Value :=
  .object [("clean_content", .string i.parsed.clean),
    ("expanded", .array ((i.store.expanded.mergeSort fun a b => a ≤ b).map .string)),
    ("trailing_partial", .string i.parsed.trailing),
    ("tree", i.store.tree.toValue)]

end Inspection

end Playback.Agents
