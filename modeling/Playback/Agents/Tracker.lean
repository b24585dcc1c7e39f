import Playback.Agents.Event

/-!
Which events of a growing text have been applied. Every scan of the text gives all its events again;
a delta is known by its place among the deltas of its agent, any other event by its key.
-/

namespace Playback.Agents

structure Tracker where
  applied : List String
  deriving DecidableEq, Repr

namespace Tracker

def empty : Tracker := ⟨[]⟩

instance : Inhabited Tracker := ⟨empty⟩

def count (t : Tracker) : Nat := t.applied.length

def keyAfter (before : List Event) (e : Event) : String :=
  match e with
  | .delta agent _ =>
    let earlier := before.countP fun d => d.kind == .delta && d.agent == agent
    "delta:" ++ agent ++ "#" ++ toString earlier
  | e => e.key

/-- Goes through the events of a text, of which `before` have been seen, and keeps those that are
new. -/
def takeAfter (t : Tracker) (before : List Event) : List Event → Tracker × List Event
  | [] => (t, [])
  | e :: rest =>
    let key := keyAfter before e
    if key ∈ t.applied then t.takeAfter (before ++ [e]) rest
    else
      let (t, fresh) := takeAfter ⟨key :: t.applied⟩ (before ++ [e]) rest
      (t, e :: fresh)

def take (t : Tracker) (events : List Event) : Tracker × List Event := t.takeAfter [] events

end Tracker

end Playback.Agents
