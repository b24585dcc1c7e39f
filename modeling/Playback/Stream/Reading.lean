import Playback.Stream.Script

namespace Playback.Stream

inductive Remainder where
  | finish
  | collect
  | poll
  | drop
  deriving DecidableEq, Repr

structure Reading where
  events : List (Nat × Event)
  ended : Bool
  outcome : Option Outcome
  elapsed : Nat
  deriving DecidableEq, Repr

namespace Trace

def takenAt (t : Trace) (begun count : Nat) : Nat :=
  match count with
  | 0 => begun
  | n + 1 => (t.events[n]?.map (·.1)).getD t.finish

def read (t : Trace) (begun count : Nat) (rest : Remainder) : Reading :=
  let taken := t.events.take count
  let left := t.events.drop count
  let ended : Bool := t.events.length < count
  match rest with
  | .finish => ⟨taken, ended, some t.outcome, t.finish⟩
  | .collect => ⟨taken ++ left.map fun (_, e) => (t.finish, e), ended, some t.outcome, t.finish⟩
  | .poll => ⟨taken ++ left, ended, some t.outcome, t.finish⟩
  | .drop => ⟨taken, ended, none, t.takenAt begun count⟩

/-- What the producer has done when the reader drops the stream after `count` events. It does not
begin before the first is asked for. -/
def untilDropped (t : Trace) (begun count : Nat) : List (Nat × Event) × List Nat :=
  if count = 0 then ([], [])
  else
    let dropped := t.takenAt begun count
    (t.events.filter (·.1 ≤ dropped), t.pauses.filter (· ≤ dropped))

end Trace

end Playback.Stream
