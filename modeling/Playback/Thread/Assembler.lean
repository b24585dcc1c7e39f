import Playback.Stream.Event
import Playback.Thread.Basic

namespace Playback.Thread

structure Assembler where
  parts : List Part
  /-- Which part a stream's id stands for while it is growing; the latest start comes first. -/
  growing : List (String × Nat)
  deriving DecidableEq, Repr

namespace Assembler

def empty : Assembler := ⟨[], []⟩

def isEmpty (a : Assembler) : Bool := a.parts.isEmpty

def start (a : Assembler) (id : String) (p : Part) : Assembler :=
  ⟨a.parts ++ [p], (id, a.parts.length) :: a.growing⟩

/-- Lets the part of an id grow, whichever kind of text it is; returns the index of a text that
grew, but none of reasoning. -/
def grow (a : Assembler) (id delta : String) : Assembler × Option Nat :=
  match a.growing.lookup id with
  | none => (a, none)
  | some i =>
    match a.parts[i]? with
    | some (.text t) => ({ a with parts := a.parts.set i (.text (t ++ delta)) }, some i)
    | some (.reasoning t) => ({ a with parts := a.parts.set i (.reasoning (t ++ delta)) }, none)
    | _ => (a, none)

def stop (a : Assembler) (id : String) : Assembler :=
  { a with growing := a.growing.filter (·.1 ≠ id) }

def answered (call : String) (output : Json.Datum) : Part → Part
  | .toolCall id tool args result =>
    .toolCall id tool args (if id = call then some output else result)
  | p => p

def apply (a : Assembler) : Stream.Event → Assembler × Option Nat
  | .textStart id => (a.start id (.text ""), none)
  | .reasoningStart id => (a.start id (.reasoning ""), none)
  | .textDelta id delta | .reasoningDelta id delta => a.grow id delta
  | .textEnd id | .reasoningEnd id => (a.stop id, none)
  | .toolInput call tool input =>
    ({ a with parts := a.parts ++ [.toolCall call tool input none] }, none)
  | .toolOutput call output => ({ a with parts := a.parts.map (answered call output) }, none)

def applyAll (a : Assembler) (events : List Stream.Event) : Assembler :=
  events.foldl (fun a e => (a.apply e).1) a

def textAt (a : Assembler) (i : Nat) : Option String :=
  match a.parts[i]? with
  | some (.text t) => some t
  | _ => none

end Assembler

end Playback.Thread
