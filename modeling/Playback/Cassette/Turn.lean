import Playback.Cassette.Basic
import Playback.Pacing
import Playback.Stream.Script
import Playback.Uuid

namespace Playback.Cassette

open Playback.Stream (Event Script Step)

def typedScript (pacing : Pacing) (start : Event) (delta : String → Event) (stop : Event)
    (text : String) : Script :=
  .emit start ::
    (text.toList.flatMap fun c => [Step.emit (delta (String.singleton c)), .pause pacing.typing]) ++
    [.emit stop]

def Part.script (pacing : Pacing) (id : String) : Part → Script
  | .text t => typedScript pacing (.textStart id) (.textDelta id) (.textEnd id) t
  | .reasoning t =>
    typedScript pacing (.reasoningStart id) (.reasoningDelta id) (.reasoningEnd id) t
  | .toolCall call tool args result =>
    .emit (.toolInput call tool args) ::
      match result with
      | none => []
      | some output => [.pause pacing.toolResult, .emit (.toolOutput call output)]

def partsScript (pacing : Pacing) (first : Nat) : List Part → Script
  | [] => []
  | p :: rest => p.script pacing (Uuid.ofNat first) ++ partsScript pacing (first + 1) rest

structure Turn where
  first : Nat
  parts : List Part
  deriving DecidableEq, Repr

namespace Turn

def isEmpty (t : Turn) : Bool := t.parts.isEmpty

/-- An empty turn takes no time. -/
def script (pacing : Pacing) (t : Turn) : Script :=
  if t.isEmpty then [] else .pause pacing.assistantStart :: partsScript pacing t.first t.parts

end Turn

end Playback.Cassette
