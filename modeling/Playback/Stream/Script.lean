import Playback.Stream.Event
import Playback.Token

/-!
What the producer of a stream does step by step, and what becomes of it on a clock of whole
milliseconds. Time passes in pauses only.
-/

namespace Playback.Stream

/-- How a stream ends. One that is cancelled is left without a last word. -/
inductive Outcome where
  | completed
  | cancelled
  deriving DecidableEq, Repr

def Outcome.name : Outcome → String
  | completed => "completed"
  | cancelled => "cancelled"

inductive Step where
  | emit (e : Event)
  /-- Hands over an event whatever the token says. -/
  | write (e : Event)
  | pause (ms : Nat)
  | crash
  | stop (outcome : Outcome)
  deriving DecidableEq, Repr

abbrev Script := List Step

structure Limits where
  token : Token
  cancelAfter : Option Nat
  capacity : Option Nat
  deriving DecidableEq, Repr

namespace Limits

def ofToken (token : Token) : Limits := ⟨token, none, none⟩

def isCancelled (l : Limits) (now sent : Nat) : Bool :=
  l.token.isCancelled now || l.cancelAfter.any (· ≤ sent)

def isFull (l : Limits) (sent : Nat) : Bool := l.capacity.any (· ≤ sent)

def pause (l : Limits) (now sent ms : Nat) : Except Nat Nat :=
  if l.isCancelled now sent then .error now else l.token.pause now ms

end Limits

inductive Ending where
  | stopped (outcome : Outcome)
  | crashed
  deriving DecidableEq, Repr

def Ending.outcome : Ending → Outcome
  | stopped outcome => outcome
  | crashed => .cancelled

/-- A script as it was played: what was handed over when, when the pauses were over that were not
cut, and the end. -/
structure Trace where
  events : List (Nat × Event)
  pauses : List Nat
  ending : Ending
  finish : Nat
  deriving DecidableEq, Repr

namespace Trace

def ended (now : Nat) (ending : Ending) : Trace := ⟨[], [], ending, now⟩

def afterEvent (now : Nat) (e : Event) (t : Trace) : Trace :=
  { t with events := (now, e) :: t.events }

def afterPause (now : Nat) (t : Trace) : Trace := { t with pauses := now :: t.pauses }

def outcome (t : Trace) : Outcome := t.ending.outcome

end Trace

/-- Plays the rest of a script from an instant on, when some events have been handed over. A script
without an end of its own is completed. -/
def Script.play (l : Limits) (now sent : Nat) : Script → Trace
  | [] => .ended now (.stopped .completed)
  | .emit e :: rest =>
    if l.isCancelled now sent || l.isFull sent then .ended now (.stopped .cancelled)
    else (play l now (sent + 1) rest).afterEvent now e
  | .write e :: rest =>
    if l.isFull sent then .ended now (.stopped .cancelled)
    else (play l now (sent + 1) rest).afterEvent now e
  | .pause ms :: rest =>
    match l.pause now sent ms with
    | .error cut => .ended cut (.stopped .cancelled)
    | .ok later => (play l later sent rest).afterPause later
  | .crash :: _ => .ended now .crashed
  | .stop outcome :: _ => .ended now (.stopped outcome)

end Playback.Stream
