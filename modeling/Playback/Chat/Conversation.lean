import Playback.Agents.Store
import Playback.Chat.Basic
import Playback.Chat.Transport
import Playback.Thread.Assembler

/-!
A conversation: every message of the user starts a run, which assembles the assistant's turn from a
stream and feeds the text of each of its text parts, as it grows, to a store of agents.
-/

namespace Playback.Chat

open Playback.Stream (Event Script Trace Limits)
open Thread (Assembler)
open Agents (Store Tracker)

/-- What the events taken so far have made. Each text part is a text of its own for the store, with
a tracker. -/
structure Intake where
  assembler : Assembler
  trackers : List (Nat × Tracker)
  store : Option Store
  dropped : List String
  deriving DecidableEq, Repr

namespace Intake

def take (i : Intake) (clock : Instant) (e : Event) : Intake :=
  let (assembler, grown) := i.assembler.apply e
  match i.store, grown with
  | some store, some k =>
    let parsed := Agents.Marker.parse ((assembler.textAt k).getD "")
    let tracker := (i.trackers.lookup k).getD .empty
    let (store, tracker) := { store with clock := clock }.takeParsed tracker parsed
    ⟨assembler, (k, tracker) :: i.trackers.filter (·.1 ≠ k), some store,
      i.dropped ++ parsed.dropped⟩
  | store, _ => ⟨assembler, i.trackers, store, i.dropped⟩

def takeAll (origin : Instant) (i : Intake) : List (Nat × Event) → Intake
  | [] => i
  | (time, e) :: rest => (i.take (origin.plusMillis time) e).takeAll origin rest

end Intake

structure Run where
  begun : Nat
  script : Script
  seen : Nat
  assembler : Assembler
  trackers : List (Nat × Tracker)
  deriving DecidableEq, Repr

structure Conversation (τ : Type) where
  transport : τ
  thread : List Thread.Message
  completed : Nat
  run : Option Run
  store : Option Store
  origin : Instant
  token : Token
  log : List (Nat × Event)
  /-- The payloads in texts that were no events, once for every scan that met them. -/
  dropped : List String
  /-- How many events had been taken when each observer came. -/
  observers : List Nat
  deriving DecidableEq, Repr

namespace Conversation

variable {τ : Type}

def start (transport : τ) (thread : List Thread.Message) (store : Option Store) (origin : Instant)
    (token : Token) : Conversation τ :=
  ⟨transport, thread, 0, none, store, origin, token, [], [], []⟩

def status (c : Conversation τ) : Status := ⟨c.run.isSome, c.completed⟩

def trace (c : Conversation τ) (r : Run) : Trace := r.script.play (.ofToken c.token) r.begun 0

def finish? (c : Conversation τ) : Option Nat := c.run.map fun r => (c.trace r).finish

def changes (c : Conversation τ) : List (Nat × Status) :=
  c.finish?.toList.map fun t => (t, ⟨false, c.completed + 1⟩)

def append [Transport τ] (c : Conversation τ) (now : Nat) (text : String) : Conversation τ × Bool :=
  match c.run with
  | some _ => (c, false)
  | none =>
    let (script, transport) := Transport.send c.transport
    ({ c with
        transport := transport
        thread := c.thread ++ [.user text]
        run := some ⟨now, script, 0, .empty, []⟩ }, true)

def take (c : Conversation τ) (r : Run) (events : List (Nat × Event)) : Conversation τ × Run :=
  let intake := Intake.takeAll c.origin ⟨r.assembler, r.trackers, c.store, c.dropped⟩ events
  ({ c with store := intake.store, log := c.log ++ events, dropped := intake.dropped },
    { r with
      seen := r.seen + events.length
      assembler := intake.assembler
      trackers := intake.trackers })

def finish (c : Conversation τ) (r : Run) : Conversation τ :=
  { c with
    thread := if r.assembler.isEmpty then c.thread
      else c.thread ++ [.assistant r.assembler.parts]
    completed := c.completed + 1
    run := none }

/-- Lets time pass up to an instant: takes what has been handed over by then, and ends a run that is
over. -/
def elapse (c : Conversation τ) (now : Nat) : Conversation τ :=
  match c.run with
  | none => c
  | some r =>
    -- The script is played from its beginning under the token as it is now; what was handed over
    -- before stays the same.
    let trace := c.trace r
    let (c, r) := c.take r ((trace.events.drop r.seen).takeWhile (·.1 ≤ now))
    if trace.finish ≤ now then c.finish r else { c with run := some r }

def cancel (c : Conversation τ) (now : Nat) : Conversation τ :=
  { c with token := c.token.cancel now }

def observe (c : Conversation τ) : Conversation τ :=
  { c with observers := c.observers ++ [c.log.length] }

def observed (c : Conversation τ) : Nat :=
  c.observers.foldl (fun n begun => n + (c.log.length - begun)) 0

def settle (c : Conversation τ) (now : Nat) : Conversation τ × Nat :=
  match c.finish? with
  | none => (c, now)
  | some t => (c.elapse t, max now t)

end Conversation

instance {τ : Type} [Transport τ] : Chat (Conversation τ) where
  status := Conversation.status
  isClosed _ := false
  changes := Conversation.changes
  append := Conversation.append
  elapse := Conversation.elapse

end Playback.Chat
