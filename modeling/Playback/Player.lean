import Playback.Cassette.Basic
import Playback.Chat.Basic
import Playback.Pacing
import Playback.Stream.Script

/-!
Playing the user's messages of a cassette to a chat: each is sent after a pause, and the run that
answers it has ended before the next. At every instant the player acts before the chat.
-/

namespace Playback

open Chat (Failure Waiting)
open Playback.Stream (Outcome)

structure Player where
  cassette : Cassette
  pacing : Pacing
  token : Token
  isStarted : Bool
  callback : Option Nat
  deriving DecidableEq, Repr

namespace Player

inductive Notice where
  | starting (turns : Nat)
  | message (turn : Nat)
  | cancelledBefore (turn : Nat)
  | cancelledInPause (turn : Nat)
  | complete
  deriving DecidableEq, Repr

namespace Notice

def text : Notice → String
  | starting _ => "Starting replay"
  | message _ => "Replaying user message"
  | cancelledBefore _ => "Replay cancelled before turn"
  | cancelledInPause _ => "Replay cancelled during user message delay"
  | complete => "Replay complete"

def field : Notice → Option (String × Nat)
  | starting turns => some ("turns", turns)
  | message turn | cancelledBefore turn | cancelledInPause turn => some ("turn", turn)
  | complete => none

end Notice

inductive Ending where
  | outcome (outcome : Outcome)
  | failure (why : Failure)
  | stuck
  deriving DecidableEq, Repr

/-- A play under way: the chat, the time, what was told, and when which messages were sent. -/
structure Course (σ : Type) where
  chat : σ
  now : Nat
  /-- The last instant at which the player does anything. -/
  deadline : Option Nat
  notices : List Notice
  sent : List (Nat × String)
  deriving DecidableEq, Repr

namespace Course

variable {σ : Type}

def tell (c : Course σ) (n : Notice) : Course σ := { c with notices := c.notices ++ [n] }

def elapse [Chat σ] (c : Course σ) (now : Nat) : Course σ :=
  { c with chat := Chat.elapse c.chat now, now := now }

/-- Time passes up to an instant at which the player does something: what the chat does then is
still to come. -/
def restUntil [Chat σ] (c : Course σ) (now : Nat) : Course σ :=
  { c with chat := Chat.elapse c.chat (now - 1), now := now }

def reaches (c : Course σ) (time : Nat) : Bool := c.deadline.all (time ≤ ·)

/-- Does the player still learn of what happens at an instant? Not at its deadline, where it has
acted before. -/
def learns (c : Course σ) (time : Nat) : Bool := c.deadline.all (time < ·)

def giveUp [Chat σ] (c : Course σ) : Course σ × Option Ending :=
  match c.deadline with
  | some last => (c.restUntil last, some .stuck)
  | none => (c, some .stuck)

end Course

def start (cassette : Cassette) (pacing : Pacing) (token : Token) : Player :=
  ⟨cassette, pacing, token, false, none⟩

def onComplete (p : Player) (callback : Nat) : Player := { p with callback := some callback }

variable {σ : Type} [Chat σ]

/-- Sends a message and waits until the run after it has ended. A status that the player learns of
too late is as good as none. -/
def send (c : Course σ) (text : String) : Course σ × Option Ending :=
  let baseline := (Chat.status c.chat).completed
  let (chat, accepted) := Chat.append c.chat c.now text
  let c := { c with chat := chat, sent := c.sent ++ [(c.now, text)] }
  if accepted then
    let changes := (Chat.changes chat).takeWhile fun (time, _) => c.learns time
    match Waiting.along baseline .forStart c.now (Chat.status chat) changes with
    | some finish => (c.elapse finish, none)
    | none => if Chat.isClosed chat then (c, some (.failure .closed)) else c.giveUp
  else (c, some (.failure .busy))

/-- Plays one message, unless the player is cancelled before it or in the pause before it. A pause
of no length does not let time pass. -/
def playTurn (p : Player) (c : Course σ) (turn : Nat) (text : String) : Course σ × Option Ending :=
  if p.token.isCancelled c.now then
    (c.tell (.cancelledBefore turn), some (.outcome .cancelled))
  else
    match p.token.pause c.now p.pacing.userMessage with
    | .error cut =>
      if c.learns cut then
        ((c.restUntil cut).tell (.cancelledInPause turn), some (.outcome .cancelled))
      else c.giveUp
    | .ok later =>
      if c.reaches later then
        let c := if p.pacing.userMessage = 0 then c else c.restUntil later
        send (c.tell (.message turn)) text
      else c.giveUp

def playTurns (p : Player) (c : Course σ) (turn : Nat) : List String → Course σ × Ending
  | [] => (c.tell .complete, .outcome .completed)
  | text :: rest =>
    match p.playTurn c turn text with
    | (c, some ending) => (c, ending)
    | (c, none) => p.playTurns c (turn + 1) rest

structure Report (σ : Type) where
  player : Player
  course : Course σ
  ending : Ending
  called : List (Nat × Nat)
  deriving DecidableEq, Repr

def play (p : Player) (chat : σ) (now : Nat) (deadline : Option Nat) : Report σ :=
  let course : Course σ := ⟨chat, now, deadline, [], []⟩
  if p.isStarted then ⟨p, course, .failure .alreadyStarted, []⟩
  else
    let p := { p with isStarted := true }
    let (course, ending) := p.playTurns (course.tell (.starting p.cassette.userTurns)) 0
      (p.cassette.userMessages.map (·.userText))
    if ending = .outcome .completed then
      ⟨{ p with callback := none }, course, ending, p.callback.toList.map (·, course.now)⟩
    else ⟨p, course, ending, []⟩

end Player

end Playback
