/-!
Chats as a player sees them: a message of the user starts a run, and whether a run is going on and
how many have finished can be watched. Waiting for a run is safe although only the latest status is
seen.
-/

namespace Playback

namespace Chat

structure Status where
  isRunning : Bool
  completed : Nat
  deriving DecidableEq, Repr

def Status.idle : Status := ⟨false, 0⟩

inductive Failure where
  | closed
  | busy
  | alreadyStarted
  deriving DecidableEq, Repr

def Failure.message : Failure → String
  | closed => "chat runtime closed its state channel"
  | busy => "chat runtime is busy with another run"
  | alreadyStarted => "replay already started"

inductive Waiting where
  | forStart
  | forEnd
  | ended
  deriving DecidableEq, Repr

namespace Waiting

/-- A look at the status. A run has started if one is going on, or if more have finished than before
the message: it may have come and gone unseen. -/
def observe (baseline : Nat) (s : Status) : Waiting → Waiting
  | forStart =>
    if s.isRunning then .forEnd else if baseline < s.completed then .ended else .forStart
  | forEnd => if s.isRunning then .forEnd else .ended
  | ended => .ended

def along (baseline : Nat) (w : Waiting) (now : Nat) (s : Status) :
    List (Nat × Status) → Option Nat
  | [] => if w.observe baseline s = .ended then some now else none
  | (later, next) :: rest =>
    if w.observe baseline s = .ended then some now
    else (w.observe baseline s).along baseline later next rest

end Waiting

end Chat

class Chat (σ : Type) where
  status : σ → Chat.Status
  isClosed : σ → Bool
  /-- How the status will change if nothing more is done, in order of time. -/
  changes : σ → List (Nat × Chat.Status)
  append : σ → Nat → String → σ × Bool
  elapse : σ → Nat → σ

end Playback
