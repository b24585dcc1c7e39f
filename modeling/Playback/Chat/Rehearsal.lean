import Playback.Chat.Basic

namespace Playback.Chat

inductive Plan where
  | instant
  /-- One more run has ended, which none has seen start. -/
  | count
  | silent
  | busy
  | close
  | startClose
  | finishClose
  | later (start run : Nat)
  deriving DecidableEq, Repr

structure Rehearsal where
  status : Status
  isClosed : Bool
  plans : List Plan
  changes : List (Nat × Status)
  deriving DecidableEq, Repr

namespace Rehearsal

def start (completed : Nat) (isClosed : Bool) (plans : List Plan) : Rehearsal :=
  ⟨⟨false, completed⟩, isClosed, plans, []⟩

def running (r : Rehearsal) : Status := { r.status with isRunning := true }

def finished (r : Rehearsal) : Status := ⟨false, r.status.completed + 1⟩

def follow (r : Rehearsal) (now : Nat) : Plan → Rehearsal × Bool
  | .instant => ({ r with status := r.finished }, true)
  | .count => ({ r with status := { r.status with completed := r.status.completed + 1 } }, true)
  | .silent => (r, true)
  | .busy => (r, false)
  | .close => ({ r with isClosed := true }, true)
  | .startClose => ({ r with status := r.running, isClosed := true }, true)
  | .finishClose => ({ r with status := r.finished, isClosed := true }, true)
  | .later start run =>
    ({ r with changes := [(now + start, r.running), (now + start + run, r.finished)] }, true)

def append (r : Rehearsal) (now : Nat) (_ : String) : Rehearsal × Bool :=
  if r.isClosed then (r, true)
  else
    match r.plans with
    | [] => r.follow now .instant
    | plan :: rest => { r with plans := rest }.follow now plan

def elapse (r : Rehearsal) (now : Nat) : Rehearsal :=
  let due := r.changes.takeWhile (·.1 ≤ now)
  { r with
    status := (due.getLast?.map (·.2)).getD r.status
    changes := r.changes.dropWhile (·.1 ≤ now) }

end Rehearsal

instance : Chat Rehearsal where
  status := Rehearsal.status
  isClosed := Rehearsal.isClosed
  changes := Rehearsal.changes
  append := Rehearsal.append
  elapse := Rehearsal.elapse

end Playback.Chat
