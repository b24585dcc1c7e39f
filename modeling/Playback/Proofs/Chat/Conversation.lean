import Playback.Chat.Conversation
import Playback.Proofs.Stream.Script
import Mathlib.Data.List.Infix
import Mathlib.Data.List.TakeWhile

namespace Playback.Chat

open Playback.Stream (Event Script Trace Limits)
open Thread (Assembler)

theorem Intake.take_assembler (clock : Instant) (i : Intake) (e : Event) :
    (i.take clock e).assembler = (i.assembler.apply e).1 := by
  unfold take
  rcases i.assembler.apply e with ⟨assembler, grown⟩
  cases i.store <;> cases grown <;> rfl

theorem Intake.takeAll_assembler (origin : Instant) (i : Intake) (events : List (Nat × Event)) :
    (i.takeAll origin events).assembler = i.assembler.applyAll (events.map (·.2)) := by
  induction events generalizing i with
  | nil => rfl
  | cons p rest ih =>
      change ((i.take (origin.plusMillis p.1) p.2).takeAll origin rest).assembler = _
      rw [ih, take_assembler]
      rfl

namespace Conversation

variable {τ : Type}

def withToken (c : Conversation τ) (token : Token) : Conversation τ := { c with token := token }

theorem elapse_of_idle (c : Conversation τ) (now : Nat) (idle : c.run = none) :
    c.elapse now = c := by
  unfold elapse
  rw [idle]

def due (c : Conversation τ) (r : Run) (now : Nat) : List (Nat × Event) :=
  ((c.trace r).events.drop r.seen).takeWhile (·.1 ≤ now)

theorem elapse_of_running (c : Conversation τ) (r : Run) (now : Nat) (going : c.run = some r) :
    c.elapse now =
      if (c.trace r).finish ≤ now then (c.take r (c.due r now)).1.finish (c.take r (c.due r now)).2
      else { (c.take r (c.due r now)).1 with run := some (c.take r (c.due r now)).2 } := by
  unfold elapse due
  rw [going]

/-- Whatever has become of the token, a run takes in next what its script hands over next. -/
theorem due_prefix (c : Conversation τ) (r : Run) (now : Nat) :
    (c.due r now).map (·.2) <+: r.script.handed.drop r.seen := by
  have played := Script.map_events_prefix (.ofToken c.token) r.begun 0 r.script
  have ahead := played.drop r.seen
  rw [← List.map_drop] at ahead
  exact ((List.takeWhile_prefix _).map _).trans ahead

def reply (parts : List Thread.Part) : List Thread.Message :=
  if parts.isEmpty then [] else [.assistant parts]

theorem finish_thread (c : Conversation τ) (r : Run) :
    (c.finish r).thread = c.thread ++ reply r.assembler.parts := by
  change (if r.assembler.parts.isEmpty then c.thread else _) = _
  unfold reply
  split
  · rw [List.append_nil]
  · rfl

variable [Transport τ]

theorem append_of_running (c : Conversation τ) (now : Nat) (text : String) (r : Run)
    (going : c.run = some r) : c.append now text = (c, false) := by
  unfold append
  rw [going]

def nextRun (c : Conversation τ) (now : Nat) : Run :=
  ⟨now, (Transport.send c.transport).1, 0, .empty, []⟩

def nextTrace (c : Conversation τ) (now : Nat) : Trace := c.trace (c.nextRun now)

def asked (c : Conversation τ) (now : Nat) (text : String) : Conversation τ :=
  { c with
    transport := (Transport.send c.transport).2
    thread := c.thread ++ [.user text]
    run := some (c.nextRun now) }

def answer (c : Conversation τ) (now : Nat) (text : String) : Conversation τ :=
  (c.append now text).1.elapse (c.nextTrace now).finish

section Idle

variable (c : Conversation τ) (now : Nat) (text : String) (idle : c.run = none)

include idle

theorem append_of_idle : c.append now text = (c.asked now text, true) := by
  unfold append
  rw [idle]
  rfl

/-- All that is handed over in a run is taken before its end. -/
theorem answer_eq :
    c.answer now text =
      let taken := (c.asked now text).take (c.nextRun now) (c.nextTrace now).events
      taken.1.finish taken.2 := by
  have all : (c.nextTrace now).events.takeWhile (·.1 ≤ (c.nextTrace now).finish) =
      (c.nextTrace now).events := by
    rw [List.takeWhile_eq_self_iff]
    intro p member
    exact decide_eq_true (Script.le_finish_of_mem_events _ now 0 _ p member)
  unfold answer
  rw [append_of_idle c now text idle]
  change (if (c.nextTrace now).finish ≤ (c.nextTrace now).finish then _ else _) = _
  rw [if_pos (Nat.le_refl _)]
  change (take _ _ ((c.nextTrace now).events.takeWhile _)).1.finish
    (take _ _ ((c.nextTrace now).events.takeWhile _)).2 = _
  rw [all]

theorem answer_run : (c.answer now text).run = none := by
  rw [answer_eq c now text idle]
  rfl

theorem answer_completed : (c.answer now text).completed = c.completed + 1 := by
  rw [answer_eq c now text idle]
  rfl

theorem answer_transport :
    (c.answer now text).transport = (Transport.send c.transport).2 := by
  rw [answer_eq c now text idle]
  rfl

theorem answer_token : (c.answer now text).token = c.token := by
  rw [answer_eq c now text idle]
  rfl

theorem answer_thread :
    (c.answer now text).thread = c.thread ++ [.user text] ++
      reply (Assembler.empty.applyAll ((c.nextTrace now).events.map (·.2))).parts := by
  have assembled := Intake.takeAll_assembler c.origin ⟨.empty, [], c.store, c.dropped⟩
    (c.nextTrace now).events
  rw [answer_eq c now text idle, ← assembled]
  exact finish_thread _ _

theorem answer_withToken (token : Token)
    (same : (c.withToken token).nextTrace now = c.nextTrace now) :
    (c.withToken token).answer now text = (c.answer now text).withToken token := by
  have alsoIdle : (c.withToken token).run = none := idle
  rw [answer_eq (c.withToken token) now text alsoIdle, answer_eq c now text idle, same]
  rfl

end Idle

end Conversation

end Playback.Chat
