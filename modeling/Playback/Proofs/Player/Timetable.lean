import Playback.Proofs.Cassette.Turn
import Playback.Proofs.Player.Minutes

/-!
The timetable of a play from a reel: what would be said and handed over when, if nothing were
cancelled. The minutes of any play are what its token leaves of the timetable.
-/

namespace Playback

open Cassette (Reel)
open Chat (Conversation Entry Minutes)
open Playback.Stream (Event Script Trace)

namespace Cassette.Reel

def nextTrace (r : Reel) (token : Token) (now : Nat) : Trace :=
  (r.nextTurn.1.script r.pacing).play (.ofToken token) now 0

theorem events_nextTrace (r : Reel) (token : Token) (now : Nat) :
    (r.nextTrace token now).events = token.keep (r.nextTrace .never now).events :=
  Script.events_of_token token now 0 _ (isPaced_turnScript r.pacing r.nextTurn.1)

/-- Messages that are each sent after a pause, and what is handed over after each. -/
def timetable (r : Reel) (pause now : Nat) : List String → List (Nat × Entry)
  | [] => []
  | text :: rest =>
    let trace := r.nextTrace .never (now + pause)
    ((now + pause, .message text) :: Minutes.ofEvents trace.events) ++
      r.nextTurn.2.timetable pause trace.finish rest

theorem now_le_of_mem_timetable (r : Reel) (pause now : Nat) (texts : List String)
    (p : Nat × Entry) (member : p ∈ r.timetable pause now texts) : now + pause ≤ p.1 := by
  induction texts generalizing r now with
  | nil => cases member
  | cons text rest ih =>
      rcases List.mem_append.mp member with turn | later
      · rcases List.mem_cons.mp turn with rfl | handed
        · exact Nat.le_refl _
        · obtain ⟨⟨time, e⟩, event, rfl⟩ := List.mem_map.mp handed
          exact Script.now_le_of_mem_events _ _ 0 _ (time, e) event
      · have finish := Script.now_le_finish (.ofToken .never) (now + pause) 0
          (r.nextTurn.1.script r.pacing)
        have after := ih r.nextTurn.2 (r.nextTrace .never (now + pause)).finish later
        unfold nextTrace at after
        omega

theorem keep_timetable_of_isCancelled (r : Reel) (token : Token) (pause now : Nat)
    (texts : List String) (cancelled : token.isCancelled (now + pause) = true) :
    token.keep (r.timetable pause now texts) = [] :=
  token.keep_of_isCancelled (now + pause) _ (r.now_le_of_mem_timetable pause now texts) cancelled

/-- A run that the token cuts short makes no difference to what is left of the timetable after
it. -/
theorem keep_timetable_of_nextTrace (r next : Reel) (token : Token) (pause now : Nat)
    (texts : List String) :
    token.keep (next.timetable pause (r.nextTrace token now).finish texts) =
      token.keep (next.timetable pause (r.nextTrace .never now).finish texts) := by
  have ends : (r.nextTrace token now).finish = (r.nextTrace .never now).finish ∨
      (token.isCancelled (r.nextTrace .never now).finish = true ∧
        token.isCancelled (r.nextTrace token now).finish = true) :=
    Script.finish_of_token token now 0 (r.nextTurn.1.script r.pacing)
  rcases ends with same | ⟨whole, cut⟩
  · rw [same]
  · have later (finish : Nat) (cancelled : token.isCancelled finish = true) :
        token.isCancelled (finish + pause) = true :=
      token.isCancelled_of_le finish (finish + pause) (Nat.le_add_right finish pause) cancelled
    rw [keep_timetable_of_isCancelled next token pause _ texts (later _ cut),
      keep_timetable_of_isCancelled next token pause _ texts (later _ whole)]

end Cassette.Reel

namespace Player

structure Course.IsReady (c : Course (Minutes Reel)) (r : Reel) (token : Token) : Prop where
  idle : c.chat.chat.run = none
  transport : c.chat.chat.transport = r
  token : c.chat.chat.token = token
  endless : c.deadline = none

/-- What is new in a course since another: entries in the minutes, and with them messages that were
sent and events in the log. -/
structure Course.Adds (c d : Course (Minutes Reel)) (new : List (Nat × Entry)) : Prop where
  entries : d.chat.entries = c.chat.entries ++ new
  sent : d.sent = c.sent ++ Minutes.messages new
  log : d.chat.chat.log = c.chat.chat.log ++ Minutes.events new

namespace Course

theorem adds_nothing (c d : Course (Minutes Reel)) (chat : d.chat = c.chat)
    (sent : d.sent = c.sent) : c.Adds d [] where
  entries := by rw [chat, List.append_nil]
  sent := sent.trans (List.append_nil c.sent).symm
  log := by
    rw [chat]
    exact (List.append_nil _).symm

theorem Adds.trans {c d e : Course (Minutes Reel)} {new more : List (Nat × Entry)}
    (first : c.Adds d new) (second : d.Adds e more) : c.Adds e (new ++ more) where
  entries := by rw [second.entries, first.entries, List.append_assoc]
  sent := by
    rw [second.sent, first.sent, List.append_assoc, Minutes.messages, Minutes.messages,
      ← List.filterMap_append]
    rfl
  log := by
    rw [second.log, first.log, List.append_assoc, Minutes.events, Minutes.events,
      ← List.filterMap_append]
    rfl

end Course

section Turn

variable (p : Player) (c : Course (Minutes Reel)) (r : Reel) (turn : Nat) (text : String)
  (ready : c.IsReady r p.token)

include ready

theorem playTurn_of_isReady (going : p.token.isCancelled (c.now + p.pacing.userMessage) = false) :
    let trace := r.nextTrace p.token (c.now + p.pacing.userMessage)
    ∃ next, p.playTurn c turn text = (next, none) ∧ next.IsReady r.nextTurn.2 p.token ∧
      next.now = trace.finish ∧
      c.Adds next ((c.now + p.pacing.userMessage, .message text) ::
        Minutes.ofEvents trace.events) := by
  intro trace
  let time := c.now + p.pacing.userMessage
  have idle := ready.idle
  have trace_eq : c.chat.chat.nextTrace time = trace := by
    unfold Conversation.nextTrace Conversation.trace Conversation.nextRun
    rw [ready.token, ready.transport]
    rfl
  have still (now : Nat) : Chat.elapse c.chat now = c.chat := c.chat.elapse_of_idle now idle
  have sent := send_of_run
    { c with now := time, notices := c.notices ++ [.message turn] } text (c.chat.asked time text)
    (c.chat.chat.nextTrace time).finish (c.chat.chat.completed + 1) ready.endless
    (c.chat.append_of_idle time text idle) rfl rfl
  have answered : Chat.elapse (c.chat.asked time text) (c.chat.chat.nextTrace time).finish =
      ⟨c.chat.chat.answer time text,
        c.chat.entries ++ (time, .message text) :: Minutes.ofEvents trace.events⟩ := by
    rw [← trace_eq]
    exact c.chat.elapse_asked time text idle
  rw [answered, trace_eq] at sent
  refine ⟨_, (p.playTurn_of_going c turn text still ready.endless going).trans sent, ?_, rfl, ?_⟩
  · refine ⟨c.chat.chat.answer_run time text idle, ?_, ?_, ready.endless⟩
    · change (c.chat.chat.answer time text).transport = _
      rw [c.chat.chat.answer_transport time text idle, ready.transport]
      rfl
    · exact (c.chat.chat.answer_token time text idle).trans ready.token
  · refine ⟨rfl, ?_, ?_⟩
    · rw [Minutes.messages_exchange]
    · rw [Minutes.events_exchange, ← trace_eq]
      change (c.chat.chat.answer time text).log = _
      rw [c.chat.chat.answer_eq time text idle]
      rfl

end Turn

theorem playTurns_of_isReady (p : Player) (c : Course (Minutes Reel)) (r : Reel) (turn : Nat)
    (texts : List String) (ready : c.IsReady r p.token) :
    c.Adds (p.playTurns c turn texts).1
        (p.token.keep (r.timetable p.pacing.userMessage c.now texts)) ∧
      ∃ o, (p.playTurns c turn texts).2 = .outcome o := by
  induction texts generalizing c r turn with
  | nil => exact ⟨c.adds_nothing _ rfl rfl, .completed, rfl⟩
  | cons text rest ih =>
      cases due : p.token.isCancelled (c.now + p.pacing.userMessage) with
      | true =>
          have still (now : Nat) : Chat.elapse c.chat now = c.chat :=
            c.chat.elapse_of_idle now ready.idle
          obtain ⟨chat, sent, ended⟩ := p.playTurn_of_cancelled c turn text still ready.endless due
          -- the message is not sent, and all that is on the timetable would come later
          rw [p.playTurns_of_ended c turn text rest _ ended,
            Reel.keep_timetable_of_isCancelled r p.token _ c.now (text :: rest) due]
          exact ⟨c.adds_nothing _ chat sent, .cancelled, rfl⟩
      | false =>
          obtain ⟨next, played, again, now, adds⟩ :=
            p.playTurn_of_isReady c r turn text ready due
          obtain ⟨more, ended⟩ := ih next r.nextTurn.2 (turn + 1) again
          -- a run that is cut short ends when the rest of the timetable is cut off as well
          have kept : p.token.keep (r.timetable p.pacing.userMessage c.now (text :: rest)) =
              ((c.now + p.pacing.userMessage, .message text) :: Minutes.ofEvents
                (r.nextTrace p.token (c.now + p.pacing.userMessage)).events) ++
              p.token.keep (r.nextTurn.2.timetable p.pacing.userMessage next.now rest) := by
            rw [Reel.timetable, p.token.keep_append, p.token.keep_cons _ _ _ due,
              Minutes.keep_ofEvents, ← Reel.events_nextTrace, now,
              Reel.keep_timetable_of_nextTrace]
          rw [playTurns, played, kept]
          exact ⟨adds.trans more, ended⟩

section Play

variable (p : Player) (chat : Conversation Reel) (now : Nat) (fresh : p.isStarted = false)
  (idle : chat.run = none) (shared : chat.token = p.token)

include fresh idle shared

theorem adds_play :
    (p.opening (Minutes.start chat) now).Adds (p.play (Minutes.start chat) now none).course
      (p.token.keep (chat.transport.timetable p.pacing.userMessage now p.texts)) ∧
    ∃ o, (p.play chat now none).ending = .outcome o := by
  have ready : (p.opening (Minutes.start chat) now).IsReady chat.transport p.token :=
    ⟨idle, rfl, shared, rfl⟩
  obtain ⟨adds, ended⟩ := playTurns_of_isReady { p with isStarted := true } _ _ 0 p.texts ready
  have ending : (p.play chat now none).ending = (p.play (Minutes.start chat) now none).ending :=
    congrArg Report.ending (p.view_play_start chat now none).symm
  rw [ending, p.play_course _ now fresh, p.play_ending _ now fresh]
  exact ⟨adds, ended⟩

/-- The minutes of a play are what its token leaves of the timetable. -/
theorem minutes_eq_keep_timetable :
    p.minutes chat now =
      p.token.keep (chat.transport.timetable p.pacing.userMessage now p.texts) :=
  (p.adds_play chat now fresh idle shared).1.entries

theorem sent_eq_messages_minutes :
    (p.play chat now none).course.sent = Minutes.messages (p.minutes chat now) := by
  have sent : (p.play chat now none).course.sent =
      (p.play (Minutes.start chat) now none).course.sent :=
    congrArg (·.course.sent) (p.view_play_start chat now none).symm
  rw [sent, (p.adds_play chat now fresh idle shared).1.sent,
    p.minutes_eq_keep_timetable chat now fresh idle shared]
  rfl

theorem log_eq_events_minutes :
    (p.play chat now none).course.chat.log = chat.log ++ Minutes.events (p.minutes chat now) := by
  have log : (p.play chat now none).course.chat.log =
      (p.play (Minutes.start chat) now none).course.chat.chat.log :=
    congrArg (·.course.chat.log) (p.view_play_start chat now none).symm
  rw [log, (p.adds_play chat now fresh idle shared).1.log,
    p.minutes_eq_keep_timetable chat now fresh idle shared]
  rfl

end Play

end Player

end Playback
