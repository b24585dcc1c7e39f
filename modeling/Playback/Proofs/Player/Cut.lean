import Playback.Proofs.Player.Cancellation
import Playback.Proofs.Player.Timetable

/-!
A play that is cancelled is a cut of the whole play: what comes before the cancellation is the same,
at the same times, and nothing comes after it. The parts of the two may have different ids.
-/

namespace Playback

open Cassette (Reel)
open Chat (Conversation Entry Minutes)
open Playback.Stream (Script Step Trace)

namespace Chat

def Entry.unnamed : Entry → Entry
  | .message text => .message text
  | .event e => .event (Cassette.unnamed e)

namespace Minutes

def unnamed (entries : List (Nat × Entry)) : List (Nat × Entry) :=
  entries.map fun (time, entry) => (time, entry.unnamed)

theorem unnamed_keep (token : Token) (entries : List (Nat × Entry)) :
    unnamed (token.keep entries) = token.keep (unnamed entries) := by
  unfold unnamed Token.keep
  rw [List.filter_map]
  rfl

theorem unnamed_ofEvents (events : List (Nat × Stream.Event)) :
    unnamed (ofEvents events) =
      ofEvents (events.map fun (time, e) => (time, Cassette.unnamed e)) := by
  unfold unnamed ofEvents
  rw [List.map_map, List.map_map]
  rfl

end Minutes

end Chat

namespace Cassette.Reel

def renumbered (r : Reel) (seed : Nat) : Reel := { r with seed := seed }

theorem nextTrace_renumbered (r : Reel) (seed : Nat) (token : Token) (now : Nat) :
    ((r.renumbered seed).nextTrace token now).map unnamed =
      (r.nextTrace token now).map unnamed := by
  unfold nextTrace
  rw [← Script.play_map, ← Script.play_map]
  congr 1
  exact map_unnamed_turnScript r.pacing _ _ r.nextTurn.1.parts

theorem timetable_renumbered (r : Reel) (seed pause now : Nat) (texts : List String) :
    Minutes.unnamed ((r.renumbered seed).timetable pause now texts) =
      Minutes.unnamed (r.timetable pause now texts) := by
  induction texts generalizing r now with
  | nil => rfl
  | cons text rest ih =>
      have trace := r.nextTrace_renumbered seed .never (now + pause)
      have events := congrArg Trace.events trace
      have finish : ((r.renumbered seed).nextTrace .never (now + pause)).finish =
          (r.nextTrace .never (now + pause)).finish := by
        have mapped := congrArg Trace.finish trace
        exact mapped
      have next := ih r.nextTurn.2 (r.nextTrace .never (now + pause)).finish
      have turn : Minutes.unnamed (Minutes.ofEvents
            ((r.renumbered seed).nextTrace .never (now + pause)).events) =
          Minutes.unnamed (Minutes.ofEvents (r.nextTrace .never (now + pause)).events) := by
        rw [Minutes.unnamed_ofEvents, Minutes.unnamed_ofEvents]
        exact congrArg Minutes.ofEvents events
      rw [timetable, timetable, finish]
      unfold Minutes.unnamed at turn next ⊢
      rw [List.map_append, List.map_append, List.map_cons, List.map_cons, turn]
      exact congrArg (_ ++ ·) next

end Cassette.Reel

namespace Player

def minutesShared (p : Player) (chat : Conversation Reel) (token : Token) (now : Nat) :
    List (Nat × Entry) :=
  (p.withToken token).minutes (chat.withToken token) now

theorem minutesShared_eq (p : Player) (chat : Conversation Reel) (token : Token) (now : Nat)
    (fresh : p.isStarted = false) (idle : chat.run = none) :
    p.minutesShared chat token now =
      token.keep (chat.transport.timetable p.pacing.userMessage now p.texts) :=
  (p.withToken token).minutes_eq_keep_timetable (chat.withToken token) now fresh idle rfl

/-- The minutes of a play that is cancelled are those entries of the whole that come before the
cancellation; if the parts of the two are numbered from different places, this is so up to the ids.
Cancelled or not, a play ends with an outcome, and every message that it sent is in the minutes:
none was refused. -/
theorem minutesShared_cancelledFrom (p : Player) (chat : Conversation Reel) (t now seed : Nat)
    (fresh : p.isStarted = false) (idle : chat.run = none) :
    let renumbered := { chat with transport := chat.transport.renumbered seed }
    let whole := p.minutesShared chat .never now
    p.minutesShared chat (.cancelledFrom t) now = whole.filter (·.1 < t) ∧
      Minutes.unnamed (p.minutesShared renumbered (.cancelledFrom t) now) =
        (Minutes.unnamed whole).filter (·.1 < t) ∧
      ∀ token, (∃ o, (p.playShared chat token now).ending = .outcome o) ∧
        (p.playShared chat token now).course.sent =
          Minutes.messages (p.minutesShared chat token now) := by
  intro renumbered whole
  have whole_eq : whole = chat.transport.timetable p.pacing.userMessage now p.texts := by
    have never := p.minutesShared_eq chat .never now fresh idle
    rw [Token.keep_never] at never
    exact never
  have kept {α : Type} (timed : List (Nat × α)) :
      (Token.cancelledFrom t).keep timed = timed.filter (·.1 < t) := by
    apply List.filter_congr
    intro e _
    change (!decide (t ≤ e.1)) = decide (e.1 < t)
    rw [← decide_not]
    simp only [Nat.not_le]
  refine ⟨?_, ?_, ?_⟩
  · rw [p.minutesShared_eq chat (.cancelledFrom t) now fresh idle, whole_eq, kept]
  · rw [p.minutesShared_eq renumbered (.cancelledFrom t) now fresh idle, Minutes.unnamed_keep,
      Reel.timetable_renumbered, whole_eq, kept]
  · intro token
    have played := (p.withToken token).adds_play (chat.withToken token) now fresh idle rfl
    exact ⟨played.2,
      (p.withToken token).sent_eq_messages_minutes (chat.withToken token) now fresh idle rfl⟩

section Sample

theorem minutesShared_cut_in_first_turn :
    let p := Player.start sample ⟨10, 0, 0, 0⟩ .never
    let chat (seed : Nat) :=
      Conversation.start (Reel.start sample ⟨10, 0, 0, 0⟩ seed) [] none default .never
    p.isStarted = false ∧ (chat 1).run = none ∧
      Minutes.unnamed (p.minutesShared (chat 2) (.cancelledFrom 5) 0) =
        [(0, .message "a"), (0, .event (.textStart "")), (0, .event (.textDelta "" "b"))] := by
  intro p chat
  have whole : Minutes.unnamed (p.minutesShared (chat 1) .never 0) =
      [(0, .message "a"), (0, .event (.textStart "")), (0, .event (.textDelta "" "b")),
        (10, .event (.textDelta "" "c")), (20, .event (.textEnd "")), (20, .message "d"),
        (20, .event (.textStart "")), (20, .event (.textDelta "" "e")),
        (30, .event (.textEnd ""))] := by
    decide +kernel
  obtain ⟨-, cut, -⟩ := minutesShared_cancelledFrom p (chat 1) 5 0 2 rfl rfl
  rw [whole] at cut
  exact ⟨rfl, rfl, cut⟩

end Sample

end Player

end Playback
