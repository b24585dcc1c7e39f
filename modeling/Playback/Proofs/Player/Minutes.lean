import Playback.Proofs.Chat.Minutes
import Playback.Proofs.Player.Course

namespace Playback.Player

open Chat (Conversation IsView Minutes Transport Entry)

section View

variable {σ ρ : Type}

def Course.view (f : σ → ρ) (c : Course σ) : Course ρ :=
  ⟨f c.chat, c.now, c.deadline, c.notices, c.sent⟩

def Report.view (f : σ → ρ) (r : Report σ) : Report ρ :=
  ⟨r.player, r.course.view f, r.ending, r.called⟩

variable [Chat σ] [Chat ρ] (f : σ → ρ) (isView : IsView f)

include isView

theorem restUntil_view (c : Course σ) (now : Nat) :
    (c.view f).restUntil now = (c.restUntil now).view f :=
  congrArg (Course.mk · now c.deadline c.notices c.sent) (isView.elapse c.chat (now - 1))

theorem giveUp_view (c : Course σ) :
    (c.view f).giveUp = (c.giveUp.1.view f, c.giveUp.2) := by
  rcases c with ⟨chat, now, _ | last, notices, sent⟩
  · rfl
  · exact congrArg (·, some Ending.stuck) (restUntil_view f isView _ last)

theorem send_view (c : Course σ) (text : String) :
    send (c.view f) text = ((send c text).1.view f, (send c text).2) := by
  have append := isView.append c.chat c.now text
  have baseline := isView.status c.chat
  unfold send
  change Chat.append (c.view f).chat (c.view f).now text = _ at append
  change Chat.status (c.view f).chat = _ at baseline
  rw [append, baseline]
  rcases Chat.append c.chat c.now text with ⟨chat, accepted⟩
  dsimp only
  cases accepted with
  | false => rfl
  | true =>
      rw [if_pos rfl, if_pos rfl, isView.changes, isView.status, isView.isClosed]
      dsimp only [Course.view, Course.learns]
      cases Chat.Waiting.along (Chat.status c.chat).completed .forStart c.now (Chat.status chat)
          ((Chat.changes chat).takeWhile fun change => c.deadline.all (change.1 < ·)) with
      | some finish =>
          exact congrArg (fun s => (Course.mk s finish c.deadline c.notices _, none))
            (isView.elapse chat finish)
      | none =>
          cases Chat.isClosed chat with
          | true => rfl
          | false =>
              exact giveUp_view f isView
                ⟨chat, c.now, c.deadline, c.notices, c.sent ++ [(c.now, text)]⟩

theorem playTurn_view (p : Player) (c : Course σ) (turn : Nat) (text : String) :
    p.playTurn (c.view f) turn text = ((p.playTurn c turn text).1.view f,
      (p.playTurn c turn text).2) := by
  have same : (c.view f).now = c.now := rfl
  have learns : (c.view f).learns = c.learns := rfl
  have reaches : (c.view f).reaches = c.reaches := rfl
  unfold playTurn
  rw [same, learns, reaches]
  cases p.token.isCancelled c.now with
  | true => rfl
  | false =>
      cases p.token.pause c.now p.pacing.userMessage with
      | error cut =>
          dsimp only
          cases c.learns cut with
          | true =>
              rw [restUntil_view f isView]
              rfl
          | false => exact giveUp_view f isView c
      | ok later =>
          dsimp only
          cases c.reaches later with
          | true =>
              by_cases none : p.pacing.userMessage = 0
              · simp only [none, if_true]
                exact send_view f isView (c.tell (.message turn)) text
              · simp only [none, if_false, if_true]
                rw [restUntil_view f isView]
                exact send_view f isView ((c.restUntil later).tell (.message turn)) text
          | false => exact giveUp_view f isView c

theorem playTurns_view (p : Player) (c : Course σ) (turn : Nat) (texts : List String) :
    p.playTurns (c.view f) turn texts = ((p.playTurns c turn texts).1.view f,
      (p.playTurns c turn texts).2) := by
  induction texts generalizing c turn with
  | nil => rfl
  | cons text rest ih =>
      rw [playTurns, playTurns, playTurn_view f isView]
      rcases p.playTurn c turn text with ⟨next, _ | ending⟩
      · exact ih next (turn + 1)
      · rfl

/-- A play goes the same way in every view of its chat. -/
theorem play_view (p : Player) (chat : σ) (now : Nat) (deadline : Option Nat) :
    p.play (f chat) now deadline = (p.play chat now deadline).view f := by
  have turns := playTurns_view f isView { p with isStarted := true }
    (Course.tell ⟨chat, now, deadline, [], []⟩ (.starting p.cassette.userTurns)) 0
    (p.cassette.userMessages.map (·.userText))
  have opening : Course.tell ⟨f chat, now, deadline, [], []⟩ (.starting p.cassette.userTurns) =
    (Course.tell ⟨chat, now, deadline, [], []⟩ (.starting p.cassette.userTurns)).view f := rfl
  unfold play
  cases p.isStarted with
  | true => rfl
  | false =>
      dsimp only
      rw [if_neg Bool.false_ne_true, if_neg Bool.false_ne_true, opening, turns]
      dsimp only
      split <;> rfl

end View

section Minutes

variable {τ : Type} [Transport τ] (p : Player) (chat : Conversation τ) (now : Nat)

def minutes : List (Nat × Entry) := (p.play (Minutes.start chat) now none).course.chat.entries

theorem view_play_start (deadline : Option Nat) :
    (p.play (Minutes.start chat) now deadline).view Minutes.chat = p.play chat now deadline :=
  (play_view Minutes.chat Minutes.isView_chat p (Minutes.start chat) now deadline).symm

end Minutes

end Playback.Player
