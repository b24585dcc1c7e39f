import Playback.Player
import Playback.Proofs.Chat.Conversation

namespace Playback.Player

open Chat (Conversation Status Transport Waiting)

variable {τ : Type} [Transport τ]

namespace Course

/-- Nothing is in the way of the next message: no run is going on, and there is no deadline. -/
structure IsOpen (c : Course (Conversation τ)) : Prop where
  idle : c.chat.run = none
  endless : c.deadline = none

def answered (c : Course (Conversation τ)) (turn instant : Nat) (text : String) :
    Course (Conversation τ) :=
  { c with
    chat := c.chat.answer instant text
    now := (c.chat.nextTrace instant).finish
    notices := c.notices ++ [.message turn]
    sent := c.sent ++ [(instant, text)] }

theorem isOpen_answered (c : Course (Conversation τ)) (turn instant : Nat) (text : String)
    (free : c.IsOpen) : (c.answered turn instant text).IsOpen where
  idle := c.chat.answer_run instant text free.idle
  endless := free.endless

theorem le_now_answered (c : Course (Conversation τ)) (turn instant : Nat) (text : String) :
    instant ≤ (c.answered turn instant text).now :=
  Stream.Script.now_le_finish _ instant 0 _

def answeredAll (c : Course (Conversation τ)) (pause turn : Nat) : List String →
    Course (Conversation τ)
  | [] => c
  | text :: rest => (c.answered turn (c.now + pause) text).answeredAll pause (turn + 1) rest

theorem answeredAll_completed (c : Course (Conversation τ)) (pause turn : Nat)
    (texts : List String) (free : c.IsOpen) :
    (c.answeredAll pause turn texts).chat.completed = c.chat.completed + texts.length := by
  induction texts generalizing c turn with
  | nil => rfl
  | cons text rest ih =>
      have one : (c.answered turn (c.now + pause) text).chat.completed = c.chat.completed + 1 :=
        c.chat.answer_completed (c.now + pause) text free.idle
      have next := ih (c.answered turn (c.now + pause) text) (turn + 1)
        (c.isOpen_answered turn (c.now + pause) text free)
      rw [answeredAll, next, one, List.length_cons]
      omega

/-- All messages are sent, each when the pause before it is over. -/
theorem answeredAll_sent (c : Course (Conversation τ)) (pause turn : Nat) (texts : List String) :
    ∃ sent, (c.answeredAll pause turn texts).sent = c.sent ++ sent ∧ sent.map (·.2) = texts ∧
      ∀ s ∈ sent, c.now + pause ≤ s.1 := by
  induction texts generalizing c turn with
  | nil => exact ⟨[], (List.append_nil c.sent).symm, rfl, by simp⟩
  | cons text rest ih =>
      obtain ⟨sent, all, texts, late⟩ :=
        ih (c.answered turn (c.now + pause) text) (turn + 1)
      have later := c.le_now_answered turn (c.now + pause) text
      refine ⟨(c.now + pause, text) :: sent, ?_, ?_, ?_⟩
      · rw [answeredAll, all, List.append_cons]
        rfl
      · rw [List.map_cons, texts]
      · intro s member
        rcases List.mem_cons.mp member with rfl | after
        · exact Nat.le_refl _
        · have := late s after
          omega

end Course

theorem along_of_run (baseline now finish : Nat) (last : Status) (ended : last.isRunning = false) :
    Waiting.along baseline .forStart now ⟨true, baseline⟩ [(finish, last)] = some finish := by
  simp [Waiting.along, Waiting.observe, ended]

theorem takeWhile_learns {σ α : Type} (c : Course σ) (endless : c.deadline = none)
    (changes : List (Nat × α)) :
    changes.takeWhile (fun change => c.learns change.1) = changes := by
  rw [List.takeWhile_eq_self_iff]
  intro change _
  simp [Course.learns, endless]

theorem send_of_run {σ : Type} [Chat σ] (c : Course σ) (text : String) (asked : σ)
    (finish ended : Nat) (endless : c.deadline = none)
    (accepted : Chat.append c.chat c.now text = (asked, true))
    (started : Chat.status asked = ⟨true, (Chat.status c.chat).completed⟩)
    (ends : Chat.changes asked = [(finish, ⟨false, ended⟩)]) :
    send c text =
      ({ c with
          chat := Chat.elapse asked finish
          now := finish
          sent := c.sent ++ [(c.now, text)] }, none) := by
  have waited : Waiting.along (Chat.status c.chat).completed .forStart c.now (Chat.status asked)
      (Chat.changes asked) = some finish := by
    rw [started, ends]
    exact along_of_run _ c.now finish _ rfl
  unfold send
  rw [accepted]
  dsimp only
  rw [if_pos rfl, takeWhile_learns]
  · rw [waited]
    rfl
  · exact endless

theorem send_of_isOpen (c : Course (Conversation τ)) (text : String) (free : c.IsOpen) :
    send c text =
      ({ c with
          chat := c.chat.answer c.now text
          now := (c.chat.nextTrace c.now).finish
          sent := c.sent ++ [(c.now, text)] }, none) := by
  have sent := send_of_run c text (c.chat.asked c.now text) (c.chat.nextTrace c.now).finish
    (c.chat.completed + 1) free.endless (c.chat.append_of_idle c.now text free.idle) rfl rfl
  have answer : Chat.elapse (c.chat.asked c.now text) (c.chat.nextTrace c.now).finish =
      c.chat.answer c.now text := by
    rw [Conversation.answer, c.chat.append_of_idle c.now text free.idle]
    rfl
  rw [sent, answer]

theorem playTurns_of_ended {σ : Type} [Chat σ] (p : Player) (c : Course σ) (turn : Nat)
    (text : String) (rest : List String) (ending : Ending)
    (ended : (p.playTurn c turn text).2 = some ending) :
    p.playTurns c turn (text :: rest) = ((p.playTurn c turn text).1, ending) := by
  rcases played : p.playTurn c turn text with ⟨next, last⟩
  rw [played] at ended
  dsimp only at ended
  rw [playTurns, played, ended]

section Pause

variable {σ : Type} [Chat σ] (p : Player) (c : Course σ) (turn : Nat) (text : String)
  (still : ∀ now, Chat.elapse c.chat now = c.chat) (endless : c.deadline = none)

include still endless

theorem playTurn_of_going (going : p.token.isCancelled (c.now + p.pacing.userMessage) = false) :
    p.playTurn c turn text =
      send { c with
        now := c.now + p.pacing.userMessage
        notices := c.notices ++ [.message turn] } text := by
  have before : p.token.isCancelled c.now = false :=
    p.token.not_isCancelled_of_le c.now _ (Nat.le_add_right c.now p.pacing.userMessage) going
  have reached : c.reaches (c.now + p.pacing.userMessage) = true := by
    simp [Course.reaches, endless]
  have rested : (if p.pacing.userMessage = 0 then c
      else c.restUntil (c.now + p.pacing.userMessage)) =
      { c with now := c.now + p.pacing.userMessage } := by
    split
    · rename_i none
      rw [none]
      rfl
    · rw [Course.restUntil, still]
  unfold playTurn
  rw [before, if_neg Bool.false_ne_true, p.token.pause_of_going c.now _ going]
  dsimp only
  rw [if_pos reached, rested]
  rfl

/-- A cancellation before the message, or at the very time of it, leaves it unsent. -/
theorem playTurn_of_cancelled
    (cancelled : p.token.isCancelled (c.now + p.pacing.userMessage) = true) :
    (p.playTurn c turn text).1.chat = c.chat ∧ (p.playTurn c turn text).1.sent = c.sent ∧
      (p.playTurn c turn text).2 = some (.outcome .cancelled) := by
  have learns (time : Nat) : c.learns time = true := by simp [Course.learns, endless]
  obtain ⟨cut, short⟩ := p.token.pause_of_cancelled c.now p.pacing.userMessage cancelled
  unfold playTurn
  split
  · exact ⟨rfl, rfl, rfl⟩
  · rw [short]
    dsimp only
    rw [if_pos (learns cut)]
    exact ⟨still _, rfl, rfl⟩

end Pause

section Turn

variable (p : Player) (c : Course (Conversation τ)) (turn : Nat) (text : String) (free : c.IsOpen)

include free

theorem playTurn_of_isOpen (going : p.token.isCancelled (c.now + p.pacing.userMessage) = false) :
    p.playTurn c turn text = (c.answered turn (c.now + p.pacing.userMessage) text, none) := by
  rw [p.playTurn_of_going c turn text (c.chat.elapse_of_idle · free.idle) free.endless going]
  exact send_of_isOpen _ text ⟨free.idle, free.endless⟩

theorem playTurn_of_early (t : Nat) (token : p.token = .cancelledFrom t)
    (early : t ≤ c.now + p.pacing.userMessage) :
    (p.playTurn c turn text).2 = some (.outcome .cancelled) := by
  have cancelled : p.token.isCancelled (c.now + p.pacing.userMessage) = true := by
    rw [token]
    exact decide_eq_true early
  exact (p.playTurn_of_cancelled c turn text (c.chat.elapse_of_idle · free.idle) free.endless
    cancelled).2.2

end Turn

/-- A player that nothing cancels sends everything. -/
theorem playTurns_of_never (p : Player) (c : Course (Conversation τ)) (turn : Nat)
    (texts : List String) (free : c.IsOpen) (token : p.token = .never) :
    p.playTurns c turn texts =
      ((c.answeredAll p.pacing.userMessage turn texts).tell .complete, .outcome .completed) := by
  induction texts generalizing c turn with
  | nil => rfl
  | cons text rest ih =>
      have played := p.playTurn_of_isOpen c turn text free (by rw [token]; rfl)
      have next := ih (c.answered turn (c.now + p.pacing.userMessage) text) (turn + 1)
        (c.isOpen_answered turn (c.now + p.pacing.userMessage) text free)
      rw [playTurns, played]
      exact next

section Play

variable {σ : Type} (p : Player) (chat : σ) (now : Nat)

def opening : Course σ := Course.tell ⟨chat, now, none, [], []⟩ (.starting p.cassette.userTurns)

def texts : List String := p.cassette.userMessages.map (·.userText)

variable [Chat σ]

def turns : Course σ × Ending :=
  { p with isStarted := true }.playTurns (p.opening chat now) 0 p.texts

variable (fresh : p.isStarted = false)

include fresh

theorem play_ending : (p.play chat now none).ending = (p.turns chat now).2 := by
  unfold play
  rw [fresh, if_neg Bool.false_ne_true]
  dsimp only
  split <;> rfl

theorem play_course : (p.play chat now none).course = (p.turns chat now).1 := by
  unfold play
  rw [fresh, if_neg Bool.false_ne_true]
  dsimp only
  split <;> rfl

theorem play_called :
    (p.play chat now none).called =
      if (p.turns chat now).2 = .outcome .completed then
        p.callback.toList.map (·, (p.turns chat now).1.now)
      else [] := by
  unfold play
  rw [fresh, if_neg Bool.false_ne_true]
  dsimp only
  change (if (p.turns chat now).2 = .outcome .completed then _ else _ : Report _).called = _
  split <;> rfl

end Play

section Uncancelled

variable (p : Player) (chat : Conversation τ) (now : Nat) (idle : chat.run = none)

include idle

omit [Transport τ] in
theorem isOpen_opening : (p.opening chat now).IsOpen := ⟨idle, rfl⟩

theorem turns_of_never (token : p.token = .never) :
    p.turns chat now =
      (((p.opening chat now).answeredAll p.pacing.userMessage 0 p.texts).tell .complete,
        .outcome .completed) :=
  playTurns_of_never { p with isStarted := true } (p.opening chat now) 0 p.texts
    (p.isOpen_opening chat now idle) token

end Uncancelled

end Playback.Player
