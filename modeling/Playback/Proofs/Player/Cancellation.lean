import Playback.Proofs.Player.Course

namespace Playback.Player

open Chat (Conversation Transport)
open Playback.Stream (Script)

variable {τ : Type} [Transport τ]

def withToken (p : Player) (token : Token) : Player := { p with token := token }

namespace Course

def withToken (c : Course (Conversation τ)) (token : Token) : Course (Conversation τ) :=
  { c with chat := c.chat.withToken token }

section Answer

variable (c : Course (Conversation τ)) (t turn instant : Nat) (text : String)
  (uncancelled : c.chat.token = .never)

include uncancelled

theorem answered_of_late (late : (c.answered turn instant text).now < t) (free : c.IsOpen) :
    (c.withToken (.cancelledFrom t)).answered turn instant text =
      (c.answered turn instant text).withToken (.cancelledFrom t) := by
  have same : (c.chat.withToken (.cancelledFrom t)).nextTrace instant =
      c.chat.nextTrace instant := by
    unfold Conversation.nextTrace Conversation.trace
    rw [uncancelled]
    apply Script.play_of_late
    rw [← uncancelled]
    exact late
  have chat := c.chat.answer_withToken instant text free.idle (.cancelledFrom t) same
  unfold answered withToken
  rw [chat, same]

theorem le_now_answered_of_early (early : t ≤ (c.answered turn instant text).now) :
    t ≤ ((c.withToken (.cancelledFrom t)).answered turn instant text).now := by
  apply Script.le_finish_of_early
  rw [← uncancelled]
  exact early

end Answer

end Course

/-- Does a cancellation leave the last of some messages unsent? One at the very time of a message
does. -/
def cutsLast (t : Nat) (sent : List (Nat × String)) : Bool := sent.getLast?.any (t ≤ ·.1)

theorem cutsLast_of_forall (t : Nat) (sent : List (Nat × String)) (some : sent ≠ [])
    (unsent : ∀ s ∈ sent, t ≤ s.1) : cutsLast t sent = true := by
  unfold cutsLast
  rw [List.getLast?_eq_some_getLast some]
  exact decide_eq_true (unsent _ (List.getLast_mem some))

theorem cutsLast_cons (t instant : Nat) (text : String) (sent : List (Nat × String))
    (before : instant < t) : cutsLast t ((instant, text) :: sent) = cutsLast t sent := by
  unfold cutsLast
  rw [List.getLast?_cons]
  cases sent.getLast? with
  | none => exact decide_eq_false (Nat.not_le.mpr before)
  | some s => rfl

section Turns

variable (p : Player) (c : Course (Conversation τ)) (t turn : Nat) (text : String)
  (rest : List String) (free : c.IsOpen) (token : p.token = .cancelledFrom t)

include free token

theorem playTurns_of_early (texts : List String) (sent : List (Nat × String))
    (early : t ≤ c.now + p.pacing.userMessage) (same : sent.map (·.2) = texts)
    (after : ∀ s ∈ sent, t ≤ s.1) :
    (p.playTurns c turn texts).2 =
      if cutsLast t sent then .outcome .cancelled else .outcome .completed := by
  cases texts with
  | nil =>
      obtain rfl : sent = [] := List.map_eq_nil_iff.mp same
      rfl
  | cons text rest =>
      have unsent : cutsLast t sent = true := by
        apply cutsLast_of_forall t sent _ after
        rintro rfl
        cases same
      rw [unsent, p.playTurns_of_ended c turn text rest _
        (p.playTurn_of_early c turn text free t token early)]
      rfl

theorem playTurns_of_late (late : c.now + p.pacing.userMessage < t) :
    p.playTurns c turn (text :: rest) =
      p.playTurns (c.answered turn (c.now + p.pacing.userMessage) text) (turn + 1) rest := by
  have going : p.token.isCancelled (c.now + p.pacing.userMessage) = false := by
    rw [token]
    exact decide_eq_false (Nat.not_le.mpr late)
  rw [playTurns, p.playTurn_of_isOpen c turn text free going]

end Turns

/-- What comes of messages is told by when they would be sent if nothing were cancelled. -/
theorem playTurns_of_cancelledFrom (p : Player) (c : Course (Conversation τ)) (t turn : Nat)
    (texts : List String) (sent : List (Nat × String)) (free : c.IsOpen)
    (uncancelled : c.chat.token = .never) (token : p.token = .cancelledFrom t)
    (all : (c.answeredAll p.pacing.userMessage turn texts).sent = c.sent ++ sent) :
    (p.playTurns (c.withToken (.cancelledFrom t)) turn texts).2 =
      if cutsLast t sent then .outcome .cancelled else .outcome .completed := by
  induction texts generalizing c turn sent with
  | nil =>
      have none : sent = [] := List.self_eq_append_right.mp all
      rw [none]
      rfl
  | cons text rest ih =>
      have cutFree : (c.withToken (.cancelledFrom t)).IsOpen := ⟨free.idle, free.endless⟩
      obtain ⟨instant, hinstant⟩ : ∃ n, n = c.now + p.pacing.userMessage := ⟨_, rfl⟩
      rw [Course.answeredAll, ← hinstant] at all
      obtain ⟨later, following, texts, after⟩ := (c.answered turn instant text).answeredAll_sent
        p.pacing.userMessage (turn + 1) rest
      have order := c.le_now_answered turn instant text
      obtain rfl : sent = (instant, text) :: later := by
        have grown : (c.answered turn instant text).sent = c.sent ++ [(instant, text)] := rfl
        rw [following, grown, List.append_assoc] at all
        exact (List.append_cancel_left all).symm
      by_cases early : t ≤ instant
      · -- This message is not sent, and the last would not be sent before it.
        refine p.playTurns_of_early (c.withToken (.cancelledFrom t)) t turn cutFree token _ _
          (hinstant ▸ early) (congrArg (text :: ·) texts) ?_
        intro s member
        rcases List.mem_cons.mp member with rfl | member
        · exact early
        · have := after s member
          omega
      have late : instant < t := Nat.not_le.mp early
      have played := p.playTurns_of_late (c.withToken (.cancelledFrom t)) t turn text rest cutFree
        token (hinstant ▸ late)
      rw [cutsLast_cons t instant text later late, played]
      change (p.playTurns ((c.withToken (.cancelledFrom t)).answered turn
        (c.now + p.pacing.userMessage) text) (turn + 1) rest).2 = _
      rw [← hinstant]
      by_cases cut : t ≤ (c.answered turn instant text).now
      · -- The run is cut short, and nothing is sent after it.
        have stopped := c.le_now_answered_of_early t turn instant text uncancelled cut
        refine p.playTurns_of_early _ t (turn + 1)
          (Course.isOpen_answered _ turn instant text cutFree) token rest later
          (Nat.le_trans stopped (Nat.le_add_right _ _)) texts ?_
        intro s member
        have := after s member
        omega
      · -- The run ends in time, and all goes on as if nothing were to be cancelled.
        have same := c.answered_of_late t turn instant text uncancelled (Nat.not_le.mp cut) free
        rw [same]
        exact ih (c.answered turn instant text) (turn + 1) later
          (c.isOpen_answered turn instant text free)
          ((c.chat.answer_token instant text free.idle).trans uncancelled) following

def playShared (p : Player) (chat : Conversation τ) (token : Token) (now : Nat) :
    Report (Conversation τ) :=
  (p.withToken token).play (chat.withToken token) now none

theorem turns_of_cancelledFrom (p : Player) (chat : Conversation τ) (t now : Nat)
    (fresh : p.isStarted = false) (idle : chat.run = none) :
    ((p.withToken (.cancelledFrom t)).turns (chat.withToken (.cancelledFrom t)) now).2 =
      if cutsLast t (p.playShared chat .never now).course.sent then .outcome .cancelled
      else .outcome .completed := by
  let whole := (p.withToken .never).opening (chat.withToken .never) now
  have sent : (p.playShared chat .never now).course.sent =
      (whole.answeredAll p.pacing.userMessage 0 p.texts).sent := by
    unfold playShared
    rw [(p.withToken .never).play_course (chat.withToken .never) now fresh,
      (p.withToken .never).turns_of_never (chat.withToken .never) now idle rfl]
    rfl
  have free : whole.IsOpen := isOpen_opening _ _ now idle
  rw [sent]
  exact playTurns_of_cancelledFrom { p.withToken (.cancelledFrom t) with isStarted := true } whole t
    0 p.texts _ free rfl rfl (List.nil_append _).symm

/-- A cancellation makes a play end as cancelled, and without a call, if it comes by the time at
which the last message would be sent; one that comes later, or to a play without messages, is not
noticed. -/
theorem playShared_cancelled_before_last (p : Player) (chat : Conversation τ) (t now : Nat)
    (fresh : p.isStarted = false) (idle : chat.run = none) :
    let full := p.playShared chat .never now
    let cut := p.playShared chat (.cancelledFrom t) now
    ((∃ last ∈ full.course.sent.getLast?, t ≤ last.1) →
        cut.ending = .outcome .cancelled ∧ cut.called = []) ∧
      ((∀ last ∈ full.course.sent.getLast?, last.1 < t) →
        cut.ending = .outcome .completed ∧
          cut.called = p.callback.toList.map (·, cut.course.now)) := by
  intro full cut
  let turns := (p.withToken (.cancelledFrom t)).turns (chat.withToken (.cancelledFrom t)) now
  have ended : turns.2 = if cutsLast t full.course.sent then .outcome .cancelled
      else .outcome .completed := p.turns_of_cancelledFrom chat t now fresh idle
  have ending : cut.ending = turns.2 := play_ending _ _ now fresh
  have course : cut.course = turns.1 := play_course _ _ now fresh
  have called : cut.called = if turns.2 = .outcome .completed then
      p.callback.toList.map (·, turns.1.now) else [] := play_called _ _ now fresh
  rw [ending, called, course]
  constructor
  · rintro ⟨last, found, early⟩
    have unsent : cutsLast t full.course.sent = true := by
      unfold cutsLast
      rw [found]
      exact decide_eq_true early
    rw [unsent, if_pos rfl] at ended
    rw [ended]
    exact ⟨rfl, rfl⟩
  · intro late
    have sentAll : cutsLast t full.course.sent = false := by
      unfold cutsLast
      cases found : full.course.sent.getLast? with
      | none => rfl
      | some last => exact decide_eq_false (Nat.not_le.mpr (late last found))
    rw [sentAll, if_neg Bool.false_ne_true] at ended
    rw [ended]
    exact ⟨rfl, rfl⟩

section Sample

open Cassette (Reel)

def sample : Cassette :=
  ⟨[⟨.user, [.text "a"]⟩, ⟨.assistant, [.text "bc"]⟩, ⟨.user, [.text "d"]⟩,
    ⟨.assistant, [.text "e"]⟩]⟩

theorem playShared_cancelled_in_first_or_last :
    let p := (Player.start sample ⟨10, 0, 0, 0⟩ .never).onComplete 1
    let chat := Conversation.start (Reel.start sample ⟨10, 0, 0, 0⟩ 0) [] none default .never
    p.isStarted = false ∧ chat.run = none ∧
      (p.playShared chat (.cancelledFrom 5) 0).ending = .outcome .cancelled ∧
      (p.playShared chat (.cancelledFrom 5) 0).called = [] ∧
      (p.playShared chat (.cancelledFrom 25) 0).ending = .outcome .completed := by
  intro p chat
  have sent : (p.playShared chat .never 0).course.sent = [(0, "a"), (20, "d")] := by
    decide +kernel
  obtain ⟨early, -⟩ := playShared_cancelled_before_last p chat 5 0 rfl rfl
  obtain ⟨-, late⟩ := playShared_cancelled_before_last p chat 25 0 rfl rfl
  rw [sent] at early late
  have first := early ⟨(20, "d"), rfl, by decide⟩
  have last := late (by simp)
  exact ⟨rfl, rfl, first.1, first.2, last.1⟩

theorem playShared_not_always_cancelled :
    ¬ ∀ (c : Cassette) (pacing : Pacing) (callback t : Nat),
      let p := (Player.start c pacing .never).onComplete callback
      let chat := Conversation.start (Reel.start c pacing 0) [] none default .never
      let report := p.playShared chat (.cancelledFrom t) 0
      t ≤ report.course.now → report.ending = .outcome .cancelled ∧ report.called = [] := by
  intro always
  have last := always sample ⟨10, 0, 0, 0⟩ 1 25
  revert last
  decide +kernel

end Sample

end Playback.Player
