import Playback.Proofs.Chat.Session

/-!
The books of a conversation: which messages it accepted, and what was handed over in the run after
each. From them it can be told how many runs have ended, whether one is going on, and what stands in
the thread, whatever the streams do and whenever they end.
-/

namespace Playback.Chat

open Playback.Stream (Event)
open Thread (Assembler)

/-- An accepted message, and what was handed over in the run that it started. -/
structure Exchange where
  text : String
  events : List Event
  deriving DecidableEq, Repr

def Exchange.messages (x : Exchange) : List Thread.Message :=
  .user x.text :: Conversation.reply (Assembler.empty.applyAll x.events).parts

/-- What is done to a conversation, and what streams of any kind may do to it in between. -/
inductive Move where
  | act (action : Action)
  | hand (events : List (Nat × Event))
  | close
  deriving DecidableEq, Repr

namespace Conversation

variable {τ : Type}

def hand (c : Conversation τ) (events : List (Nat × Event)) : Conversation τ :=
  match c.run with
  | none => c
  | some r => { (c.take r events).1 with run := some (c.take r events).2 }

def close (c : Conversation τ) : Conversation τ :=
  match c.run with
  | none => c
  | some r => c.finish r

variable [Transport τ]

def move (c : Conversation τ) : Move → Conversation τ
  | .act action => c.perform action
  | .hand events => c.hand events
  | .close => c.close

def moveAll (c : Conversation τ) (moves : List Move) : Conversation τ := moves.foldl move c

theorem moveAll_act (c : Conversation τ) (actions : List Action) :
    c.moveAll (actions.map .act) = c.performAll actions :=
  List.foldl_map

def accepted? (c : Conversation τ) : Move → Option String
  | .act (.append now text) => if (c.append now text).2 then some text else none
  | _ => none

def accepted (c : Conversation τ) : List Move → List String
  | [] => []
  | m :: rest => (c.accepted? m).toList ++ (c.move m).accepted rest

end Conversation

structure Books where
  past : List Exchange
  going : Option Exchange
  deriving DecidableEq, Repr

namespace Books

def empty : Books := ⟨[], none⟩

def all (b : Books) : List Exchange := b.past ++ b.going.toList

def ask (b : Books) (text : String) : Books := { b with going := some ⟨text, []⟩ }

def hand (b : Books) (events : List Event) : Books :=
  { b with going := b.going.map fun x => { x with events := x.events ++ events } }

def close (b : Books) : Books := ⟨b.all, none⟩

variable {τ : Type}

def note (b : Books) (c next : Conversation τ) : Books :=
  let b := b.hand ((next.log.drop c.log.length).map (·.2))
  if next.run.isSome then b else b.close

/-- What the books tell of a conversation that began with some messages. -/
structure Tell (b : Books) (first : List Thread.Message) (c : Conversation τ) : Prop where
  completed : c.completed = b.past.length
  assembled : c.run.map (·.assembler) = b.going.map fun x => Assembler.empty.applyAll x.events
  thread : c.thread =
    first ++ b.past.flatMap Exchange.messages ++ b.going.toList.map fun x => .user x.text
  log : c.log.map (·.2) = b.all.flatMap (·.events)

variable [Transport τ]

def follow (b : Books) (c : Conversation τ) (m : Move) : Books :=
  match c.accepted? m with
  | some text => b.ask text
  | none => b.note c (c.move m)

def keep (b : Books) (c : Conversation τ) : List Move → Books
  | [] => b
  | m :: rest => (b.follow c m).keep (c.move m) rest

end Books

namespace Conversation

variable {τ : Type}

theorem hand_of_idle (c : Conversation τ) (events : List (Nat × Event)) (idle : c.run = none) :
    c.hand events = c := by
  unfold hand
  rw [idle]

theorem close_of_idle (c : Conversation τ) (idle : c.run = none) : c.close = c := by
  unfold close
  rw [idle]

theorem hand_of_running (c : Conversation τ) (events : List (Nat × Event)) (r : Run)
    (going : c.run = some r) :
    c.hand events = { (c.take r events).1 with run := some (c.take r events).2 } := by
  unfold hand
  rw [going]

theorem close_of_running (c : Conversation τ) (r : Run) (going : c.run = some r) :
    c.close = c.finish r := by
  unfold close
  rw [going]

/-- Nothing but that the stream of a run handed over some events and then ended, or did not. -/
def Goes (c next : Conversation τ) : Prop :=
  ∃ events token, next = (c.hand events).withToken token ∨
    next = (c.hand events).close.withToken token

theorem goes_hand (c : Conversation τ) (events : List (Nat × Event)) : c.Goes (c.hand events) :=
  ⟨events, (c.hand events).token, .inl rfl⟩

theorem goes_hand_close (c : Conversation τ) (events : List (Nat × Event)) :
    c.Goes (c.hand events).close :=
  ⟨events, (c.hand events).close.token, .inr rfl⟩

theorem take_nil (c : Conversation τ) (r : Run) : c.take r [] = (c, r) := by
  have kept : c.log ++ [] = c.log := List.append_nil c.log
  unfold take
  rw [kept]
  rfl

theorem hand_nil (c : Conversation τ) : c.hand [] = c := by
  cases going : c.run with
  | none => exact c.hand_of_idle [] going
  | some r =>
      rw [c.hand_of_running [] r going, take_nil, ← going]

theorem goes_refl (c : Conversation τ) : c.Goes c := by
  have same := c.goes_hand []
  rwa [hand_nil] at same

theorem elapse_eq (c : Conversation τ) (now : Nat) :
    ∃ events, c.elapse now = c.hand events ∨ c.elapse now = (c.hand events).close := by
  cases going : c.run with
  | none => exact ⟨[], .inl (by rw [c.elapse_of_idle now going, hand_nil])⟩
  | some r =>
      refine ⟨c.due r now, ?_⟩
      rw [c.elapse_of_running r now going, c.hand_of_running _ r going]
      split
      · exact .inr rfl
      · exact .inl rfl

theorem goes_elapse (c : Conversation τ) (now : Nat) : c.Goes (c.elapse now) := by
  obtain ⟨events, same | same⟩ := c.elapse_eq now <;> rw [same]
  · exact c.goes_hand events
  · exact c.goes_hand_close events

variable [Transport τ]

theorem append_cases (c : Conversation τ) (now : Nat) (text : String) :
    (c.run ≠ none ∧ c.append now text = (c, false)) ∨
      (c.run = none ∧ c.append now text = (c.asked now text, true)) := by
  cases going : c.run with
  | none => exact .inr ⟨rfl, c.append_of_idle now text going⟩
  | some r => exact .inl ⟨nofun, c.append_of_running now text r going⟩

theorem append_accepted_iff (c : Conversation τ) (now : Nat) (text : String) :
    ((c.append now text).2 = true ↔ c.run = none) ∧
      (c.run ≠ none → (c.append now text).1 = c) := by
  rcases c.append_cases now text with ⟨busy, refused⟩ | ⟨idle, started⟩
  · rw [refused]
    exact ⟨⟨nofun, fun idle => absurd idle busy⟩, fun _ => rfl⟩
  · rw [started]
    exact ⟨⟨fun _ => idle, fun _ => rfl⟩, fun busy => absurd idle busy⟩

/-- Every move that accepts no message does no more than streams do. -/
theorem move_cases (c : Conversation τ) (m : Move) :
    (∃ now text, c.run = none ∧ c.accepted? m = some text ∧ c.move m = c.asked now text) ∨
      (c.accepted? m = none ∧ c.Goes (c.move m)) := by
  cases m with
  | hand events => exact .inr ⟨rfl, c.goes_hand events⟩
  | close =>
      have closed := c.goes_hand_close []
      rw [hand_nil] at closed
      exact .inr ⟨rfl, closed⟩
  | act action =>
      cases action with
      | append now text =>
          rcases c.append_cases now text with ⟨-, refused⟩ | ⟨idle, started⟩
          · refine .inr ⟨by rw [accepted?, refused]; rfl, ?_⟩
            change c.Goes (c.append now text).1
            rw [refused]
            exact c.goes_refl
          · exact .inl ⟨now, text, idle, by rw [accepted?, started]; rfl, congrArg Prod.fst started⟩
      | elapse now => exact .inr ⟨rfl, c.goes_elapse now⟩
      | settle now =>
          refine .inr ⟨rfl, ?_⟩
          change c.Goes (c.settle now).1
          unfold settle
          split
          · exact c.goes_refl
          · exact c.goes_elapse _
      | cancel now => exact .inr ⟨rfl, [], c.token.cancel now, .inl (by rw [hand_nil]; rfl)⟩

end Conversation

namespace Books

variable {τ : Type} {b : Books} {first : List Thread.Message} {c : Conversation τ}

theorem tell_start (transport : τ) (first : List Thread.Message) (store : Option Agents.Store)
    (origin : Instant) (token : Token) :
    empty.Tell first (.start transport first store origin token) :=
  ⟨rfl, rfl, by simp [Conversation.start, empty], rfl⟩

theorem Tell.going_of_idle (tell : b.Tell first c) (idle : c.run = none) : b.going = none := by
  have none := tell.assembled
  rw [idle] at none
  exact Option.map_eq_none_iff.mp none.symm

theorem Tell.going_of_running (tell : b.Tell first c) (r : Run) (going : c.run = some r) :
    ∃ x, b.going = some x ∧ r.assembler = Assembler.empty.applyAll x.events := by
  have same := tell.assembled
  rw [going] at same
  obtain ⟨x, present, made⟩ := Option.map_eq_some_iff.mp same.symm
  exact ⟨x, present, made.symm⟩

theorem Tell.count (tell : b.Tell first c) :
    c.completed + (if c.run.isSome then 1 else 0) = b.all.length := by
  have running := congrArg Option.isSome tell.assembled
  rw [Option.isSome_map, Option.isSome_map] at running
  rw [tell.completed, running, all, List.length_append]
  cases b.going <;> rfl

theorem close_of_none (none : b.going = none) : b.close = b := by
  obtain ⟨past, going⟩ := b
  subst none
  simp [close, all]

theorem hand_of_none (none : b.going = none) (events : List Event) : b.hand events = b := by
  obtain ⟨past, going⟩ := b
  subst none
  rfl

theorem hand_nil (b : Books) : b.hand [] = b := by
  obtain ⟨past, _ | x⟩ := b <;> simp [Books.hand]

theorem Tell.hand (tell : b.Tell first c) (events : List (Nat × Event)) :
    (b.hand (events.map (·.2))).Tell first (c.hand events) := by
  cases busy : c.run with
  | none =>
      rw [c.hand_of_idle events busy, hand_of_none (tell.going_of_idle busy)]
      exact tell
  | some r =>
      obtain ⟨x, present, made⟩ := tell.going_of_running r busy
      obtain ⟨completed, -, thread, log⟩ := tell
      have assembled := Intake.takeAll_assembler c.origin
        ⟨r.assembler, r.trackers, c.store, c.dropped⟩ events
      rw [c.hand_of_running events r busy]
      simp only [all, present, Option.toList_some, List.map_singleton, List.flatMap_append,
        List.flatMap_singleton] at thread log
      refine ⟨completed, ?_, ?_, ?_⟩
      · change some (Intake.takeAll c.origin _ events).assembler = _
        rw [assembled, made]
        simp [Books.hand, present, Assembler.applyAll, List.foldl_append]
      · change c.thread = _
        simpa [Books.hand, present] using thread
      · change (c.log ++ events).map (·.2) = _
        rw [List.map_append, log]
        simp [Books.hand, all, present]

theorem Tell.close (tell : b.Tell first c) : b.close.Tell first c.close := by
  cases busy : c.run with
  | none =>
      rw [c.close_of_idle busy, close_of_none (tell.going_of_idle busy)]
      exact tell
  | some r =>
      obtain ⟨x, present, made⟩ := tell.going_of_running r busy
      obtain ⟨completed, -, thread, log⟩ := tell
      rw [c.close_of_running r busy]
      refine ⟨?_, rfl, ?_, ?_⟩
      · simp [Conversation.finish, Books.close, all, present, completed]
      · rw [Conversation.finish_thread, thread, made]
        simp [Books.close, all, present, Exchange.messages]
      · change c.log.map (·.2) = _
        simpa [Books.close, all, present] using log

theorem Tell.withToken (tell : b.Tell first c) (token : Token) : b.Tell first (c.withToken token) :=
  ⟨tell.completed, tell.assembled, tell.thread, tell.log⟩

theorem Tell.ask [Transport τ] (tell : b.Tell first c) (idle : c.run = none) (now : Nat)
    (text : String) : (b.ask text).Tell first (c.asked now text) := by
  have none := tell.going_of_idle idle
  obtain ⟨completed, -, thread, log⟩ := tell
  refine ⟨completed, rfl, ?_, ?_⟩
  · change c.thread ++ [.user text] = _
    rw [thread, none]
    simp [Books.ask]
  · change c.log.map (·.2) = _
    rw [log]
    simp [Books.ask, all, none]

theorem note_eq (b : Books) (c next : Conversation τ) (new : List (Nat × Event))
    (log : next.log = c.log ++ new) :
    b.note c next =
      if next.run.isSome then b.hand (new.map (·.2)) else (b.hand (new.map (·.2))).close := by
  unfold note
  rw [log, List.drop_left]

theorem all_close (b : Books) : b.close.all = b.all := List.append_nil b.all

theorem texts_hand (b : Books) (events : List Event) :
    (b.hand events).all.map (·.text) = b.all.map (·.text) := by
  cases going : b.going <;> simp [all, Books.hand, going]

theorem all_note (b : Books) (c next : Conversation τ) :
    (b.note c next).all = (b.hand ((next.log.drop c.log.length).map (·.2))).all := by
  unfold note
  split
  · rfl
  · rw [all_close]

theorem texts_note (b : Books) (c next : Conversation τ) :
    (b.note c next).all.map (·.text) = b.all.map (·.text) := by
  rw [all_note]
  exact b.texts_hand _

theorem Tell.note (tell : b.Tell first c) (next : Conversation τ) (goes : c.Goes next) :
    (b.note c next).Tell first next := by
  obtain ⟨events, token, shape⟩ := goes
  cases busy : c.run with
  | none =>
      -- Without a run nothing is handed over, and only the token can have changed.
      have none := tell.going_of_idle busy
      have same : next = c.withToken token := by
        rw [c.hand_of_idle events busy, c.close_of_idle busy, or_self] at shape
        exact shape
      have log : next.log = c.log ++ [] := by
        rw [same, List.append_nil]
        rfl
      have idle : next.run.isSome = false := by
        rw [same]
        exact Option.isSome_eq_false_iff.mpr (Option.isNone_iff_eq_none.mpr busy)
      rw [note_eq b c next [] log, idle, if_neg Bool.false_ne_true, hand_of_none none,
        close_of_none none, same]
      exact tell.withToken token
  | some r =>
      have handed := c.hand_of_running events r busy
      rcases shape with rfl | rfl
      · rw [note_eq b c _ events (by rw [handed]; rfl), if_pos (by rw [handed]; rfl)]
        exact (tell.hand events).withToken token
      · have closed := (c.hand events).close_of_running (c.take r events).2 (by rw [handed])
        rw [note_eq b c _ events (by rw [closed, handed]; rfl),
          if_neg (by rw [closed]; exact Bool.false_ne_true)]
        exact (tell.hand events).close.withToken token

variable [Transport τ]

theorem Tell.follow (tell : b.Tell first c) (m : Move) : (b.follow c m).Tell first (c.move m) := by
  unfold Books.follow
  rcases c.move_cases m with ⟨now, text, idle, accepted, asked⟩ | ⟨refused, goes⟩
  · rw [accepted, asked]
    exact tell.ask idle now text
  · rw [refused]
    exact tell.note (c.move m) goes

theorem texts_follow (tell : b.Tell first c) (m : Move) :
    (b.follow c m).all.map (·.text) = b.all.map (·.text) ++ (c.accepted? m).toList := by
  unfold Books.follow
  rcases c.move_cases m with ⟨now, text, idle, accepted, -⟩ | ⟨refused, -⟩
  · rw [accepted]
    simp [Books.ask, all, tell.going_of_idle idle]
  · rw [refused, Option.toList_none, List.append_nil]
    exact texts_note b c (c.move m)

theorem Tell.keep (tell : b.Tell first c) (moves : List Move) :
    (b.keep c moves).Tell first (c.moveAll moves) := by
  induction moves generalizing b c with
  | nil => exact tell
  | cons m rest ih => exact ih (tell.follow m)

theorem texts_keep (tell : b.Tell first c) (moves : List Move) :
    (b.keep c moves).all.map (·.text) = b.all.map (·.text) ++ c.accepted moves := by
  induction moves generalizing b c with
  | nil => exact (List.append_nil _).symm
  | cons m rest ih =>
      change ((b.follow c m).keep (c.move m) rest).all.map (·.text) = _
      rw [ih (tell.follow m), texts_follow tell m, List.append_assoc]
      rfl

theorem keep_append (b : Books) (c : Conversation τ) (moves more : List Move) :
    b.keep c (moves ++ more) = (b.keep c moves).keep (c.moveAll moves) more := by
  induction moves generalizing b c with
  | nil => rfl
  | cons m rest ih => exact ih (b.follow c m) (c.move m)

end Books

end Playback.Chat
