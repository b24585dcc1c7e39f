import Playback.Proofs.Cassette.Normal
import Mathlib.Data.List.TakeWhile

/-!
How the turns of a reel divide a cassette. Each passes over a message of the user, if one comes
next, and over all of the assistant's behind it; together they pass over every message once.
-/

namespace Playback.Cassette

def answers (messages : List Message) : List Message := messages.takeWhile (·.role = .assistant)
def onward (messages : List Message) : List Message := messages.dropWhile (·.role = .assistant)

theorem answers_append_onward (messages : List Message) :
    answers messages ++ onward messages = messages := List.takeWhile_append_dropWhile

theorem role_of_mem_answers (messages : List Message) (m : Message)
    (member : m ∈ answers messages) : m.role = .assistant := by
  have holds := List.mem_takeWhile_imp member
  exact of_decide_eq_true holds

theorem onward_eq_nil_or_user (messages : List Message) :
    onward messages = [] ∨ ∃ content rest, onward messages = ⟨.user, content⟩ :: rest := by
  induction messages with
  | nil => exact .inl rfl
  | cons m rest ih =>
      rcases m with ⟨_ | _, content⟩
      · exact .inr ⟨content, rest, rfl⟩
      · exact ih

theorem filter_user_onward (messages : List Message) :
    (onward messages).filter (·.role = .user) = messages.filter (·.role = .user) := by
  induction messages with
  | nil => rfl
  | cons m rest ih =>
      rcases m with ⟨_ | _, content⟩
      · rfl
      · exact ih

def asked : List Message → List Message
  | ⟨.user, content⟩ :: _ => [⟨.user, content⟩]
  | _ => []

def replies (messages : List Message) : List Message :=
  answers (messages.drop (asked messages).length)
def beyond (messages : List Message) : List Message :=
  onward (messages.drop (asked messages).length)

theorem length_asked_le (messages : List Message) : (asked messages).length ≤ 1 := by
  rcases messages with _ | ⟨⟨_ | _, content⟩, rest⟩ <;> simp [asked]

theorem role_of_mem_asked (messages : List Message) (m : Message) (member : m ∈ asked messages) :
    m.role = .user := by
  rcases messages with _ | ⟨⟨_ | _, content⟩, rest⟩
  · cases member
  · rw [List.mem_singleton.mp member]
  · cases member

theorem asked_append_drop (messages : List Message) :
    asked messages ++ messages.drop (asked messages).length = messages := by
  rcases messages with _ | ⟨⟨_ | _, content⟩, rest⟩ <;> rfl

theorem round_append_beyond (messages : List Message) :
    asked messages ++ replies messages ++ beyond messages = messages := by
  rw [List.append_assoc, replies, beyond, answers_append_onward, asked_append_drop]

/-- How many turns it takes to pass over messages: one for each of the user, and one for what the
assistant says before these. -/
def rounds (messages : List Message) : Nat :=
  (messages.filter (·.role = .user)).length +
    if messages.head?.any (·.role = .assistant) then 1 else 0

theorem rounds_beyond (messages : List Message) (more : messages ≠ []) :
    rounds messages = rounds (beyond messages) + 1 := by
  have plain (rest : List Message) :
      rounds (onward rest) = (rest.filter (·.role = .user)).length := by
    have same := filter_user_onward rest
    unfold rounds
    rcases onward_eq_nil_or_user rest with last | ⟨content, later, user⟩
    · rw [← same, last]
      rfl
    · rw [← same, user]
      rfl
  rcases messages with _ | ⟨⟨_ | _, content⟩, rest⟩
  · exact absurd rfl more
  · have next : beyond (⟨.user, content⟩ :: rest) = onward rest := rfl
    rw [next, plain]
    rfl
  · have next : beyond (⟨.assistant, content⟩ :: rest) = onward rest := rfl
    rw [next, plain]
    rfl

theorem rounds_eq_zero_iff (messages : List Message) : rounds messages = 0 ↔ messages = [] := by
  constructor
  · intro zero
    by_contra more
    have step := rounds_beyond messages more
    omega
  · rintro rfl
    rfl

namespace Reel

variable (r : Reel)

theorem isExhausted_iff : r.isExhausted = true ↔ r.ahead = [] := by
  unfold isExhausted ahead
  rw [decide_eq_true_iff, List.drop_eq_nil_iff]

theorem parts_nextTurn : r.nextTurn.1.parts = (replies r.ahead).flatMap (·.content) := by
  unfold nextTurn ahead
  rcases r.cassette.messages.drop r.cursor with _ | ⟨⟨_ | _, content⟩, rest⟩ <;> rfl

theorem cursor_nextTurn :
    r.nextTurn.2.cursor = r.cursor + (asked r.ahead).length + (replies r.ahead).length := by
  unfold nextTurn ahead
  rcases r.cassette.messages.drop r.cursor with _ | ⟨⟨_ | _, content⟩, rest⟩ <;> rfl

theorem ahead_nextTurn : r.nextTurn.2.ahead = beyond r.ahead := by
  have split := round_append_beyond r.ahead
  have moved : r.nextTurn.2.ahead =
      r.ahead.drop (asked r.ahead ++ replies r.ahead).length := by
    change r.cassette.messages.drop r.nextTurn.2.cursor = _
    rw [cursor_nextTurn, List.length_append, Reel.ahead, List.drop_drop, Nat.add_assoc]
  calc
    r.nextTurn.2.ahead = r.ahead.drop (asked r.ahead ++ replies r.ahead).length := moved
    _ = (asked r.ahead ++ replies r.ahead ++ beyond r.ahead).drop
        (asked r.ahead ++ replies r.ahead).length := by rw [split]
    _ = beyond r.ahead := List.drop_left

theorem skip_succ (k : Nat) : r.skip (k + 1) = (r.skip k).nextTurn.2 := by
  induction k generalizing r with
  | zero => rfl
  | succ k ih => exact ih r.nextTurn.2

theorem cassette_skip (k : Nat) : (r.skip k).cassette = r.cassette := by
  induction k generalizing r with
  | zero => rfl
  | succ k ih => exact ih r.nextTurn.2

theorem rounds_skip (k : Nat) : rounds (r.skip k).ahead = rounds r.ahead - k := by
  induction k with
  | zero => rfl
  | succ k ih =>
      rw [skip_succ, ahead_nextTurn]
      by_cases finished : (r.skip k).ahead = []
      · rw [finished] at ih ⊢
        have beyond_nil : rounds (beyond []) = 0 := rfl
        have rounds_nil : rounds [] = 0 := rfl
        omega
      · have step := rounds_beyond _ finished
        omega

theorem isExhausted_skip_iff (k : Nat) :
    (r.skip k).isExhausted = true ↔ rounds r.ahead ≤ k := by
  rw [isExhausted_iff, ← rounds_eq_zero_iff, rounds_skip]
  omega

/-- What the turn that comes after so many others passes over. -/
def passed (k : Nat) : List Message :=
  (r.cassette.messages.take (r.skip (k + 1)).cursor).drop (r.skip k).cursor

theorem passed_eq (k : Nat) :
    r.passed k = asked (r.skip k).ahead ++ replies (r.skip k).ahead := by
  have split := round_append_beyond (r.skip k).ahead
  have cursor := (r.skip k).cursor_nextTurn
  rw [← skip_succ] at cursor
  have width : (r.skip (k + 1)).cursor - (r.skip k).cursor =
      (asked (r.skip k).ahead ++ replies (r.skip k).ahead).length := by
    rw [List.length_append]
    omega
  calc
    r.passed k = ((r.skip k).ahead).take ((r.skip (k + 1)).cursor - (r.skip k).cursor) := by
      rw [passed, List.drop_take, Reel.ahead, cassette_skip]
    _ = (asked (r.skip k).ahead ++ replies (r.skip k).ahead ++ beyond (r.skip k).ahead).take
        (asked (r.skip k).ahead ++ replies (r.skip k).ahead).length := by rw [split, width]
    _ = asked (r.skip k).ahead ++ replies (r.skip k).ahead := List.take_left

theorem passed_append_ahead (k : Nat) :
    r.passed k ++ (r.skip (k + 1)).ahead = (r.skip k).ahead := by
  rw [passed_eq, skip_succ, ahead_nextTurn, round_append_beyond]

theorem flatMap_passed (n : Nat) :
    (List.range n).flatMap r.passed ++ (r.skip n).ahead = r.ahead := by
  induction n with
  | zero => rfl
  | succ n ih =>
      rw [List.range_succ, List.flatMap_append, List.flatMap_singleton, List.append_assoc,
        passed_append_ahead, ih]

theorem flatMap_passed_rounds : (List.range (rounds r.ahead)).flatMap r.passed = r.ahead := by
  have finished := (isExhausted_iff _).mp ((r.isExhausted_skip_iff _).mpr (Nat.le_refl _))
  have all := r.flatMap_passed (rounds r.ahead)
  rw [finished, List.append_nil] at all
  exact all

theorem parts_of_passed (k : Nat) :
    (r.skip k).nextTurn.1.parts =
      ((r.passed k).filter (·.role = .assistant)).flatMap (·.content) := by
  have silent : (asked (r.skip k).ahead).filter (·.role = .assistant) = [] := by
    rw [List.filter_eq_nil_iff]
    intro m member
    simp [role_of_mem_asked _ m member]
  have every : (replies (r.skip k).ahead).filter (·.role = .assistant) =
      replies (r.skip k).ahead := by
    rw [List.filter_eq_self]
    intro m member
    exact decide_eq_true (role_of_mem_answers _ m member)
  rw [parts_nextTurn, passed_eq, List.filter_append, silent, every, List.nil_append]

theorem flatMap_parts (n : Nat) :
    (List.range n).flatMap (fun k => (r.skip k).nextTurn.1.parts) =
      (((List.range n).flatMap r.passed).filter (·.role = .assistant)).flatMap (·.content) := by
  rw [List.filter_flatMap, List.flatMap_assoc]
  simp only [parts_of_passed]

theorem cursor_lt_nextTurn (more : r.ahead ≠ []) : r.cursor < r.nextTurn.2.cursor := by
  rw [cursor_nextTurn]
  rcases shape : r.ahead with _ | ⟨⟨_ | _, content⟩, rest⟩
  · exact absurd shape more
  · have one : (asked (⟨.user, content⟩ :: rest)).length = 1 := rfl
    omega
  · have several :
        (replies (⟨.assistant, content⟩ :: rest)).length = (answers rest).length + 1 := rfl
    omega

theorem cursor_skip_le (k : Nat) (within : r.cursor ≤ r.cassette.messages.length) :
    (r.skip k).cursor ≤ r.cassette.messages.length := by
  induction k with
  | zero => exact within
  | succ k ih =>
      have split := congrArg List.length (round_append_beyond (r.skip k).ahead)
      have left : (r.skip k).ahead.length = r.cassette.messages.length - (r.skip k).cursor := by
        rw [Reel.ahead, cassette_skip, List.length_drop]
      rw [List.length_append, List.length_append] at split
      rw [skip_succ, cursor_nextTurn]
      omega

theorem isUser_of_head_ahead (k : Nat) (m : Message)
    (head : m ∈ (r.skip (k + 1)).ahead.head?) : m.role = .user := by
  rw [skip_succ, ahead_nextTurn, beyond] at head
  rcases onward_eq_nil_or_user _ with last | ⟨content, rest, user⟩
  · rw [last] at head
    cases head
  · rw [user] at head
    cases head
    rfl

end Reel

/-- A message of the user at most, and the messages of the assistant behind it, as far as the next
message of the user. -/
def IsRound (round rest : List Message) : Prop :=
  ∃ question reply : List Message, round = question ++ reply ∧ question.length ≤ 1 ∧
    (∀ m ∈ question, m.role = .user) ∧ (∀ m ∈ reply, m.role = .assistant) ∧
    ∀ m ∈ rest.head?, m.role = .user

/-- Turn after turn the cursor moves on, until it stands behind the last message, and there it
stays. The messages that a turn passes over are a round, and it serves the assistant's among them;
all rounds together are the cassette, and all turns what the assistant says in it. There are as many
as the user has messages, and one more if the assistant speaks first. -/
theorem turns_partition (c : Cassette) (pacing : Pacing) (seed : Nat) :
    let r := Reel.start c pacing seed
    let cut (k : Nat) := (r.skip k).cursor
    let turn (k : Nat) := (r.skip k).nextTurn.1
    let passed (k : Nat) := (c.messages.take (cut (k + 1))).drop (cut k)
    let calls := c.userTurns + if c.messages.head?.any (·.role = .assistant) then 1 else 0
    cut 0 = 0 ∧ (∀ k < calls, cut k < cut (k + 1)) ∧
      (∀ k ≥ calls, cut k = c.messages.length ∧ (turn k).isEmpty = true) ∧
      (∀ k, (r.skip k).isExhausted = true ↔ calls ≤ k) ∧
      (∀ k, IsRound (passed k) (c.messages.drop (cut (k + 1))) ∧
        (turn k).parts = ((passed k).filter (·.role = .assistant)).flatMap (·.content)) ∧
      (List.range calls).flatMap passed = c.messages ∧
      (List.range calls).flatMap (fun k => (turn k).parts) =
        (c.messages.filter (·.role = .assistant)).flatMap (·.content) := by
  intro r cut turn passed calls
  have rounds : rounds r.ahead = calls := rfl
  have exhausted (k : Nat) := r.isExhausted_skip_iff k
  rw [rounds] at exhausted
  have cover : (List.range calls).flatMap passed = c.messages := r.flatMap_passed_rounds
  refine ⟨rfl, ?_, ?_, exhausted, ?_, cover, ?_⟩
  · intro k before
    have more : (r.skip k).ahead ≠ [] := by
      rw [ne_eq, ← Reel.isExhausted_iff, exhausted]
      omega
    -- As long as something is ahead, the next turn takes some of it.
    have next := (r.skip k).cursor_lt_nextTurn more
    rw [← r.skip_succ] at next
    exact next
  · intro k late
    have finished : (r.skip k).ahead = [] := (Reel.isExhausted_iff _).mp ((exhausted k).mpr late)
    have within := r.cursor_skip_le k (Nat.zero_le _)
    have whole : c.messages.length ≤ cut k := by
      rw [Reel.ahead, r.cassette_skip] at finished
      exact List.drop_eq_nil_iff.mp finished
    refine ⟨Nat.le_antisymm within whole, ?_⟩
    rw [Turn.isEmpty, Reel.parts_nextTurn, finished]
    rfl
  · intro k
    refine ⟨⟨asked (r.skip k).ahead, replies (r.skip k).ahead, r.passed_eq k, ?_, ?_, ?_, ?_⟩,
      r.parts_of_passed k⟩
    · exact length_asked_le _
    · exact role_of_mem_asked _
    · exact role_of_mem_answers _
    · intro m head
      apply r.isUser_of_head_ahead k m
      rw [Reel.ahead, r.cassette_skip]
      exact head
  · rw [← cover]
    exact r.flatMap_parts calls

end Playback.Cassette
