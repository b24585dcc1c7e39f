import Playback.Proofs.Chat.Books

namespace Playback.Chat

open Playback.Stream (Script)
open Cassette (Reel)

/-- The token is cancelled, nothing was handed over in the exchanges from the `n`-th on, and the run
of such a one was begun when the token was cancelled. -/
structure Books.Silent {τ : Type} (b : Books) (c : Conversation τ) (now n : Nat) : Prop where
  cancelled : c.token.isCancelled now = true
  nothing : ∀ x ∈ b.all.drop n, x.events = []
  late : ∀ r, c.run = some r → n ≤ b.past.length → now ≤ r.begun ∧ r.script.IsPaced

namespace Books

variable {τ : Type} {b : Books} {first : List Thread.Message} {c : Conversation τ} {now n : Nat}

theorem Silent.messages (silent : b.Silent c now n) :
    ∀ x ∈ b.all.drop n, x.events = [] ∧ x.messages = [.user x.text] := by
  intro x member
  have nothing := silent.nothing x member
  refine ⟨nothing, ?_⟩
  rw [Exchange.messages, nothing]
  rfl

/-- A run that was begun under a cancelled token is over as soon as time passes, and nothing comes
of it. -/
theorem Silent.elapse (silent : b.Silent c now n) (tell : b.Tell first c) (r : Run)
    (going : c.run = some r) (new : n ≤ b.past.length) (t : Nat) :
    c.elapse t =
      if r.begun ≤ t then { c with completed := c.completed + 1, run := none } else c := by
  obtain ⟨after, paced⟩ := silent.late r going new
  have cancelled := c.token.isCancelled_of_le now r.begun after silent.cancelled
  obtain ⟨events, finish⟩ := Script.play_of_isCancelled c.token r.begun 0 r.script paced cancelled
  have due : c.due r t = [] := by
    unfold Conversation.due Conversation.trace
    rw [events, List.drop_nil]
    rfl
  obtain ⟨x, present, made⟩ := tell.going_of_running r going
  have last : x ∈ b.all.drop n := by
    rw [all, present, List.drop_append_of_le_length new]
    exact List.mem_append_right _ List.mem_cons_self
  have empty : r.assembler.isEmpty = true := by
    rw [made, silent.nothing x last]
    rfl
  have finished : (c.trace r).finish = r.begun := finish
  rw [c.elapse_of_running r t going, due, c.take_nil, finished]
  dsimp only
  rw [← going, Conversation.finish, if_pos empty]

theorem Silent.note (silent : b.Silent c now n) (next : Conversation τ)
    (cancelled : next.token.isCancelled now = true)
    (quiet : n ≤ b.past.length → next.log = c.log ∧
      ∀ s, next.run = some s → ∃ r, c.run = some r ∧ s.begun = r.begun ∧ s.script = r.script) :
    (b.note c next).Silent next now n := by
  refine ⟨cancelled, ?_, ?_⟩
  · rw [all_note]
    by_cases new : n ≤ b.past.length
    · rw [(quiet new).1, List.drop_length, List.map_nil, hand_nil]
      exact silent.nothing
    · -- An exchange that is going on from before is no later one, whatever it is handed.
      have short : (b.hand ((next.log.drop c.log.length).map (·.2))).all.length ≤ n := by
        cases going : b.going <;> simp [all, Books.hand, going] <;> omega
      rw [List.drop_eq_nil_of_le short]
      exact List.forall_mem_nil _
  · intro s still new
    have same : (b.note c next).past = b.past := by
      unfold Books.note
      rw [still]
      rfl
    rw [same] at new
    obtain ⟨r, going, begun, script⟩ := (quiet new).2 s still
    rw [begun, script]
    exact silent.late r going new

theorem Silent.ask [Transport τ] (silent : b.Silent c now n) (tell : b.Tell first c)
    (idle : c.run = none) (t : Nat) (text : String) (after : now ≤ t)
    (paced : (Transport.send c.transport).1.IsPaced) :
    (b.ask text).Silent (c.asked t text) now n := by
  have none := tell.going_of_idle idle
  refine ⟨silent.cancelled, ?_, ?_⟩
  · intro x member
    have old := silent.nothing x
    simp only [all, Books.ask, none, Option.toList_none, Option.toList_some, List.append_nil,
      List.drop_append, List.mem_append] at member old
    rcases member with before | here
    · exact old before
    · rw [List.mem_singleton.mp (List.mem_of_mem_drop here)]
  · intro r started _
    obtain rfl : c.nextRun t = r := Option.some.inj started
    exact ⟨after, paced⟩

end Books

theorem Conversation.token_elapse {τ : Type} (c : Conversation τ) (now : Nat) :
    (c.elapse now).token = c.token := by
  cases going : c.run with
  | none => rw [c.elapse_of_idle now going]
  | some r =>
      rw [c.elapse_of_running r now going]
      split <;> rfl

namespace Books

variable {b : Books} {first : List Thread.Message} {c : Conversation Reel} {now n : Nat}

theorem Silent.follow (silent : b.Silent c now n) (tell : b.Tell first c) (action : Action)
    (after : ∀ t text, action = .append t text → now ≤ t) :
    (b.follow c (.act action)).Silent (c.perform action) now n := by
  have still : (b.note c c).Silent c now n :=
    silent.note c silent.cancelled fun _ => ⟨rfl, fun s going => ⟨s, going, rfl, rfl⟩⟩
  have elapsed (t : Nat) : (b.note c (c.elapse t)).Silent (c.elapse t) now n := by
    refine silent.note _ ((c.token_elapse t).symm ▸ silent.cancelled) fun new => ?_
    cases going : c.run with
    | none =>
        rw [c.elapse_of_idle t going, going]
        exact ⟨rfl, nofun⟩
    | some r =>
        rw [silent.elapse tell r going new t]
        split
        · exact ⟨rfl, nofun⟩
        · exact ⟨rfl, fun s same => ⟨r, rfl, by simp_all⟩⟩
  -- A message alone can begin an exchange; everything else is noted as it comes.
  cases action with
  | append t text =>
      have accepted : c.accepted? (.act (.append t text)) =
          if (c.append t text).2 then some text else none := rfl
      unfold Books.follow
      rw [accepted]
      change Silent _ (c.append t text).1 now n
      rcases c.append_cases t text with ⟨-, refused⟩ | ⟨idle, started⟩
      · rw [refused]
        change (b.note c (c.append t text).1).Silent c now n
        rw [refused]
        exact still
      · rw [started]
        exact silent.ask tell idle t text (after t text rfl)
          (Cassette.isPaced_turnScript c.transport.pacing c.transport.nextTurn.1)
  | elapse t => exact elapsed t
  | settle t =>
      change (b.note c (c.settle t).1).Silent (c.settle t).1 now n
      unfold Conversation.settle
      split
      · exact still
      · exact elapsed _
  | cancel t =>
      exact silent.note (c.cancel t)
        ((c.token.isCancelled_cancel_iff t now).mpr (.inl silent.cancelled))
        fun _ => ⟨rfl, fun s going => ⟨s, going, rfl, rfl⟩⟩

theorem Silent.keep (silent : b.Silent c now n) (tell : b.Tell first c) (actions : List Action)
    (after : ∀ t text, .append t text ∈ actions → now ≤ t) :
    (b.keep c (actions.map .act)).Silent (c.performAll actions) now n := by
  induction actions generalizing b c with
  | nil => exact silent
  | cons action rest ih =>
      have next := silent.follow tell action fun t text same =>
        after t text (same ▸ List.mem_cons_self)
      exact ih next (tell.follow (.act action)) fun t text member =>
        after t text (List.mem_cons_of_mem action member)

theorem Tell.silent_cancel (tell : b.Tell first c) (now : Nat) :
    (b.follow c (.act (.cancel now))).Silent (c.cancel now) now b.all.length := by
  have still : (b.note c (c.cancel now)).all.length = b.all.length := by
    have texts := congrArg List.length (texts_note b c (c.cancel now))
    rwa [List.length_map, List.length_map] at texts
  change (b.note c (c.cancel now)).Silent _ _ _
  refine ⟨(c.token.isCancelled_cancel_iff now now).mpr (.inr (Nat.le_refl now)), ?_, ?_⟩
  · rw [List.drop_eq_nil_of_le (Nat.le_of_eq still)]
    exact List.forall_mem_nil _
  · intro r going late
    have told := tell.follow (.act (.cancel now))
    obtain ⟨x, present, -⟩ := told.going_of_running r going
    have more : (b.note c (c.cancel now)).all.length =
        (b.note c (c.cancel now)).past.length + 1 := by
      change (b.note c (c.cancel now)).going = some x at present
      rw [all, present, List.length_append]
      rfl
    omega

end Books

theorem Books.Tell.silent_keep {b : Books} {first : List Thread.Message} {c : Conversation Reel}
    (tell : b.Tell first c) (before after : List Action) (now : Nat)
    (ordered : ∀ t text, .append t text ∈ after → now ≤ t) :
    (b.keep c ((before ++ .cancel now :: after).map .act)).Silent
      (c.performAll (before ++ .cancel now :: after)) now
      (b.all.length + (c.accepted (before.map .act)).length) := by
  have told := tell.keep (before.map .act)
  have count := congrArg List.length (texts_keep tell (before.map .act))
  rw [List.length_map, List.length_append, List.length_map] at count
  rw [Conversation.moveAll_act] at told
  have silent := told.silent_cancel now
  rw [count] at silent
  have kept := silent.keep (told.follow (.act (.cancel now))) after ordered
  have whole : c.performAll (before ++ .cancel now :: after) =
      ((c.performAll before).cancel now).performAll after := List.foldl_append
  rw [List.map_append, keep_append, Conversation.moveAll_act, whole]
  exact kept

/-- Whatever is done, and whatever streams do in between, a message is accepted just when no run is
going on, and one that is refused changes nothing. The books tell which were accepted, each of them
counts as going on or as completed, and the thread has it and, when its run is over, what was
assembled in the run, if anything was. After a cancellation a reel hands over nothing more: every
run is over as soon as time passes, and only counts. -/
theorem books_of_conversation :
    (∀ {τ : Type} [Transport τ] (transport : τ) (systems : List String)
      (store : Option Agents.Store) (origin : Instant) (token : Token) (moves : List Move),
      let first := systems.map Thread.Message.system
      let begun := Conversation.start transport first store origin token
      let c := begun.moveAll moves
      let b := Books.empty.keep begun moves
      b.Tell first c ∧ b.all.map (·.text) = begun.accepted moves ∧
        c.completed + (if c.run.isSome then 1 else 0) = (begun.accepted moves).length ∧
        ∀ now text, ((c.append now text).2 = true ↔ c.run = none) ∧
          (c.run ≠ none → (c.append now text).1 = c)) ∧
      ∀ (reel : Reel) (systems : List String) (store : Option Agents.Store) (origin : Instant)
        (token : Token) (before after : List Action) (now : Nat),
        (∀ t text, .append t text ∈ after → now ≤ t) →
        let actions := before ++ .cancel now :: after
        let begun := Conversation.start reel (systems.map .system) store origin token
        let c := begun.performAll actions
        let b := Books.empty.keep begun (actions.map .act)
        let n := (begun.accepted (before.map .act)).length
        (∀ x ∈ b.all.drop n, x.events = [] ∧ x.messages = [.user x.text]) ∧
          ∀ r, c.run = some r → n ≤ b.past.length → ∀ t, r.begun ≤ t →
            c.elapse t = { c with completed := c.completed + 1, run := none } := by
  constructor
  · intro τ _ transport systems store origin token moves first begun c b
    have tell : b.Tell first c := (Books.tell_start transport first store origin token).keep moves
    have texts : b.all.map (·.text) = begun.accepted moves :=
      Books.texts_keep (Books.tell_start transport first store origin token) moves
    have count := tell.count
    rw [← List.length_map (·.text), texts] at count
    exact ⟨tell, texts, count, c.append_accepted_iff⟩
  · intro reel systems store origin token before after now ordered actions begun c b n
    have empty := Books.tell_start reel (systems.map .system) store origin token
    have tell : b.Tell (systems.map .system) c := by
      have kept := empty.keep (actions.map .act)
      rwa [Conversation.moveAll_act] at kept
    have silent : b.Silent c now n := by
      have kept := empty.silent_keep before after now ordered
      rwa [show Books.empty.all.length = 0 from rfl, Nat.zero_add] at kept
    refine ⟨silent.messages, fun r going late t due => ?_⟩
    rw [silent.elapse tell r going late t, if_pos due]

theorem books_of_cancelled_runs :
    let cassette : Cassette := ⟨[⟨.user, []⟩, ⟨.assistant, [.text "ab"]⟩, ⟨.user, []⟩,
      ⟨.assistant, [.text "c"]⟩]⟩
    let before : List Action := [.append 0 "d", .append 1 "e", .elapse 10]
    let after : List Action := [.settle 11, .append 16 "f", .elapse 16, .append 17 "g"]
    let begun := Conversation.start (Reel.start cassette ⟨2, 0, 10, 0⟩ 0) (["s"].map .system) none
      default .never
    let c := begun.performAll (before ++ .cancel 11 :: after)
    (∀ t text, .append t text ∈ after → 11 ≤ t) ∧ c.run.map (·.begun) = some 17 ∧
      c.thread = [.system "s", .user "d", .assistant [.text "a"], .user "f", .user "g"] ∧
      c.completed = 2 ∧ (c.append 18 "h").1 = c ∧
      c.elapse 18 = { c with completed := c.completed + 1, run := none } := by
  intro cassette before after begun c
  have ordered : ∀ t text, .append t text ∈ after → 11 ≤ t := by
    intro t text member
    simp [after] at member
    omega
  have going : c.run.map (·.begun) = some 17 := by decide +kernel
  obtain ⟨r, running, start⟩ := Option.map_eq_some_iff.mp going
  obtain ⟨counted, silenced⟩ := books_of_conversation
  obtain ⟨-, -, -, asked⟩ := counted (Reel.start cassette ⟨2, 0, 10, 0⟩ 0) ["s"] none default .never
    ((before ++ .cancel 11 :: after).map .act)
  rw [Conversation.moveAll_act] at asked
  have refused := (asked 18 "h").2 (by rw [running]; exact nofun)
  obtain ⟨-, silent⟩ := silenced (Reel.start cassette ⟨2, 0, 10, 0⟩ 0) ["s"] none default .never
    before after 11 ordered
  have ended := silent r running (by decide +kernel) 18 (by omega)
  exact ⟨ordered, going, by decide +kernel, by decide +kernel, refused, ended⟩

end Playback.Chat
