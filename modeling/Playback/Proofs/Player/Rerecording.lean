import Playback.Proofs.Cassette.Normal
import Playback.Proofs.Cassette.Reassembly
import Playback.Proofs.Player.Course

namespace Playback

open Cassette (Reel Message Part assistantLine)
open Chat (Conversation)
open Playback.Stream (Script)

namespace Cassette

/-- A conversation that is played from a reel, and that nothing cancels. -/
structure IsPlaying (c : Conversation Reel) (r : Reel) : Prop where
  idle : c.run = none
  transport : c.transport = r
  token : c.token = .never

variable (c : Conversation Reel) (r : Reel) (now : Nat)

theorem isPlaying_answer (text : String) (playing : IsPlaying c r) :
    IsPlaying (c.answer now text) r.nextTurn.2 where
  idle := c.answer_run now text playing.idle
  transport := by
    rw [c.answer_transport now text playing.idle, playing.transport]
    rfl
  token := by
    rw [c.answer_token now text playing.idle, playing.token]

theorem record_answer (m : Message) (playing : IsPlaying c r)
    (distinct : (r.nextTurn.1.parts.filterMap Part.call?).Nodup) :
    (ofThread (c.answer now m.userText).thread).messages =
      (ofThread c.thread).messages ++ (m.userLine ++ assistantLine r.nextTurn.1.parts) := by
  have events : (c.nextTrace now).events.map (·.2) = (r.nextTurn.1.script r.pacing).handed := by
    unfold Conversation.nextTrace Conversation.trace Conversation.nextRun
    rw [playing.token, playing.transport]
    exact Script.map_events_of_never now 0 _
  have reply : (Conversation.reply (r.nextTurn.1.parts.map Part.toThread)).filterMap
      Message.ofThread? = assistantLine r.nextTurn.1.parts := by
    unfold Conversation.reply
    split
    · rename_i none
      rw [List.map_eq_nil_iff.mp (List.isEmpty_iff.mp none)]
      rfl
    · exact ofThread?_assistant r.nextTurn.1.parts
  unfold ofThread
  rw [c.answer_thread now m.userText playing.idle, events,
    parts_turnScript r.pacing r.nextTurn.1 distinct, List.filterMap_append,
    List.filterMap_append, ofThread?_user, reply, List.append_assoc]

end Cassette

namespace Player

theorem record_answeredAll (c : Course (Conversation Reel)) (r : Reel) (pause turn : Nat)
    (users : List Message) (playing : Cassette.IsPlaying c.chat r)
    (distinct : ∀ k < users.length, ((r.skip k).nextTurn.1.parts.filterMap Part.call?).Nodup) :
    (Cassette.ofThread
        (c.answeredAll pause turn (users.map (·.userText))).chat.thread).messages =
      (Cassette.ofThread c.chat.thread).messages ++ r.lines users := by
  induction users generalizing c r turn with
  | nil => exact (List.append_nil _).symm
  | cons m rest ih =>
      have first : (r.nextTurn.1.parts.filterMap Part.call?).Nodup :=
        distinct 0 (Nat.succ_pos rest.length)
      have one := Cassette.record_answer c.chat r (c.now + pause) m playing first
      have next := ih (c.answered turn (c.now + pause) m.userText) r.nextTurn.2 (turn + 1)
        (Cassette.isPlaying_answer c.chat r (c.now + pause) m.userText playing)
        (fun k within => distinct (k + 1) (Nat.succ_lt_succ within))
      have same : (c.answered turn (c.now + pause) m.userText).chat.thread =
          (c.chat.answer (c.now + pause) m.userText).thread := rfl
      rw [same, one] at next
      rw [List.map_cons, Course.answeredAll, next, Reel.lines, List.append_assoc]

/-- A play that nothing cancels is completed, calls back once, and leaves in the conversation the
normal form of the cassette, whatever the pace; a dialogue in which nothing is left out comes out as
it was. -/
theorem record_play_eq_normal (c : Cassette) (pacing typing : Pacing) (seed callback now : Nat)
    (system : List Thread.Message) (store : Option Agents.Store) (origin : Instant)
    (hidden : ∀ m ∈ system, m.role = .system)
    (distinct : ∀ k < c.userTurns, ((c.served k).filterMap Part.call?).Nodup) :
    let chat := Conversation.start (Reel.start c typing seed) system store origin .never
    let report := ((Player.start c pacing .never).onComplete callback).play chat now none
    report.ending = .outcome .completed ∧ report.called = [(callback, report.course.now)] ∧
      report.course.chat.completed = c.userTurns ∧
      Cassette.ofThread report.course.chat.thread = c.normal ∧
      (Cassette.IsDialogue c.messages → c.normal = c) := by
  intro chat report
  let p := (Player.start c pacing .never).onComplete callback
  let course := (p.opening chat now).answeredAll pacing.userMessage 0 p.texts
  have free : (p.opening chat now).IsOpen := p.isOpen_opening chat now rfl
  have turns : p.turns chat now = (course.tell .complete, .outcome .completed) :=
    p.turns_of_never chat now rfl rfl
  have ending : report.ending = .outcome .completed := by
    rw [p.play_ending chat now rfl, turns]
  have played : report.course = course.tell .complete := by
    rw [p.play_course chat now rfl, turns]
  have called : report.called = [(callback, report.course.now)] := by
    rw [p.play_called chat now rfl, played, turns, if_pos rfl]
    rfl
  have playing : Cassette.IsPlaying (p.opening chat now).chat (Reel.start c typing seed) :=
    ⟨rfl, rfl, rfl⟩
  have distinctTurns : ∀ k < c.userMessages.length,
      (((Reel.start c typing seed).skip k).nextTurn.1.parts.filterMap Part.call?).Nodup := by
    intro k within
    rw [Reel.parts_skip_start]
    exact distinct k within
  have completed : course.chat.completed = c.userTurns := by
    have counted := (p.opening chat now).answeredAll_completed pacing.userMessage 0 p.texts free
    have none : (p.opening chat now).chat.completed = 0 := rfl
    rw [none, Nat.zero_add, texts, List.length_map] at counted
    exact counted
  have recorded : (Cassette.ofThread course.chat.thread).messages = c.normal.messages := by
    have all := record_answeredAll (p.opening chat now) (Reel.start c typing seed)
      pacing.userMessage 0 c.userMessages playing distinctTurns
    have before : (Cassette.ofThread (p.opening chat now).chat.thread).messages = [] :=
      Cassette.messages_of_system system hidden
    rw [before, List.nil_append, Reel.lines_start] at all
    exact all
  refine ⟨ending, called, ?_, ?_, Cassette.normal_of_isDialogue c⟩
  · rw [played]
    exact completed
  · rw [played]
    exact congrArg Cassette.mk recorded

theorem record_play_merges :
    let call : Part := .toolCall "1" "look" .null (some .null)
    let c : Cassette := ⟨[⟨.user, [.text "a"]⟩, ⟨.assistant, [.text "", call]⟩,
      ⟨.assistant, [.reasoning "b"]⟩, ⟨.user, []⟩]⟩
    let system := [Thread.Message.system "c"]
    let chat := Conversation.start (Reel.start c .standard 7) system none default .never
    let report := ((Player.start c .instant .never).onComplete 3).play chat 5 none
    (∀ m ∈ system, m.role = .system) ∧
      (∀ k < c.userTurns, ((c.served k).filterMap Part.call?).Nodup) ∧
      report.ending = .outcome .completed ∧ report.course.chat.completed = 2 ∧
      Cassette.ofThread report.course.chat.thread =
        ⟨[⟨.user, [.text "a"]⟩, ⟨.assistant, [call, .reasoning "b"]⟩]⟩ := by
  intro call c system
  have hidden : ∀ m ∈ system, m.role = .system := by decide
  have distinct : ∀ k < c.userTurns, ((c.served k).filterMap Part.call?).Nodup := by decide
  have normal : c.normal = ⟨[⟨.user, [.text "a"]⟩, ⟨.assistant, [call, .reasoning "b"]⟩]⟩ := by
    decide +kernel
  have turns : c.userTurns = 2 := rfl
  obtain ⟨ending, -, completed, recorded, -⟩ :=
    record_play_eq_normal c .instant .standard 7 3 5 system none default hidden distinct
  exact ⟨hidden, distinct, ending, completed.trans turns, recorded.trans normal⟩

end Player

end Playback
