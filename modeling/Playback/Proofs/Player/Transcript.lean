import Playback.Proofs.Cassette.Partition
import Playback.Proofs.Player.Cancellation
import Playback.Proofs.Player.Timetable

/-!
What is said and observed in a play of a whole cassette. A cassette that begins with a message of
the user is played in its own order and to its end. One that begins with the assistant falls behind
by a turn: every message is answered by what stands before it, and the last turn is not played.
-/

namespace Playback

open Cassette (Reel)
open Chat (Conversation Entry Minutes Transport)
open Playback.Stream (Script)

namespace Cassette

def spoken (first : Nat) (content : List Part) : List Entry :=
  (partsEvents first content).map .event

/-- Messages in their own order: what the user says, and the assistant's parts, numbered from
`first` by their places among all parts. -/
def transcript (first : Nat) : List Message → List Entry
  | [] => []
  | ⟨.user, content⟩ :: rest =>
    .message (Message.userText ⟨.user, content⟩) :: transcript (first + content.length) rest
  | ⟨.assistant, content⟩ :: rest =>
    spoken first content ++ transcript (first + content.length) rest

/-- The assistant's parts are held back until the user says something, and for ever if nothing more
is said. -/
def lateTranscript (first : Nat) (held : List Entry) : List Message → List Entry
  | [] => []
  | ⟨.user, content⟩ :: rest =>
    .message (Message.userText ⟨.user, content⟩) ::
      (held ++ lateTranscript (first + content.length) [] rest)
  | ⟨.assistant, content⟩ :: rest =>
    lateTranscript (first + content.length) (held ++ spoken first content) rest

theorem partsEvents_append (first : Nat) (parts more : List Part) :
    partsEvents first (parts ++ more) =
      partsEvents first parts ++ partsEvents (first + parts.length) more := by
  induction parts generalizing first with
  | nil => rfl
  | cons p rest ih =>
      rw [List.cons_append, partsEvents, partsEvents, ih, List.append_assoc, List.length_cons,
        Nat.add_right_comm, Nat.add_assoc]

theorem spoken_append (first : Nat) (parts more : List Part) :
    spoken first (parts ++ more) = spoken first parts ++ spoken (first + parts.length) more := by
  unfold spoken
  rw [partsEvents_append, List.map_append]

theorem transcript_eq (first : Nat) (messages : List Message) :
    let parts := (answers messages).flatMap (·.content)
    transcript first messages =
      spoken first parts ++ transcript (first + parts.length) (onward messages) := by
  intro parts
  induction messages generalizing first with
  | nil => rfl
  | cons m rest ih =>
      rcases m with ⟨_ | _, content⟩
      · rfl
      · have next := ih (first + content.length)
        have split : parts = content ++ (answers rest).flatMap (·.content) := rfl
        rw [transcript, next, split, spoken_append, List.append_assoc, List.length_append,
          Nat.add_assoc]
        rfl

theorem lateTranscript_eq (first : Nat) (held : List Entry) (messages : List Message) :
    let parts := (answers messages).flatMap (·.content)
    lateTranscript first held messages =
      lateTranscript (first + parts.length) (held ++ spoken first parts) (onward messages) := by
  intro parts
  induction messages generalizing first held with
  | nil => rfl
  | cons m rest ih =>
      rcases m with ⟨_ | _, content⟩
      · have none : spoken first parts = [] := rfl
        rw [none, List.append_nil]
        rfl
      · have next := ih (first + content.length) (held ++ spoken first content)
        have split : parts = content ++ (answers rest).flatMap (·.content) := rfl
        rw [lateTranscript, next, split, spoken_append, List.append_assoc, List.length_append,
          Nat.add_assoc]
        rfl

def questions (messages : List Message) : List String :=
  (messages.filter (·.role = .user)).map (·.userText)

theorem questions_onward (messages : List Message) :
    questions (onward messages) = questions messages :=
  congrArg (List.map Message.userText) (filter_user_onward messages)

namespace Reel

def place (r : Reel) : Nat :=
  r.seed + ((r.cassette.messages.take r.cursor).flatMap (·.content)).length

/-- The next turn answers with the first messages of a list, its parts numbered from `first`. -/
structure Serves (r : Reel) (first : Nat) (messages : List Message) : Prop where
  turn : r.nextTurn.1 = ⟨first, (answers messages).flatMap (·.content)⟩
  ahead : r.nextTurn.2.ahead = onward messages
  place : r.nextTurn.2.place = first + ((answers messages).flatMap (·.content)).length

theorem ahead_place_of_move (r : Reel) (messages : List Message) (ahead : r.ahead = messages) :
    let moved : Reel := { r with cursor := r.cursor + (answers messages).length }
    moved.ahead = onward messages ∧
      moved.place = r.place + ((answers messages).flatMap (·.content)).length := by
  intro moved
  have split := answers_append_onward messages
  have taken : messages.take (answers messages).length = answers messages :=
    (List.prefix_iff_eq_take.mp (List.takeWhile_prefix _)).symm
  unfold Reel.ahead at ahead
  constructor
  · change r.cassette.messages.drop (r.cursor + _) = _
    rw [← List.drop_drop, ahead]
    nth_rewrite 2 [← split]
    rw [List.drop_left]
  · change r.seed + ((r.cassette.messages.take (r.cursor + _)).flatMap (·.content)).length = _
    rw [List.take_add, ahead, taken, List.flatMap_append, List.length_append, ← Nat.add_assoc]
    rfl

theorem serves_of_user (r : Reel) (content : List Part) (rest : List Message)
    (ahead : r.ahead = ⟨.user, content⟩ :: rest) : r.Serves (r.place + content.length) rest := by
  let begun : Reel := { r with cursor := r.cursor + 1 }
  have after : begun.ahead = rest := by
    have next := congrArg List.tail ahead
    rw [Reel.ahead, List.tail_drop] at next
    exact next
  have place : begun.place = r.place + content.length := by
    have one : (r.cassette.messages.drop r.cursor).take 1 = [⟨.user, content⟩] := by
      unfold Reel.ahead at ahead
      rw [ahead]
      rfl
    change r.seed + ((r.cassette.messages.take (r.cursor + 1)).flatMap (·.content)).length = _
    rw [List.take_add, one, List.flatMap_append, List.length_append, ← Nat.add_assoc,
      List.flatMap_singleton]
    rfl
  obtain ⟨moved, movedPlace⟩ := begun.ahead_place_of_move rest after
  unfold Reel.ahead at ahead
  have turn : r.nextTurn = (⟨begun.place, (answers rest).flatMap (·.content)⟩,
      { begun with cursor := begun.cursor + (answers rest).length }) := by
    unfold nextTurn
    rw [ahead]
    rfl
  rw [← place]
  exact ⟨congrArg (·.1) turn, by rw [turn]; exact moved, by rw [turn]; exact movedPlace⟩

theorem serves_of_assistant (r : Reel) (content : List Part) (rest : List Message)
    (ahead : r.ahead = ⟨.assistant, content⟩ :: rest) : r.Serves r.place r.ahead := by
  obtain ⟨moved, movedPlace⟩ := r.ahead_place_of_move r.ahead rfl
  have turn : r.nextTurn = (⟨r.place, (answers r.ahead).flatMap (·.content)⟩,
      { r with cursor := r.cursor + (answers r.ahead).length }) := by
    rw [ahead]
    unfold Reel.ahead at ahead
    unfold nextTurn
    rw [ahead]
    rfl
  exact ⟨congrArg (·.1) turn, by rw [turn]; exact moved, by rw [turn]; exact movedPlace⟩

def dialogue (r : Reel) : List String → List Entry
  | [] => []
  | text :: rest =>
    .message text :: (spoken r.nextTurn.1.first r.nextTurn.1.parts ++ r.nextTurn.2.dialogue rest)

theorem map_timetable (r : Reel) (pause now : Nat) (texts : List String) :
    (r.timetable pause now texts).map (·.2) = r.dialogue texts := by
  induction texts generalizing r now with
  | nil => rfl
  | cons text rest ih =>
      have events : (Minutes.ofEvents (r.nextTrace .never (now + pause)).events).map (·.2) =
          spoken r.nextTurn.1.first r.nextTurn.1.parts := by
        unfold Minutes.ofEvents spoken
        rw [List.map_map, ← handed_turnScript r.pacing r.nextTurn.1,
          ← Script.map_events_of_never (now + pause) 0, List.map_map]
        rfl
      rw [timetable, List.map_append, List.map_cons, events, ih, dialogue, List.cons_append]

/-- Messages of which the user's is the first are played in their own order, up to their end. -/
theorem dialogue_of_ahead (r : Reel) (messages : List Message) (ahead : r.ahead = messages)
    (begins : messages = [] ∨ ∃ content rest, messages = ⟨.user, content⟩ :: rest) :
    r.dialogue (questions messages) = transcript r.place messages ∧
      (r.skip (questions messages).length).ahead = [] := by
  induction texts : questions messages generalizing r messages with
  | nil =>
      rcases begins with rfl | ⟨content, rest, rfl⟩
      · exact ⟨rfl, ahead⟩
      · cases texts
  | cons text later ih =>
      rcases begins with rfl | ⟨content, rest, rfl⟩
      · cases texts
      · obtain ⟨rfl, remaining⟩ := List.cons.inj texts
        have serves := r.serves_of_user content rest ahead
        obtain ⟨played, ended⟩ := ih r.nextTurn.2 (onward rest) serves.ahead
          (onward_eq_nil_or_user rest) ((questions_onward rest).trans remaining)
        refine ⟨?_, ended⟩
        rw [dialogue, played, serves.turn, serves.place, transcript,
          transcript_eq (r.place + content.length) rest]

/-- Messages of which the next turn serves the answers are played a turn late. -/
theorem dialogue_of_serves (r : Reel) (first : Nat) (messages : List Message)
    (serves : r.Serves first messages) (more : r.ahead ≠ []) :
    r.dialogue (questions messages) = lateTranscript first [] messages ∧
      (r.skip (questions messages).length).ahead ≠ [] := by
  induction texts : questions messages generalizing r first messages with
  | nil =>
      refine ⟨?_, more⟩
      rcases onward_eq_nil_or_user messages with none | ⟨content, rest, some⟩
      · rw [lateTranscript_eq, none]
        rfl
      · rw [← questions_onward, some] at texts
        cases texts
  | cons text later ih =>
      rw [← questions_onward] at texts
      rcases onward_eq_nil_or_user messages with none | ⟨content, rest, some⟩
      · rw [none] at texts
        cases texts
      · -- the message is not the reel's next one, but the one behind the turn that is served
        rw [some] at texts
        obtain ⟨rfl, remaining⟩ := List.cons.inj texts
        have ahead := serves.ahead.trans some
        have next := r.nextTurn.2.serves_of_user content rest ahead
        have left : r.nextTurn.2.ahead ≠ [] := by
          rw [ahead]
          exact List.cons_ne_nil _ _
        obtain ⟨played, ended⟩ := ih r.nextTurn.2 _ rest next left remaining
        refine ⟨?_, ended⟩
        rw [dialogue, played, serves.turn, serves.place, lateTranscript_eq first [] messages, some]
        rfl

end Reel

end Cassette

namespace Player

theorem answeredAll_transport (c : Course (Conversation Reel)) (pause turn : Nat)
    (texts : List String) (free : c.IsOpen) :
    (c.answeredAll pause turn texts).chat.transport = c.chat.transport.skip texts.length := by
  induction texts generalizing c turn with
  | nil => rfl
  | cons text rest ih =>
      have one : (c.answered turn (c.now + pause) text).chat.transport =
          c.chat.transport.nextTurn.2 :=
        c.chat.answer_transport (c.now + pause) text free.idle
      rw [Course.answeredAll, ih _ _ (c.isOpen_answered turn (c.now + pause) text free), one]
      rfl

/-- A play that nothing cancels is completed. If the cassette is empty or begins with the user, the
play says and shows all of it in its own order and nothing else, and the reel is exhausted. If it
begins with the assistant, every message is answered by what stands before it in the cassette, and
the reel is not exhausted. -/
theorem play_transcript (p : Player) (pacing : Pacing) (seed now : Nat)
    (thread : List Thread.Message) (store : Option Agents.Store) (origin : Instant)
    (fresh : p.isStarted = false) (token : p.token = .never) :
    let messages := p.cassette.messages
    let chat := Conversation.start (Reel.start p.cassette pacing seed) thread store origin .never
    let report := p.play chat now none
    let minutes := p.minutes chat now
    report.ending = .outcome .completed ∧ report.course.chat.log = Minutes.events minutes ∧
      ((∀ m ∈ messages.head?, m.role = .user) →
        report.course.chat.transport.isExhausted = true ∧
          minutes.map (·.2) = Cassette.transcript seed messages) ∧
      ((∃ m ∈ messages.head?, m.role = .assistant) →
        report.course.chat.transport.isExhausted = false ∧
          minutes.map (·.2) = Cassette.lateTranscript seed [] messages) := by
  intro messages chat report minutes
  let r := Reel.start p.cassette pacing seed
  have turns := p.turns_of_never chat now rfl token
  have ending : report.ending = .outcome .completed := by
    rw [p.play_ending chat now fresh, turns]
  have log : report.course.chat.log = Minutes.events minutes :=
    p.log_eq_events_minutes chat now fresh rfl token.symm
  have said : minutes.map (·.2) = r.dialogue (Cassette.questions messages) := by
    have kept := p.minutes_eq_keep_timetable chat now fresh rfl token.symm
    rw [token, Token.keep_never] at kept
    rw [← r.map_timetable p.pacing.userMessage now]
    exact congrArg (List.map (·.2)) kept
  have transport : report.course.chat.transport =
      r.skip (Cassette.questions messages).length := by
    rw [p.play_course chat now fresh, turns]
    exact answeredAll_transport _ _ 0 p.texts (p.isOpen_opening chat now rfl)
  rw [said, transport]
  refine ⟨ending, log, ?_, ?_⟩
  · intro begins
    have ahead : messages = [] ∨ ∃ content rest, messages = ⟨.user, content⟩ :: rest := by
      rcases messages with _ | ⟨⟨role, content⟩, rest⟩
      · exact .inl rfl
      · obtain rfl : role = .user := begins _ rfl
        exact .inr ⟨content, rest, rfl⟩
    obtain ⟨played, ended⟩ := r.dialogue_of_ahead messages rfl ahead
    exact ⟨(Reel.isExhausted_iff _).mpr ended, played⟩
  · rintro ⟨⟨role, content⟩, head, rfl⟩
    obtain ⟨rest, ahead⟩ := List.head?_eq_some_iff.mp head
    have serves := r.serves_of_assistant content rest ahead
    have some : r.ahead ≠ [] := by
      rw [show r.ahead = _ from ahead]
      exact List.cons_ne_nil _ _
    obtain ⟨played, left⟩ := r.dialogue_of_serves r.place messages serves some
    refine ⟨?_, played⟩
    rw [← Bool.not_eq_true, Reel.isExhausted_iff]
    exact left

section Sample

def greeting : Cassette :=
  ⟨[⟨.assistant, [.text "a"]⟩, ⟨.user, [.text "b"]⟩, ⟨.assistant, [.text "c"]⟩]⟩

theorem play_transcript_sample_greeting :
    let p (c : Cassette) := Player.start c .standard .never
    let chat (c : Cassette) :=
      Conversation.start (Reel.start c .instant 0) [] none default .never
    ((p sample).minutes (chat sample) 0).map (·.2) = Cassette.transcript 0 sample.messages ∧
      ((p greeting).minutes (chat greeting) 0).map (·.2) =
        [.message "b", .event (.textStart (Uuid.ofNat 0)),
          .event (.textDelta (Uuid.ofNat 0) "a"), .event (.textEnd (Uuid.ofNat 0))] := by
  intro p chat
  obtain ⟨-, -, whole, -⟩ := play_transcript (p sample) .instant 0 0 [] none default rfl rfl
  obtain ⟨-, -, -, late⟩ := play_transcript (p greeting) .instant 0 0 [] none default rfl rfl
  have begins : ∀ m ∈ sample.messages.head?, m.role = .user := by decide
  have greets : ∃ m ∈ greeting.messages.head?, m.role = .assistant := ⟨_, rfl, rfl⟩
  have transcript : Cassette.lateTranscript 0 [] greeting.messages =
      [.message "b", .event (.textStart (Uuid.ofNat 0)),
        .event (.textDelta (Uuid.ofNat 0) "a"), .event (.textEnd (Uuid.ofNat 0))] := by
    decide +kernel
  rw [← transcript]
  exact ⟨(whole begins).2, (late greets).2⟩

theorem play_not_always_exhausted :
    ¬ ∀ (c : Cassette) (pacing : Pacing) (seed : Nat),
      let p := Player.start c pacing .never
      let chat := Conversation.start (Reel.start c pacing seed) [] none default .never
      let report := p.play chat 0 none
      report.ending = .outcome .completed →
        report.course.chat.transport.isExhausted = true ∧
          (p.minutes chat 0).map (·.2) = Cassette.transcript seed c.messages := by
  intro always
  have first := always greeting .instant 0
  revert first
  decide +kernel

end Sample

end Player

end Playback
