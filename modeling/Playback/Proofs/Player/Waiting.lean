import Playback.Proofs.Chat.Turns
import Playback.Proofs.Player.Minutes

/-!
How a chat that takes turns is found by the messages that are played to it: no run is going on, and
one has finished for every message before. However little a player learns of the runs, it sends no
message too early, and waits for none in vain.
-/

namespace Playback.Player

open Chat (Attended Conversation Stage TakesTurns Transport Waiting Watch)

namespace Course

variable {σ : Type}

/-- Every message found the chat idle, with so many runs finished and one for each message before,
and with nothing still to come. -/
def FindsIdle (c : Course (Attended σ)) (baseline : Nat) : Prop :=
  c.chat.found = (List.range c.sent.length).map fun i => (Stage.before.status (baseline + i), [])

variable [Chat σ]

/-- The runs of all messages are over, and the chat is free for the next. -/
structure IsFree (c : Course (Attended σ)) (free : σ → Prop) (baseline : Nat) : Prop where
  finds : c.FindsIdle baseline
  free : free c.chat.chat
  status : Chat.status c.chat.chat = Stage.before.status (baseline + c.sent.length)

/-- What comes of a step of the player. -/
structure LeadsTo (c : Course (Attended σ)) (free : σ → Prop) (baseline : Nat)
    (next : Course (Attended σ) × Option Ending) : Prop where
  finds : next.1.FindsIdle baseline
  deadline : next.1.deadline = c.deadline
  goesOn : next.2 = none → next.1.IsFree free baseline
  endless : c.deadline = none → next.2 = none ∨ next.2 = some (.outcome .cancelled)

theorem LeadsTo.of_deadline {c d : Course (Attended σ)} {free : σ → Prop} {baseline : Nat}
    {next : Course (Attended σ) × Option Ending} (leads : d.LeadsTo free baseline next)
    (same : d.deadline = c.deadline) : c.LeadsTo free baseline next where
  finds := leads.finds
  deadline := leads.deadline.trans same
  goesOn := leads.goesOn
  endless endless := leads.endless (same.trans endless)

theorem leadsTo_ended (c d : Course (Attended σ)) (free : σ → Prop) (baseline : Nat)
    (ending : Ending) (finds : d.FindsIdle baseline) (same : d.deadline = c.deadline)
    (allowed : c.deadline = none → ending = .outcome .cancelled) :
    c.LeadsTo free baseline (d, some ending) := by
  refine ⟨finds, same, ?_, ?_⟩
  · intro goesOn
    cases goesOn
  · intro endless
    exact .inr (congrArg some (allowed endless))

theorem leadsTo_giveUp (c d : Course (Attended σ)) (free : σ → Prop) (baseline : Nat)
    (finds : d.FindsIdle baseline) (same : d.deadline = c.deadline) (limited : c.deadline ≠ none) :
    c.LeadsTo free baseline d.giveUp := by
  obtain ⟨last, deadline⟩ := Option.ne_none_iff_exists'.mp limited
  have given : d.giveUp = (d.restUntil last, some .stuck) := by
    unfold giveUp
    rw [same, deadline]
  rw [given]
  exact c.leadsTo_ended _ free baseline .stuck finds same fun endless => absurd endless limited

def asked (c : Course (Attended σ)) (text : String) : Course (Attended σ) :=
  { c with
    chat := (Chat.append c.chat c.now text).1
    sent := c.sent ++ [(c.now, text)] }

theorem send_of_accepted (c : Course (Attended σ)) (text : String)
    (accepted : (Chat.append c.chat c.now text).2 = true) :
    send c text =
      match Waiting.along (Chat.status c.chat.chat).completed .forStart c.now
        (Chat.status (c.asked text).chat)
        ((Chat.changes (c.asked text).chat).takeWhile fun change => c.learns change.1) with
      | some finish => ((c.asked text).elapse finish, none)
      | none =>
        if Chat.isClosed (c.asked text).chat then (c.asked text, some (.failure .closed))
        else (c.asked text).giveUp := by
  have appended : Chat.append c.chat c.now text = ((c.asked text).chat, true) :=
    Prod.ext rfl accepted
  unfold send
  rw [appended]
  rfl

section Free

variable {free : σ → Prop} {baseline : Nat} (c : Course (Attended σ))
  (isFree : c.IsFree free baseline)

include isFree

theorem isFree_tell (n : Notice) : (c.tell n).IsFree free baseline :=
  ⟨isFree.finds, isFree.free, isFree.status⟩

variable (turns : TakesTurns free)

include turns

theorem isFree_restUntil (now : Nat) : (c.restUntil now).IsFree free baseline where
  finds := isFree.finds
  free := turns.elapse_free c.chat.chat (now - 1) isFree.free
  status := (turns.elapse_status c.chat.chat (now - 1) isFree.free).trans isFree.status

theorem findsIdle_asked (text : String) : (c.asked text).FindsIdle baseline := by
  have idle : (Chat.status c.chat.chat, Chat.changes c.chat.chat) =
      (Stage.before.status (baseline + c.sent.length), []) := by
    rw [isFree.status, turns.still c.chat.chat isFree.free]
  change c.chat.found ++ [(Chat.status c.chat.chat, Chat.changes c.chat.chat)] =
    (List.range (c.sent ++ [(c.now, text)]).length).map _
  rw [idle, isFree.finds, List.length_append, List.length_singleton, List.range_succ,
    List.map_append]
  rfl

theorem leadsTo_send (text : String) : c.LeadsTo free baseline (send c text) := by
  have finds := c.findsIdle_asked isFree turns text
  obtain ⟨stage, told, finish, status, changes, ordered, finished, freed, counted⟩ :=
    turns.runsOnce c.chat.chat c.now text isFree.free
  have accepted : (Chat.append c.chat c.now text).2 = true :=
    turns.accepts c.chat.chat c.now text isFree.free
  change Chat.status (c.asked text).chat = _ at status
  change Chat.changes (c.asked text).chat = _ at changes
  rw [c.send_of_accepted text accepted, status, changes,
    Waiting.along_of_told_while _ c.learns c.now stage told ordered]
  let heard := told.takeWhile fun e => c.learns e.1
  cases ended : Stage.end? ((c.now, stage) :: heard) with
  | some last =>
      -- What is heard is a beginning of what is told, so the end heard is that of the run.
      have begins : (c.now, stage) :: heard <+: (c.now, stage) :: told :=
        (List.prefix_cons_inj _).mpr (List.takeWhile_prefix _)
      have same := Stage.end?_of_prefix _ _ last begins ended
      obtain rfl : last = finish := Option.some.inj (same.symm.trans finished)
      have more : ((c.asked text).elapse last).sent.length = c.sent.length + 1 :=
        List.length_append
      have finished : Chat.status ((c.asked text).elapse last).chat.chat =
          Stage.before.status (baseline + ((c.asked text).elapse last).sent.length) := by
        rw [more]
        rw [isFree.status] at counted
        exact counted
      exact ⟨finds, rfl, fun _ => ⟨finds, freed, finished⟩, fun _ => .inl rfl⟩
  | none =>
      -- Only a deadline keeps the player from hearing of the end.
      have limited : c.deadline ≠ none := by
        intro endless
        have all : heard = told := takeWhile_learns c endless told
        rw [all, finished] at ended
        cases ended
      dsimp only
      split
      · exact c.leadsTo_ended _ free baseline _ finds rfl fun endless => absurd endless limited
      · exact leadsTo_giveUp c (c.asked text) free baseline finds rfl limited

end Free

end Course

section Play

variable {σ : Type} [Chat σ] {free : σ → Prop} (turns : TakesTurns free) {baseline : Nat}
  (p : Player)

include turns

theorem leadsTo_playTurn (c : Course (Attended σ)) (isFree : c.IsFree free baseline) (turn : Nat)
    (text : String) : c.LeadsTo free baseline (p.playTurn c turn text) := by
  have limited (time : Nat) (late : c.learns time = false ∨ c.reaches time = false) :
      c.deadline ≠ none := by
    intro endless
    simp [Course.learns, Course.reaches, endless] at late
  unfold playTurn
  split
  · exact c.leadsTo_ended _ free baseline _ isFree.finds rfl fun _ => rfl
  · cases p.token.pause c.now p.pacing.userMessage with
    | error cut =>
        dsimp only
        split
        · exact c.leadsTo_ended _ free baseline _ isFree.finds rfl fun _ => rfl
        · rename_i late
          exact c.leadsTo_giveUp c free baseline isFree.finds rfl
            (limited cut (.inl (Bool.eq_false_iff.mpr late)))
    | ok later =>
        dsimp only
        split
        · obtain ⟨rested, hrested⟩ : ∃ rested, rested =
              if p.pacing.userMessage = 0 then c else c.restUntil later := ⟨_, rfl⟩
          have still : rested.IsFree free baseline ∧ rested.deadline = c.deadline := by
            rw [hrested]
            split
            · exact ⟨isFree, rfl⟩
            · exact ⟨c.isFree_restUntil isFree turns later, rfl⟩
          rw [← hrested]
          exact ((rested.tell (.message turn)).leadsTo_send (rested.isFree_tell still.1 _) turns
            text).of_deadline still.2
        · rename_i late
          exact c.leadsTo_giveUp c free baseline isFree.finds rfl
            (limited later (.inr (Bool.eq_false_iff.mpr late)))

theorem findsIdle_playTurns (c : Course (Attended σ)) (isFree : c.IsFree free baseline)
    (turn : Nat) (texts : List String) :
    (p.playTurns c turn texts).1.FindsIdle baseline ∧
      (c.deadline = none → (p.playTurns c turn texts).2 = .outcome .completed ∨
        (p.playTurns c turn texts).2 = .outcome .cancelled) := by
  induction texts generalizing c turn with
  | nil => exact ⟨isFree.finds, fun _ => .inl rfl⟩
  | cons text rest ih =>
      have leads := leadsTo_playTurn turns p c isFree turn text
      rw [playTurns]
      generalize p.playTurn c turn text = played at leads ⊢
      rcases played with ⟨next, _ | ending⟩
      · have after := ih next (leads.goesOn rfl) (turn + 1)
        refine ⟨after.1, ?_⟩
        intro endless
        exact after.2 (leads.deadline.trans endless)
      · refine ⟨leads.finds, ?_⟩
        intro endless
        rcases leads.endless endless with goesOn | cancelled
        · cases goesOn
        · exact .inr (Option.some.inj cancelled)

theorem findsIdle_play (chat : σ) (now : Nat) (deadline : Option Nat) (isFree : free chat) :
    (p.play (Attended.start chat) now deadline).course.FindsIdle (Chat.status chat).completed ∧
      (p.isStarted = false → deadline = none →
        (p.play (Attended.start chat) now deadline).ending = .outcome .completed ∨
          (p.play (Attended.start chat) now deadline).ending = .outcome .cancelled) := by
  let course : Course (Attended σ) := ⟨Attended.start chat, now, deadline, [], []⟩
  have opening : course.IsFree free (Chat.status chat).completed :=
    ⟨rfl, isFree, congrArg (Chat.Status.mk · _) (turns.idle chat isFree)⟩
  unfold play
  cases started : p.isStarted with
  | true => exact ⟨rfl, nofun⟩
  | false =>
      have played := findsIdle_playTurns turns { p with isStarted := true }
        (course.tell (.starting p.cassette.userTurns)) (course.isFree_tell opening _) 0
        (p.cassette.userMessages.map (·.userText))
      rw [if_neg Bool.false_ne_true]
      dsimp only
      split <;> exact ⟨played.1, fun _ endless => played.2 endless⟩

end Play

/-- However the looks of a waiting player fall between the changes of a run, the wait is over at a
look at the idle status with one more run finished, and at no other; there it cannot be stuck. So
whatever a chat, such as a conversation, tells of its runs, each message that is played to it finds
it idle, with the runs of all messages before finished. -/
theorem messages_find_chat_idle :
    (∀ (baseline : Nat) (w : Watch), Watch.Reaches baseline .start w →
        (∀ later, Watch.Step baseline w later → w.waiting ≠ .ended → later.waiting = .ended →
          later = w.look baseline ∧ w.stage.status baseline = ⟨false, baseline + 1⟩) ∧
        (w.stage = .after → w.waiting ≠ .ended → Watch.Step baseline w (w.look baseline) ∧
          (w.look baseline).waiting = w.waiting.next) ∧
        ((∀ later, ¬ Watch.Step baseline w later) → w.waiting = .ended)) ∧
      (∀ baseline, WellFounded fun later earlier => Watch.Step baseline earlier later) ∧
      (∀ baseline (w : Waiting), w.isMet baseline ⟨false, baseline + 1⟩ = true) ∧
      (∀ baseline s (w : Waiting), w.observe baseline s = (w.look baseline s).look baseline s) ∧
      (∀ baseline now stage (told : List (Nat × Stage)), Stage.IsTold (stage :: told.map (·.2)) →
        Waiting.along baseline .forStart now (stage.status baseline)
            (told.map fun (time, stage) => (time, stage.status baseline)) =
          Stage.end? ((now, stage) :: told)) ∧
      (∀ (τ : Type) [Transport τ], TakesTurns fun c : Conversation τ => c.run = none) ∧
      ∀ (σ : Type) [Chat σ] (free : σ → Prop), TakesTurns free →
        ∀ (p : Player) (chat : σ) (now : Nat) (deadline : Option Nat), free chat →
          let report := p.play (Attended.start chat) now deadline
          report.view Attended.chat = p.play chat now deadline ∧
            (report.course.chat.found = (List.range report.course.sent.length).map fun i =>
              (⟨false, (Chat.status chat).completed + i⟩, [])) ∧
            (p.isStarted = false → deadline = none →
              report.ending = .outcome .completed ∨ report.ending = .outcome .cancelled) := by
  refine ⟨?_, fun _ => Watch.wellFounded_step, Waiting.isMet_after, Waiting.observe_eq_look, ?_,
    fun _ _ => Conversation.takesTurns, ?_⟩
  · intro baseline w reaches
    have sound := (Watch.isSound_start baseline).reaches reaches
    refine ⟨?_, sound.looks_after, sound.ended_of_stuck⟩
    intro later step waits finished
    obtain ⟨looked, last⟩ := sound.sees_end step waits finished
    rw [last]
    exact ⟨looked, rfl⟩
  · intro baseline now stage told ordered
    exact Waiting.along_of_told baseline .forStart now stage told nofun nofun ordered
  · intro σ _ free turns p chat now deadline isFree report
    obtain ⟨finds, ends⟩ := findsIdle_play turns p chat now deadline isFree
    exact ⟨(play_view Attended.chat Attended.isView_chat p (.start chat) now deadline).symm, finds,
      ends⟩

theorem messages_find_chat_idle_rehearsed :
    let unseen : Watch := ⟨.after, .forStart, none⟩
    let seen : Watch := ⟨.after, .forEnd, some .during⟩
    let said (text : String) : Cassette.Message := ⟨.user, [.text text]⟩
    let p := Player.start ⟨[said "a", said "b", said "c"]⟩ .instant .never
    let chat := Chat.Rehearsal.start 4 false [.later 5 10, .count, .instant]
    let report := p.play (Attended.start chat) 0 none
    Watch.Step 4 unseen ⟨.after, .forEnd, none⟩ ∧
      (seen.look 4).waiting = .ended ∧ seen.stage.status 4 = ⟨false, 5⟩ ∧
      chat.IsFree ∧ report.course.sent = [(0, "a"), (15, "b"), (15, "c")] ∧
      report.course.chat.found = [(⟨false, 4⟩, []), (⟨false, 5⟩, []), (⟨false, 6⟩, [])] := by
  intro unseen seen said p chat report
  obtain ⟨watches, -, -, -, -, -, plays⟩ := messages_find_chat_idle
  have run : Watch.Reaches 4 .start unseen :=
    .head (.publish .start .during rfl) (.single (.publish _ .after rfl))
  have watched : Watch.Reaches 4 .start seen :=
    .head (.publish .start .during rfl) (.head (.look _ nofun nofun) (.head (.look _ nofun nofun)
      (.single (.publish _ .after rfl))))
  obtain ⟨-, goesOn, -⟩ := watches 4 unseen run
  obtain ⟨ends, -, -⟩ := watches 4 seen watched
  have looked := ends (seen.look 4) (.look seen nofun nofun) nofun rfl
  have isFree : chat.IsFree := ⟨rfl, rfl, rfl, by decide⟩
  obtain ⟨-, found, -⟩ := plays _ _ Chat.Rehearsal.takesTurns p chat 0 none isFree
  have sent : report.course.sent = [(0, "a"), (15, "b"), (15, "c")] := by decide +kernel
  refine ⟨(goesOn rfl nofun).1, rfl, looked.2, isFree, sent, ?_⟩
  rw [found, sent]
  rfl

end Playback.Player
