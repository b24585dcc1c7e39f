import Playback.Proofs.Cassette.Interruption

namespace Playback

namespace Stream.Event

def isDelta : Event → Bool
  | .textDelta .. | .reasoningDelta .. => true
  | _ => false

def isOutput : Event → Bool
  | .toolOutput .. => true
  | _ => false

end Stream.Event

open Playback.Stream (Event Script)

namespace Pacing

variable (pacing : Pacing)

def spent (events : List Event) : Nat :=
  pacing.typing * events.countP Event.isDelta + pacing.toolResult * events.countP Event.isOutput

def schedule (now : Nat) : List Event → List (Nat × Event)
  | [] => []
  | e :: rest =>
    let due := if e.isOutput then now + pacing.toolResult else now
    (due, e) :: schedule (if e.isDelta then due + pacing.typing else due) rest

theorem spent_append (events more : List Event) :
    pacing.spent (events ++ more) = pacing.spent events + pacing.spent more := by
  unfold spent
  rw [List.countP_append, List.countP_append, Nat.mul_add, Nat.mul_add]
  omega

theorem spent_cons (e : Event) (rest : List Event) :
    pacing.spent (e :: rest) =
      (if e.isOutput then pacing.toolResult else 0) + (if e.isDelta then pacing.typing else 0) +
        pacing.spent rest := by
  unfold spent
  rw [List.countP_cons, List.countP_cons, Nat.mul_add, Nat.mul_add]
  split <;> split <;> omega

theorem schedule_append (now : Nat) (events more : List Event) :
    pacing.schedule now (events ++ more) =
      pacing.schedule now events ++ pacing.schedule (now + pacing.spent events) more := by
  induction events generalizing now with
  | nil => rfl
  | cons e rest ih =>
      have later : (if e.isDelta then
            (if e.isOutput then now + pacing.toolResult else now) + pacing.typing
          else if e.isOutput then now + pacing.toolResult else now) + pacing.spent rest =
          now + pacing.spent (e :: rest) := by
        rw [spent_cons]
        split <;> split <;> omega
      rw [List.cons_append, schedule, schedule, ih, later]
      rfl

/-- An event is due when all before it have taken their time, and its own pause is over if it is an
output. -/
theorem time_of_schedule (now : Nat) (events : List Event) (i time : Nat) (e : Event)
    (found : (pacing.schedule now events)[i]? = some (time, e)) :
    time = now + pacing.typing * (events.take i).countP Event.isDelta +
      pacing.toolResult * (events.take (i + 1)).countP Event.isOutput := by
  induction events generalizing now i with
  | nil => cases found
  | cons first rest ih =>
      cases i with
      | zero =>
          obtain ⟨rfl, rfl⟩ := Prod.mk.inj (Option.some.inj found)
          rw [List.take_succ_cons, List.countP_cons, List.take_zero, List.take_zero,
            List.countP_nil, List.countP_nil, Nat.mul_add]
          split <;> omega
      | succ i =>
          have later := ih _ i found
          rw [later, List.take_succ_cons, List.take_succ_cons, List.countP_cons, List.countP_cons,
            Nat.mul_add, Nat.mul_add]
          split <;> split <;> omega

end Pacing

namespace Stream.Script

theorem play_append_of_never (first second : Script) (now sent : Nat) (paced : first.IsPaced) :
    let begun := first.play (.ofToken .never) now sent
    let rest := second.play (.ofToken .never) begun.finish (sent + begun.events.length)
    let whole := Script.play (.ofToken .never) now sent (first ++ second)
    whole.events = begun.events ++ rest.events ∧ whole.finish = rest.finish := by
  induction first generalizing now sent with
  | nil => exact ⟨rfl, rfl⟩
  | cons step first ih =>
      have firstPaced := isPaced_of_cons step first paced
      rcases paced step List.mem_cons_self with ⟨e, rfl⟩ | ⟨ms, rfl⟩
      · obtain ⟨events, finish⟩ := ih now (sent + 1) firstPaced
        have count : sent + 1 + (play (.ofToken .never) now (sent + 1) first).events.length =
            sent + ((play (.ofToken .never) now (sent + 1) first).events.length + 1) := by omega
        rw [count] at events finish
        exact ⟨congrArg ((now, e) :: ·) events, finish⟩
      · exact ih (now + ms) sent firstPaced

/-- A script that nothing limits hands over certain events, each when it is due. -/
structure Keeps (script : Script) (pacing : Pacing) (events : List Event) : Prop where
  paced : script.IsPaced
  times (now sent : Nat) :
    (script.play (.ofToken .never) now sent).events = pacing.schedule now events
  finish (now sent : Nat) :
    (script.play (.ofToken .never) now sent).finish = now + pacing.spent events

namespace Keeps

variable (pacing : Pacing)

theorem nil : Keeps [] pacing [] where
  paced := fun _ => nofun
  times := fun _ _ => rfl
  finish := fun _ _ => rfl

theorem append (first second : Script) (events more : List Event)
    (keeps : first.Keeps pacing events) (also : second.Keeps pacing more) :
    Keeps (first ++ second) pacing (events ++ more) where
  paced := isPaced_append first second keeps.paced also.paced
  times := by
    intro now sent
    obtain ⟨whole, -⟩ := play_append_of_never first second now sent keeps.paced
    rw [whole, keeps.times, also.times, keeps.finish, pacing.schedule_append]
  finish := by
    intro now sent
    obtain ⟨-, whole⟩ := play_append_of_never first second now sent keeps.paced
    rw [whole, also.finish, keeps.finish, pacing.spent_append, Nat.add_assoc]

theorem mark (e : Event) (noDelta : e.isDelta = false) (noOutput : e.isOutput = false) :
    Keeps [.emit e] pacing [e] where
  paced := by
    intro step member
    exact .inl ⟨e, List.mem_singleton.mp member⟩
  times := by
    intro now sent
    rw [play_emit_of_never, Pacing.schedule, noDelta, noOutput]
    rfl
  finish := by
    intro now sent
    rw [play_emit_of_never, pacing.spent_cons, noDelta, noOutput]
    rfl

theorem delta (e : Event) (isDelta : e.isDelta = true) (noOutput : e.isOutput = false) :
    Keeps [.emit e, .pause pacing.typing] pacing [e] where
  paced := by
    intro step member
    simp only [List.mem_cons, List.not_mem_nil, or_false] at member
    rcases member with rfl | rfl
    · exact .inl ⟨e, rfl⟩
    · exact .inr ⟨pacing.typing, rfl⟩
  times := by
    intro now sent
    rw [play_emit_of_never, Pacing.schedule, noOutput]
    rfl
  finish := by
    intro now sent
    rw [play_emit_of_never, pacing.spent_cons, isDelta, noOutput]
    change now + pacing.typing = now + (0 + pacing.typing + pacing.spent [])
    rw [Nat.zero_add]
    rfl

theorem output (e : Event) (noDelta : e.isDelta = false) (isOutput : e.isOutput = true) :
    Keeps [.pause pacing.toolResult, .emit e] pacing [e] where
  paced := by
    intro step member
    simp only [List.mem_cons, List.not_mem_nil, or_false] at member
    rcases member with rfl | rfl
    · exact .inr ⟨pacing.toolResult, rfl⟩
    · exact .inl ⟨e, rfl⟩
  times := by
    intro now sent
    rw [play_pause_of_never, play_emit_of_never, Pacing.schedule, isOutput]
    rfl
  finish := by
    intro now sent
    rw [play_pause_of_never, play_emit_of_never, pacing.spent_cons, noDelta, isOutput]
    rfl

end Keeps

end Stream.Script

namespace Cassette

variable (pacing : Pacing)

theorem keeps_typedScript (start : Event) (delta : String → Event) (stop : Event) (text : String)
    (marks : ∀ e, e = start ∨ e = stop → e.isDelta = false ∧ e.isOutput = false)
    (deltas : ∀ c, (delta c).isDelta = true ∧ (delta c).isOutput = false) :
    (typedScript pacing start delta stop text).Keeps pacing
      (start :: (text.toList.map fun c => delta (String.singleton c)) ++ [stop]) := by
  have typed (chars : List Char) : Script.Keeps
      (chars.flatMap fun c => [.emit (delta (String.singleton c)), .pause pacing.typing]) pacing
      (chars.map fun c => delta (String.singleton c)) := by
    induction chars with
    | nil => exact .nil pacing
    | cons c rest ih =>
        have one := deltas (String.singleton c)
        exact .append pacing _ _ _ _ (.delta pacing _ one.1 one.2) ih
  have first := marks start (.inl rfl)
  have last := marks stop (.inr rfl)
  have begun := Script.Keeps.append pacing _ _ _ _ (.mark pacing start first.1 first.2)
    (typed text.toList)
  exact .append pacing _ _ _ _ begun (.mark pacing stop last.1 last.2)

theorem keeps_partScript (id : String) (p : Part) :
    (p.script pacing id).Keeps pacing (p.events id) := by
  cases p with
  | text t | reasoning t =>
      apply keeps_typedScript
      · rintro e (rfl | rfl) <;> exact ⟨rfl, rfl⟩
      · exact fun c => ⟨rfl, rfl⟩
  | toolCall call tool args result =>
      have input := Script.Keeps.mark pacing (.toolInput call tool args) rfl rfl
      cases result with
      | none => exact input
      | some output =>
          exact .append pacing _ _ _ _ input (.output pacing (.toolOutput call output) rfl rfl)

theorem keeps_partsScript (first : Nat) (parts : List Part) :
    (partsScript pacing first parts).Keeps pacing (partsEvents first parts) := by
  induction parts generalizing first with
  | nil => exact .nil pacing
  | cons p rest ih =>
      exact .append pacing _ _ _ _ (keeps_partScript pacing (Uuid.ofNat first) p) (ih (first + 1))

namespace Part

def typed : Part → List Char
  | .text t | .reasoning t => t.toList
  | .toolCall .. => []

def isAnswered : Part → Bool
  | .toolCall _ _ _ (some _) => true
  | _ => false

theorem countP_isDelta (id : String) (p : Part) :
    (p.events id).countP Event.isDelta = p.typed.length := by
  cases p with
  | toolCall call tool args result => cases result <;> rfl
  | _ => simp [events, typed, Event.isDelta, Function.comp_def]

theorem countP_isOutput (id : String) (p : Part) :
    (p.events id).countP Event.isOutput = if p.isAnswered then 1 else 0 := by
  cases p with
  | toolCall call tool args result => cases result <;> rfl
  | _ => simp [events, isAnswered, Event.isOutput]

end Part

theorem spent_partsEvents (first : Nat) (parts : List Part) :
    pacing.spent (partsEvents first parts) =
      pacing.typing * (parts.flatMap Part.typed).length +
        pacing.toolResult * parts.countP Part.isAnswered := by
  induction parts generalizing first with
  | nil => rfl
  | cons p rest ih =>
      rw [partsEvents, pacing.spent_append, ih, Pacing.spent, p.countP_isDelta, p.countP_isOutput,
        List.flatMap_cons, List.length_append, List.countP_cons, Nat.mul_add, Nat.mul_add]
      omega

/-- Each event of a turn that nothing interrupts is due after the pause at the start, a pause for
every character handed over before it, and one for every output up to it; the whole takes as long as
all of these, and what is handed over is the same at any pace. -/
theorem turn_keeps_pace (t : Turn) (now : Nat) (filled : t.isEmpty = false) :
    let trace := (t.script pacing).play (.ofToken .never) now 0
    let events := trace.events.map (·.2)
    trace.outcome = .completed ∧ events = partsEvents t.first t.parts ∧
      (∀ i time e, trace.events[i]? = some (time, e) →
        time = now + pacing.assistantStart + pacing.typing * (events.take i).countP Event.isDelta +
          pacing.toolResult * (events.take (i + 1)).countP Event.isOutput) ∧
      trace.finish = now + pacing.assistantStart +
        pacing.typing * (t.parts.flatMap Part.typed).length +
        pacing.toolResult * t.parts.countP Part.isAnswered ∧
      ∀ (other : Pacing) (later : Nat),
        ((t.script other).play (.ofToken .never) later 0).events.map (·.2) = events := by
  intro trace events
  have keeps := keeps_partsScript pacing t.first t.parts
  have script : t.script pacing =
      .pause pacing.assistantStart :: partsScript pacing t.first t.parts := by
    rw [Turn.script, filled, if_neg Bool.false_ne_true]
  have times : trace.events =
      pacing.schedule (now + pacing.assistantStart) (partsEvents t.first t.parts) := by
    change ((t.script pacing).play (.ofToken .never) now 0).events = _
    rw [script]
    exact keeps.times (now + pacing.assistantStart) 0
  have all : events = partsEvents t.first t.parts := map_events_turn pacing t now
  refine ⟨?_, all, ?_, ?_, ?_⟩
  · exact (outcome_turn_eq_completed_iff pacing t _ now).mpr rfl
  · intro i time e found
    rw [times] at found
    rw [all]
    exact pacing.time_of_schedule _ _ i time e found
  · calc
      trace.finish = now + pacing.assistantStart +
          pacing.spent (partsEvents t.first t.parts) := by
        change ((t.script pacing).play (.ofToken .never) now 0).finish = _
        rw [script]
        exact keeps.finish (now + pacing.assistantStart) 0
      _ = _ := by rw [spent_partsEvents, ← Nat.add_assoc]
  · intro other later
    exact (map_events_turn other t later).trans all.symm

theorem turn_keeps_pace_with_null :
    let t : Turn := ⟨0, [.text "ab", .toolCall "1" "look" .null none, .reasoning "",
      .toolCall "2" "look" .null (some .null), .reasoning "c"]⟩
    let pacing : Pacing := ⟨15, 0, 400, 300⟩
    let trace := (t.script pacing).play (.ofToken .never) 1000 0
    t.isEmpty = false ∧ trace.finish = 1745 ∧
      ∀ time e, trace.events[8]? = some (time, e) → time = 1730 := by
  intro t pacing trace
  obtain ⟨-, -, times, finish, -⟩ := turn_keeps_pace pacing t 1000 rfl
  refine ⟨rfl, finish.trans (by decide), ?_⟩
  intro time e found
  rw [times 8 time e found]
  decide +kernel

end Cassette

end Playback
