import Playback.Proofs.Cassette.Turn
import Playback.Proofs.Thread.Assembly

/-!
What is assembled from a turn that nothing limits. Its parts come back one for one, but a call is
known by its id only: the answer to a later call of the same id is taken for its own.
-/

namespace Playback.Cassette

open Playback.Stream (Event Limits Script)
open Thread (Assembler assembled lastOutput textUnder)

namespace Part

def answer? (call : String) : Part → Option Json.Datum
  | .toolCall id _ _ result => if id = call then result else none
  | _ => none

end Part

def lastAnswer (call : String) (parts : List Part) : Option Json.Datum :=
  (parts.filterMap (Part.answer? call)).getLast?

/-- A part in a conversation, when other parts come behind it. -/
def Part.resolved (later : List Part) : Part → Thread.Part
  | .text t => .text t
  | .reasoning t => .reasoning t
  | .toolCall call tool args result =>
    .toolCall call tool args ((lastAnswer call later).or result)

/-- The parts of a turn in a conversation that takes every answer to be for all calls of its id. -/
def resolved : List Part → List Thread.Part
  | [] => []
  | p :: later => p.resolved later :: resolved later

theorem assembled_of_quiet (events more : List Event)
    (quiet : ∀ e ∈ events, Thread.beginning? e = none) :
    assembled (events ++ more) = assembled more := by
  induction events with
  | nil => rfl
  | cons e events ih =>
      obtain ⟨first, others⟩ := List.forall_mem_cons.mp quiet
      rw [List.cons_append, assembled, Thread.begun?_eq, first, ih others]
      rfl

section Typed

variable (id : String) (delta : String → Event) (stop : Event) (chars : List Char)
  (more : List Event)

theorem textUnder_typed (adds : ∀ d, (delta d).delta? id = some d)
    (goesOn : ∀ d, (delta d).marks id = false) (stops : stop.marks id = true) :
    textUnder id ((chars.map fun c => delta (String.singleton c)) ++ stop :: more) =
      String.ofList chars := by
  induction chars with
  | nil => simp [Thread.textUnder_cons, stops]
  | cons c chars ih =>
      rw [List.map_cons, List.cons_append, Thread.textUnder_cons, goesOn, adds, ih,
        String.singleton_eq_ofList]
      exact String.ofList_append.symm

theorem assembled_typed (grows : ∀ d, Thread.beginning? (delta d) = none)
    (stops : Thread.beginning? stop = none) :
    assembled ((chars.map fun c => delta (String.singleton c)) ++ stop :: more) =
      assembled more := by
  rw [List.append_cons]
  apply assembled_of_quiet
  intro e member
  rcases List.mem_append.mp member with typed | last
  · obtain ⟨c, -, rfl⟩ := List.mem_map.mp typed
    exact grows _
  · rw [List.mem_singleton.mp last]
    exact stops

end Typed

theorem assembled_partEvents (id : String) (p : Part) (more : List Event) :
    assembled (p.events id ++ more) = p.toThread.filled none more :: assembled more := by
  cases p with
  | text t =>
      have under := textUnder_typed id (.textDelta id) (.textEnd id) t.toList more
        (fun d => by simp [Event.delta?]) (fun _ => rfl) (by simp [Event.marks])
      have behind := assembled_typed (.textDelta id) (.textEnd id) t.toList more
        (fun _ => rfl) rfl
      rw [String.ofList_toList] at under
      simp [Part.events, assembled, Thread.begun?, under, behind, Part.toThread,
        Thread.Part.filled]
  | reasoning t =>
      have under := textUnder_typed id (.reasoningDelta id) (.reasoningEnd id) t.toList more
        (fun d => by simp [Event.delta?]) (fun _ => rfl) (by simp [Event.marks])
      have behind := assembled_typed (.reasoningDelta id) (.reasoningEnd id) t.toList more
        (fun _ => rfl) rfl
      rw [String.ofList_toList] at under
      simp [Part.events, assembled, Thread.begun?, under, behind, Part.toThread,
        Thread.Part.filled]
  | toolCall call tool args result =>
      cases result with
      | none => simp [Part.events, assembled, Thread.begun?, Part.toThread, Thread.Part.filled]
      | some output =>
          simp [Part.events, assembled, Thread.begun?, Part.toThread, Thread.Part.filled,
            Thread.lastOutput_cons, Event.output?]

theorem filterMap_output?_partEvents (call id : String) (p : Part) :
    (p.events id).filterMap (·.output? call) = (p.answer? call).toList := by
  cases p with
  | text t => simp [Part.events, Part.answer?, Event.output?]
  | reasoning t => simp [Part.events, Part.answer?, Event.output?]
  | toolCall k tool args result =>
      cases result <;> by_cases own : k = call <;>
        simp [Part.events, Part.answer?, Event.output?, own]

theorem lastOutput_partsEvents (call : String) (first : Nat) (parts : List Part) :
    lastOutput call (partsEvents first parts) = lastAnswer call parts := by
  have all : (partsEvents first parts).filterMap (·.output? call) =
      parts.filterMap (Part.answer? call) := by
    induction parts generalizing first with
    | nil => rfl
    | cons p rest ih =>
        rw [partsEvents, List.filterMap_append, filterMap_output?_partEvents, ih]
        cases answer : p.answer? call <;> simp [answer]
  exact congrArg List.getLast? all

theorem assembled_partsEvents (first : Nat) (parts : List Part) :
    assembled (partsEvents first parts) = resolved parts := by
  induction parts generalizing first with
  | nil => rfl
  | cons p rest ih =>
      rw [partsEvents, assembled_partEvents, ih, resolved]
      cases p <;>
        simp [Part.toThread, Thread.Part.filled, Part.resolved, lastOutput_partsEvents]

theorem parts_applyAll_partsEvents (first : Nat) (parts : List Part) :
    (Assembler.empty.applyAll (partsEvents first parts)).parts = resolved parts :=
  (Assembler.parts_applyAll _).trans (assembled_partsEvents first parts)

/-- Does another part answer the call of a part otherwise than that does itself? -/
def Part.IsOverwrittenBy (p q : Part) : Prop :=
  ∃ call tool args result output, p = .toolCall call tool args result ∧
    q.answer? call = some output ∧ result ≠ some output

theorem lastAnswer_cons (call : String) (p : Part) (rest : List Part) :
    lastAnswer call (p :: rest) = (lastAnswer call rest).or (p.answer? call) :=
  Thread.getLast?_filterMap_cons (Part.answer? call) p rest

theorem exists_of_lastAnswer (call : String) (parts : List Part) (output : Json.Datum)
    (last : lastAnswer call parts = some output) : ∃ q ∈ parts, q.answer? call = some output :=
  List.mem_filterMap.mp (List.mem_of_getLast? last)

theorem lastAnswer_of_mem (call : String) (parts : List Part) (q : Part) (output : Json.Datum)
    (apart : parts.Pairwise fun p q => ¬ p.IsOverwrittenBy q) (member : q ∈ parts)
    (answer : q.answer? call = some output) : lastAnswer call parts = some output := by
  induction parts with
  | nil => cases member
  | cons p rest ih =>
      obtain ⟨first, others⟩ := List.pairwise_cons.mp apart
      rw [lastAnswer_cons]
      rcases List.mem_cons.mp member with rfl | later
      · cases last : lastAnswer call rest with
        | none => exact answer
        | some other =>
            obtain ⟨r, behind, again⟩ := exists_of_lastAnswer call rest other last
            -- A later answer to the call would overwrite this one.
            have same : output = other := by
              by_contra different
              apply first r behind
              cases q with
              | toolCall id tool args result =>
                  obtain ⟨rfl, rfl⟩ : id = call ∧ result = some output := by
                    simpa [Part.answer?] using answer
                  exact ⟨id, tool, args, some output, other, rfl, again, by simpa using different⟩
              | _ => cases answer
            rw [same]
            rfl
      · rw [ih others later]
        rfl

theorem resolved_eq_iff (parts : List Part) :
    resolved parts = parts.map Part.toThread ↔
      parts.Pairwise fun p q => ¬ p.IsOverwrittenBy q := by
  induction parts with
  | nil => simp [resolved]
  | cons p rest ih =>
      rw [resolved, List.map_cons, List.cons.injEq, List.pairwise_cons, ih]
      apply and_congr_left
      intro apart
      constructor
      · rintro same q member ⟨call, tool, args, result, output, rfl, answer, other⟩
        have last := lastAnswer_of_mem call rest q output apart member answer
        simp [Part.resolved, Part.toThread, last] at same
        exact other same.symm
      · intro kept
        cases p with
        | toolCall call tool args result =>
            cases last : lastAnswer call rest with
            | none => simp [Part.resolved, Part.toThread, last]
            | some output =>
                obtain ⟨q, member, answer⟩ := exists_of_lastAnswer call rest output last
                have own : result = some output := by
                  by_contra other
                  exact kept q member ⟨call, tool, args, result, output, rfl, answer, other⟩
                simp [Part.resolved, Part.toThread, last, own]
        | _ => rfl

theorem resolved_of_distinct (parts : List Part) (distinct : (parts.filterMap Part.call?).Nodup) :
    resolved parts = parts.map Part.toThread := by
  rw [resolved_eq_iff]
  apply (List.pairwise_filterMap.mp distinct).imp
  rintro p q apart ⟨call, tool, args, result, output, rfl, answer, -⟩
  cases q with
  | toolCall id tool args result =>
      obtain ⟨rfl, -⟩ : id = call ∧ result = some output := by
        simpa [Part.answer?] using answer
      exact apart id rfl id rfl rfl
  | _ => cases answer

theorem parts_turnScript (pacing : Pacing) (t : Turn)
    (distinct : (t.parts.filterMap Part.call?).Nodup) :
    (Assembler.empty.applyAll (t.script pacing).handed).parts = t.parts.map Part.toThread := by
  rw [handed_turnScript, parts_applyAll_partsEvents, resolved_of_distinct t.parts distinct]

/-- A turn is assembled to its parts one for one, in their order, of the same kinds and with the
same texts; a call has the last answer to its id in the parts behind it, and its own if there is
none. So just those turns come back as they are in which no answer is put in the place of another,
or of none. -/
theorem turn_reassembled (pacing : Pacing) (t : Turn) (now : Nat) :
    let events := ((t.script pacing).play (.ofToken .never) now 0).events.map (·.2)
    let parts := (Assembler.empty.applyAll events).parts
    parts = resolved t.parts ∧
      (parts = t.parts.map Part.toThread ↔
        t.parts.Pairwise fun p q => ¬ p.IsOverwrittenBy q) := by
  intro events parts
  have all : events = partsEvents t.first t.parts :=
    (Script.map_events_of_never now 0 _).trans (handed_turnScript pacing t)
  have told : parts = resolved t.parts := by
    rw [← parts_applyAll_partsEvents t.first t.parts, ← all]
  exact ⟨told, by rw [told, resolved_eq_iff]⟩

theorem turn_not_always_reassembled :
    ¬ ∀ (pacing : Pacing) (t : Turn) (now : Nat),
      let events := ((t.script pacing).play (.ofToken .never) now 0).events.map (·.2)
      (Assembler.empty.applyAll events).parts = t.parts.map Part.toThread := by
  intro always
  have first := always .instant
    ⟨0, [.toolCall "1" "look" .null none, .toolCall "1" "look" .null (some ⟨.string "b", rfl⟩)]⟩ 0
  revert first
  decide +kernel

end Playback.Cassette
