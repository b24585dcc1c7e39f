import Playback.Cassette.Turn
import Playback.Proofs.Stream.Script
import Playback.Thread.Basic

namespace Playback.Cassette

open Playback.Stream (Event Script Step)

namespace Part

def toThread : Part → Thread.Part
  | .text t => .text t
  | .reasoning t => .reasoning t
  | .toolCall call tool args result => .toolCall call tool args result

def call? : Part → Option String
  | .toolCall call .. => some call
  | _ => none

def events (id : String) : Part → List Event
  | .text t =>
    .textStart id :: (t.toList.map fun c => .textDelta id (String.singleton c)) ++ [.textEnd id]
  | .reasoning t =>
    .reasoningStart id :: (t.toList.map fun c => .reasoningDelta id (String.singleton c)) ++
      [.reasoningEnd id]
  | .toolCall call tool args result =>
    .toolInput call tool args :: (result.map (Event.toolOutput call)).toList

end Part

section Pace

variable (pacing : Pacing)

theorem isPaced_typedScript (start : Event) (delta : String → Event) (stop : Event)
    (text : String) : (typedScript pacing start delta stop text).IsPaced := by
  intro step member
  simp only [typedScript, List.mem_cons, List.mem_append, List.mem_flatMap, List.not_mem_nil,
    or_false] at member
  rcases member with (rfl | ⟨c, -, rfl | rfl⟩) | rfl <;> simp

theorem handed_typedScript (start : Event) (delta : String → Event) (stop : Event)
    (text : String) :
    (typedScript pacing start delta stop text).handed =
      start :: (text.toList.map fun c => delta (String.singleton c)) ++ [stop] := by
  unfold typedScript
  have typed : ∀ chars : List Char,
      Script.handed ((chars.flatMap fun c =>
        [Step.emit (delta (String.singleton c)), .pause pacing.typing]) ++ [.emit stop]) =
      (chars.map fun c => delta (String.singleton c)) ++ [stop] := by
    intro chars
    induction chars with
    | nil => rfl
    | cons c rest ih => exact congrArg (delta (String.singleton c) :: ·) ih
  exact congrArg (start :: ·) (typed text.toList)

theorem isPaced_partScript (id : String) (p : Part) : (p.script pacing id).IsPaced := by
  cases p with
  | text t => exact isPaced_typedScript pacing _ _ _ t
  | reasoning t => exact isPaced_typedScript pacing _ _ _ t
  | toolCall call tool args result =>
      intro step member
      cases result <;>
        simp only [Part.script, List.mem_cons, List.not_mem_nil, or_false] at member
      · subst member
        simp
      · rcases member with rfl | rfl | rfl <;> simp

theorem isPaced_partsScript (first : Nat) (parts : List Part) :
    (partsScript pacing first parts).IsPaced := by
  induction parts generalizing first with
  | nil => exact fun step none => absurd none List.not_mem_nil
  | cons p rest ih =>
      exact Script.isPaced_append _ _ (isPaced_partScript pacing _ p) (ih (first + 1))

theorem isPaced_turnScript (t : Turn) : (t.script pacing).IsPaced := by
  unfold Turn.script
  split
  · exact fun step none => absurd none List.not_mem_nil
  · intro step member
    rcases List.mem_cons.mp member with rfl | later
    · exact .inr ⟨_, rfl⟩
    · exact isPaced_partsScript pacing t.first t.parts step later

theorem handed_partScript (id : String) (p : Part) : (p.script pacing id).handed = p.events id := by
  cases p with
  | text t => exact handed_typedScript pacing _ _ _ t
  | reasoning t => exact handed_typedScript pacing _ _ _ t
  | toolCall call tool args result => cases result <;> rfl

def partsEvents (first : Nat) : List Part → List Event
  | [] => []
  | p :: rest => p.events (Uuid.ofNat first) ++ partsEvents (first + 1) rest

theorem handed_partsScript (first : Nat) (parts : List Part) :
    (partsScript pacing first parts).handed = partsEvents first parts := by
  induction parts generalizing first with
  | nil => rfl
  | cons p rest ih =>
      have paced := isPaced_partScript pacing (Uuid.ofNat first) p
      rw [partsScript, Script.handed_append _ _ paced, handed_partScript, ih, partsEvents]

theorem handed_turnScript (t : Turn) : (t.script pacing).handed = partsEvents t.first t.parts := by
  unfold Turn.script
  split
  · rename_i empty
    rw [List.isEmpty_iff.mp empty]
    rfl
  · exact handed_partsScript pacing t.first t.parts

end Pace

section Unnamed

def unnamed : Event → Event
  | .textStart _ => .textStart ""
  | .textDelta _ delta => .textDelta "" delta
  | .textEnd _ => .textEnd ""
  | .reasoningStart _ => .reasoningStart ""
  | .reasoningDelta _ delta => .reasoningDelta "" delta
  | .reasoningEnd _ => .reasoningEnd ""
  | .toolInput call tool input => .toolInput call tool input
  | .toolOutput call output => .toolOutput call output

theorem map_unnamed_partScript (pacing : Pacing) (id : String) (p : Part) :
    (p.script pacing id).map (Step.map unnamed) = p.script pacing "" := by
  cases p with
  | text t | reasoning t =>
      simp [Part.script, typedScript, List.map_flatMap, Step.map, unnamed]
  | toolCall call tool args result => cases result <;> rfl

theorem map_unnamed_partsScript (pacing : Pacing) (first : Nat) (parts : List Part) :
    (partsScript pacing first parts).map (Step.map unnamed) =
      parts.flatMap (Part.script pacing "") := by
  induction parts generalizing first with
  | nil => rfl
  | cons p rest ih =>
      rw [partsScript, List.map_append, map_unnamed_partScript, ih, List.flatMap_cons]

theorem map_unnamed_events (id : String) (p : Part) : (p.events id).map unnamed = p.events "" := by
  cases p with
  | toolCall call tool args result => cases result <;> rfl
  | _ => simp [Part.events, unnamed]

theorem map_unnamed_partsEvents (first : Nat) (parts : List Part) :
    (partsEvents first parts).map unnamed = parts.flatMap (Part.events "") := by
  induction parts generalizing first with
  | nil => rfl
  | cons p rest ih => rw [partsEvents, List.map_append, map_unnamed_events, ih, List.flatMap_cons]

/-- Without the ids it is all the same how parts are numbered. -/
theorem map_unnamed_turnScript (pacing : Pacing) (first second : Nat) (parts : List Part) :
    ((Turn.mk first parts).script pacing).map (Step.map unnamed) =
      ((Turn.mk second parts).script pacing).map (Step.map unnamed) := by
  unfold Turn.script Turn.isEmpty
  split
  · rfl
  · rw [List.map_cons, List.map_cons, map_unnamed_partsScript, map_unnamed_partsScript]

end Unnamed

end Playback.Cassette
