import Playback.Proofs.Cassette.Turn
import Playback.Proofs.Stream.Interruption

namespace Playback.Cassette

open Playback.Stream (Limits Script Step)

variable (pacing : Pacing)

theorem endsWithEvent_partScript (id : String) (p : Part) :
    (p.script pacing id).EndsWithEvent := by
  cases p with
  | text t => exact Script.endsWithEvent_concat _ _
  | reasoning t => exact Script.endsWithEvent_concat _ _
  | toolCall call tool args result =>
      cases result with
      | none => exact Script.endsWithEvent_concat [] _
      | some output =>
          exact Script.endsWithEvent_concat [.emit (.toolInput call tool args),
            .pause pacing.toolResult] _

theorem endsWithEvent_partsScript (first : Nat) (parts : List Part) :
    (partsScript pacing first parts).EndsWithEvent := by
  induction parts generalizing first with
  | nil => exact Script.endsWithEvent_nil
  | cons p rest ih =>
      apply Script.endsWithEvent_append
      · exact endsWithEvent_partScript pacing (Uuid.ofNat first) p
      · exact ih (first + 1)

theorem partsScript_ne_nil (first : Nat) (parts : List Part) (some : parts ≠ []) :
    partsScript pacing first parts ≠ [] := by
  cases parts with
  | nil => contradiction
  | cons p rest =>
      apply List.append_ne_nil_of_left_ne_nil
      cases p <;> exact List.cons_ne_nil _ _

/-- A turn does not end in a pause: no cancellation comes in after its last event. -/
theorem endsWithEvent_turnScript (t : Turn) : (t.script pacing).EndsWithEvent := by
  unfold Turn.script
  split
  · exact Script.endsWithEvent_nil
  · rename_i some
    apply Script.endsWithEvent_cons
    · exact endsWithEvent_partsScript pacing t.first t.parts
    · apply partsScript_ne_nil
      intro none
      exact some (List.isEmpty_iff.mpr none)

theorem outcome_turn_eq_completed_iff (t : Turn) (l : Limits) (now : Nat) :
    ((t.script pacing).play l now 0).outcome = .completed ↔
      ((t.script pacing).play l now 0).events =
        ((t.script pacing).play (.ofToken .never) now 0).events :=
  Script.outcome_eq_completed_iff l now 0 _ (isPaced_turnScript pacing t)
    (endsWithEvent_turnScript pacing t)

theorem map_events_turn (t : Turn) (now : Nat) :
    ((t.script pacing).play (.ofToken .never) now 0).events.map (·.2) =
      partsEvents t.first t.parts := by
  rw [← handed_turnScript pacing t]
  exact Script.map_events_of_never now 0 (t.script pacing)

/-- Whatever interrupts a turn, its events are the longest beginning of those of the whole turn that
the limits allow, each at its time, and the turn is completed just if they are all of them, which is
so just if the limits allow them all. -/
theorem interrupted_turn_longest (t : Turn) (l : Limits) (now : Nat) :
    let whole := (t.script pacing).play (.ofToken .never) now 0
    let cut := (t.script pacing).play l now 0
    whole.events.map (·.2) = partsEvents t.first t.parts ∧
      l.IsLongest 0 cut.events whole.events ∧
      (cut.outcome = .completed ↔ cut.events = whole.events) ∧
      (cut.outcome = .completed ↔ l.Allows 0 whole.events) := by
  intro whole cut
  have longest := Script.isLongest_play l now 0 (t.script pacing) (isPaced_turnScript pacing t)
  have completed := outcome_turn_eq_completed_iff pacing t l now
  have all : cut.events = whole.events ↔ l.Allows 0 whole.events := by
    constructor
    · intro same
      rw [← same]
      exact longest.allowed
    · intro allowed
      have covered := longest.longest whole.events (List.prefix_refl _) allowed
      exact longest.begins.eq_of_length_le covered.length_le
  exact ⟨map_events_turn pacing t now, longest, completed, completed.trans all⟩

end Playback.Cassette
