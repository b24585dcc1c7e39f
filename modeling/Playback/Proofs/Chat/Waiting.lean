import Playback.Chat.Basic
import Mathlib.Logic.Relation
import Mathlib.Order.WellFounded

/-!
The wait after a message, against a run that goes on by itself. What is published of the run may
change at any moment, and only the latest is ever seen; still the wait is over at a look at the last
of it and at no other.
-/

namespace Playback.Chat

inductive Stage where
  | before
  | during
  | after
  deriving DecidableEq, Repr

namespace Stage

def status (baseline : Nat) : Stage → Status
  | before => ⟨false, baseline⟩
  | during => ⟨true, baseline⟩
  | after => ⟨false, baseline + 1⟩

def next? : Stage → Option Stage
  | before => some during
  | during => some after
  | after => none

def left : Stage → Nat
  | before => 2
  | during => 1
  | after => 0

def end? (told : List (Nat × Stage)) : Option Nat := (told.find? (·.2 = after)).map (·.1)

theorem end?_of_prefix (heard told : List (Nat × Stage)) (finish : Nat) (begins : heard <+: told)
    (finished : end? heard = some finish) : end? told = some finish := by
  obtain ⟨last, found, rfl⟩ := Option.map_eq_some_iff.mp finished
  exact Option.map_eq_some_iff.mpr ⟨last, begins.find?_eq_some found, rfl⟩

/-- What can be told of a run by and by: it goes on or is where it was, and some may go untold. -/
def IsTold (stages : List Stage) : Prop :=
  stages.Pairwise fun earlier later => later.left ≤ earlier.left

end Stage

namespace Waiting

def isMet (baseline : Nat) (s : Status) : Waiting → Bool
  | forStart => s.isRunning || baseline < s.completed
  | forEnd => !s.isRunning
  | ended => true

def next : Waiting → Waiting
  | forStart => forEnd
  | forEnd | ended => ended

def left : Waiting → Nat
  | forStart => 2
  | forEnd => 1
  | ended => 0

def look (baseline : Nat) (s : Status) (w : Waiting) : Waiting :=
  if w.isMet baseline s then w.next else w

theorem observe_eq_look (baseline : Nat) (s : Status) (w : Waiting) :
    w.observe baseline s = (w.look baseline s).look baseline s := by
  rcases s with ⟨running, completed⟩
  cases w <;> cases running <;> by_cases more : baseline < completed <;>
    simp [observe, look, isMet, next, more]

theorem isMet_forStart_iff (baseline : Nat) (stage : Stage) :
    forStart.isMet baseline (stage.status baseline) = true ↔ stage ≠ .before := by
  cases stage <;> simp [isMet, Stage.status]

theorem isMet_forEnd_iff (baseline : Nat) (stage : Stage) :
    forEnd.isMet baseline (stage.status baseline) = true ↔ stage ≠ .during := by
  cases stage <;> simp [isMet, Stage.status]

theorem isMet_after (baseline : Nat) (w : Waiting) :
    w.isMet baseline (Stage.after.status baseline) = true := by
  cases w <;> simp [isMet, Stage.status]

end Waiting

/-- A message under way: how far its run is, what is waited for, and at which stage the last look at
the status was in vain, if it was. -/
structure Watch where
  stage : Stage
  waiting : Waiting
  missed : Option Stage
  deriving DecidableEq, Repr

namespace Watch

variable (baseline : Nat)

def start : Watch := ⟨.before, .forStart, none⟩

def look (w : Watch) : Watch :=
  { w with
    waiting := w.waiting.look baseline (w.stage.status baseline)
    missed := if w.waiting.isMet baseline (w.stage.status baseline) then none else some w.stage }

theorem look_of_met (w : Watch)
    (met : w.waiting.isMet baseline (w.stage.status baseline) = true) :
    w.look baseline = { w with waiting := w.waiting.next, missed := none } := by
  simp [look, Waiting.look, met]

theorem look_of_not_met (w : Watch)
    (vain : w.waiting.isMet baseline (w.stage.status baseline) = false) :
    w.look baseline = { w with missed := some w.stage } := by
  simp [look, Waiting.look, vain]

/-- The run goes on or the status is looked at, whichever comes first. After a look in vain there is
none before the next change; but nothing tells how many changes there were by then. -/
inductive Step : Watch → Watch → Prop
  | publish (w : Watch) (later : Stage) (next : w.stage.next? = some later) :
      Step w { w with stage := later }
  | look (w : Watch) (waits : w.waiting ≠ .ended) (news : w.missed ≠ some w.stage) :
      Step w (w.look baseline)

abbrev Reaches : Watch → Watch → Prop := Relation.ReflTransGen (Step baseline)

/-- What was waited for so far has come, and a look was in vain only where it has to be. -/
structure IsSound (w : Watch) : Prop where
  started : w.waiting = .forEnd → w.stage ≠ .before
  ended : w.waiting = .ended → w.stage = .after
  missed : ∀ stage, w.missed = some stage →
    w.waiting.isMet baseline (stage.status baseline) = false

theorem isSound_start : start.IsSound baseline where
  started := by decide
  ended := by decide
  missed := by simp [start]

variable {baseline}

theorem IsSound.publish {w : Watch} (sound : w.IsSound baseline) (later : Stage)
    (next : w.stage.next? = some later) : { w with stage := later }.IsSound baseline where
  started := by
    intro _ first
    change later = .before at first
    subst first
    cases stage : w.stage <;> simp [stage, Stage.next?] at next
  ended := by
    intro waiting
    have finished := sound.ended waiting
    rw [finished] at next
    cases next
  missed := sound.missed

theorem IsSound.look {w : Watch} (sound : w.IsSound baseline) :
    (w.look baseline).IsSound baseline := by
  cases met : w.waiting.isMet baseline (w.stage.status baseline) with
  | false =>
      rw [look_of_not_met baseline w met]
      refine ⟨sound.started, sound.ended, ?_⟩
      rintro stage ⟨⟩
      exact met
  | true =>
      rw [look_of_met baseline w met]
      constructor
      · intro waiting
        change w.waiting.next = .forEnd at waiting
        cases now : w.waiting with
        | forStart =>
            rw [now] at met
            exact (Waiting.isMet_forStart_iff baseline w.stage).mp met
        | _ =>
            rw [now] at waiting
            cases waiting
      · intro waiting
        change w.waiting.next = .ended at waiting
        cases now : w.waiting with
        | forStart =>
            rw [now] at waiting
            cases waiting
        | forEnd =>
            rw [now] at met
            -- Idle is also what the chat was before the run, but the run has been seen to start.
            have idle := (Waiting.isMet_forEnd_iff baseline w.stage).mp met
            have begun := sound.started now
            cases stage : w.stage with
            | before => exact absurd stage begun
            | during => exact absurd stage idle
            | after => rfl
        | ended => exact sound.ended now
      · rintro stage ⟨⟩

theorem IsSound.step {w later : Watch} (sound : w.IsSound baseline)
    (step : Step baseline w later) : later.IsSound baseline := by
  cases step with
  | publish later next => exact sound.publish later next
  | look => exact sound.look

theorem IsSound.reaches {w later : Watch} (sound : w.IsSound baseline)
    (reaches : Reaches baseline w later) : later.IsSound baseline := by
  induction reaches with
  | refl => exact sound
  | tail _ step ih => exact ih.step step

theorem IsSound.sees_end {w later : Watch} (sound : w.IsSound baseline)
    (step : Step baseline w later) (waits : w.waiting ≠ .ended)
    (finished : later.waiting = .ended) : later = w.look baseline ∧ w.stage = .after := by
  have last := (sound.step step).ended finished
  cases step with
  | publish => exact absurd finished waits
  | look => exact ⟨rfl, last⟩

theorem IsSound.looks_after {w : Watch} (sound : w.IsSound baseline) (finished : w.stage = .after)
    (waits : w.waiting ≠ .ended) :
    Step baseline w (w.look baseline) ∧ (w.look baseline).waiting = w.waiting.next := by
  have met : w.waiting.isMet baseline (w.stage.status baseline) = true := by
    rw [finished]
    exact Waiting.isMet_after baseline w.waiting
  constructor
  · refine .look w waits ?_
    intro vain
    exact Bool.false_ne_true ((sound.missed w.stage vain).symm.trans met)
  · rw [look_of_met baseline w met]

theorem IsSound.ended_of_stuck {w : Watch} (sound : w.IsSound baseline)
    (stuck : ∀ later, ¬ Step baseline w later) : w.waiting = .ended := by
  cases stage : w.stage with
  | after =>
      by_contra waits
      exact stuck _ (sound.looks_after stage waits).1
  | before => exact absurd (.publish w .during (by rw [stage]; rfl)) (stuck _)
  | during => exact absurd (.publish w .after (by rw [stage]; rfl)) (stuck _)

/-- What is left of a watch: the stages to come weigh most, then what is waited for, and a look in
vain can be made but once a stage. -/
def left (w : Watch) : Nat :=
  3 * w.stage.left + 2 * w.waiting.left + if w.missed = some w.stage then 0 else 1

theorem left_of_step {w later : Watch} (step : Step baseline w later) : later.left < w.left := by
  cases step with
  | publish later next =>
      have fewer : later.left + 1 = w.stage.left := by
        cases stage : w.stage <;> rw [stage] at next <;> cases next <;> rfl
      simp only [left]
      split <;> split <;> omega
  | look waits news =>
      cases met : w.waiting.isMet baseline (w.stage.status baseline) with
      | false =>
          rw [look_of_not_met baseline w met]
          simp [left, news]
      | true =>
          rw [look_of_met baseline w met]
          have fewer : w.waiting.next.left + 1 = w.waiting.left := by
            cases waiting : w.waiting with
            | ended => exact absurd waiting waits
            | _ => rfl
          simp only [left, news, reduceCtorEq, if_false]
          omega

theorem wellFounded_step : WellFounded fun later earlier => Step baseline earlier later :=
  Subrelation.wf left_of_step (measure left).wf

end Watch

namespace Waiting

section Told

variable (baseline : Nat)

theorem observe_eq_ended_iff (w : Waiting) (stage : Stage) (waits : w ≠ .ended)
    (begun : w = .forEnd → stage ≠ .before) :
    w.observe baseline (stage.status baseline) = .ended ↔ stage = .after := by
  cases w with
  | forStart => cases stage <;> simp [observe, Stage.status]
  | forEnd =>
      cases stage with
      | before => exact absurd rfl (begun rfl)
      | _ => simp [observe, Stage.status]
  | ended => exact absurd rfl waits

theorem stage_of_observe (w : Waiting) (stage : Stage)
    (seen : w.observe baseline (stage.status baseline) = .forEnd) : stage = .during := by
  cases w <;> cases stage <;> simp [observe, Stage.status] at seen ⊢

/-- Whatever is told of a run, the wait is over as soon as it is told that the run is over. -/
theorem along_of_told (w : Waiting) (now : Nat) (stage : Stage) (told : List (Nat × Stage))
    (waits : w ≠ .ended) (begun : w = .forEnd → stage ≠ .before)
    (ordered : Stage.IsTold (stage :: told.map (·.2))) :
    w.along baseline now (stage.status baseline)
        (told.map fun (time, stage) => (time, stage.status baseline)) =
      Stage.end? ((now, stage) :: told) := by
  induction told generalizing w now stage with
  | nil =>
      simp only [List.map_nil, along, observe_eq_ended_iff baseline w stage waits begun]
      by_cases last : stage = .after <;> simp [Stage.end?, last]
  | cons next told ih =>
      obtain ⟨later, following⟩ := next
      obtain ⟨onward, rest⟩ := List.pairwise_cons.mp ordered
      have finished := observe_eq_ended_iff baseline w stage waits begun
      rw [List.map_cons, along]
      by_cases last : stage = .after
      · rw [if_pos (finished.mpr last), Stage.end?, List.find?_cons_of_pos (by simpa using last)]
        rfl
      · have goesOn : Stage.end? ((now, stage) :: (later, following) :: told) =
            Stage.end? ((later, following) :: told) := by
          rw [Stage.end?, List.find?_cons_of_neg (by simpa using last)]
          rfl
        rw [if_neg (mt finished.mp last), goesOn]
        refine ih _ later following (mt finished.mp last) ?_ rest
        -- Where the start has been seen the run was going on, and it does not begin again.
        rintro seen rfl
        rw [stage_of_observe baseline w stage seen] at onward
        exact absurd (onward .before List.mem_cons_self) (by decide)

theorem along_of_told_while (learns : Nat → Bool) (now : Nat) (stage : Stage)
    (told : List (Nat × Stage)) (ordered : Stage.IsTold (stage :: told.map (·.2))) :
    Waiting.along baseline .forStart now (stage.status baseline)
        ((told.map fun (time, stage) => (time, stage.status baseline)).takeWhile
          fun change => learns change.1) =
      Stage.end? ((now, stage) :: told.takeWhile fun e => learns e.1) := by
  have begins : (told.takeWhile fun e => learns e.1) <+: told := List.takeWhile_prefix _
  have within : Stage.IsTold (stage :: (told.takeWhile fun e => learns e.1).map (·.2)) :=
    ordered.sublist ((begins.map _).sublist.cons_cons stage)
  rw [List.takeWhile_map]
  exact along_of_told baseline .forStart now stage _ nofun nofun within

end Told

end Waiting

end Playback.Chat
