import Playback.Chat.Transport
import Playback.Proofs.Cassette.Interruption
import Playback.Proofs.Cassette.Normal
import Playback.Stream.Reading

namespace Playback

namespace Stream.Trace

variable (t : Trace) (begun count : Nat) (rest : Remainder)

theorem map_events_read :
    (t.read begun count rest).events.map (·.2) =
      if rest = .collect ∨ rest = .poll then t.events.map (·.2)
      else (t.events.map (·.2)).take count := by
  have joined : (t.events.take count).map (·.2) ++ (t.events.drop count).map (·.2) =
      t.events.map (·.2) := by
    rw [← List.map_append, List.take_append_drop]
  cases rest with
  | finish => exact List.map_take
  | drop => exact List.map_take
  | collect =>
      rw [← joined, if_pos (.inl rfl), read, List.map_append, List.map_map]
      rfl
  | poll =>
      rw [← joined, if_pos (.inr rfl), read, List.map_append]

theorem read_prefix :
    (t.read begun count rest).events.map (·.2) <+: t.events.map (·.2) := by
  rw [map_events_read]
  split
  · exact List.prefix_refl _
  · exact List.take_prefix count _

theorem read_whole (all : rest = .collect ∨ rest = .poll ∨ t.events.length ≤ count) :
    (t.read begun count rest).events.map (·.2) = t.events.map (·.2) := by
  rw [map_events_read]
  split
  · rfl
  · rename_i neither
    have few : t.events.length ≤ count := by
      rcases all with collect | poll | few
      · exact absurd (.inl collect) neither
      · exact absurd (.inr poll) neither
      · exact few
    apply List.take_of_length_le
    rw [List.length_map]
    exact few

theorem outcome_of_read (outcome : Outcome)
    (told : (t.read begun count rest).outcome = some outcome) : t.outcome = outcome := by
  cases rest with
  | drop => contradiction
  | _ => exact Option.some.inj told

end Stream.Trace

namespace Cassette

open Chat (Transport)
open Playback.Stream (Limits Reading Remainder Script)

/-- How a reel is read once: from when on, under which limits, how many events one by one, and what
is done thereafter. -/
structure Request where
  begun : Nat
  limits : Limits
  count : Nat
  rest : Remainder
  deriving DecidableEq, Repr

namespace Reel

def read (r : Reel) (q : Request) : Reading :=
  ((Transport.send r).1.play q.limits q.begun 0).read q.begun q.count q.rest

def readAll (r : Reel) : List Request → List Reading × Reel
  | [] => ([], r)
  | q :: rest =>
    let (readings, last) := (Transport.send r).2.readAll rest
    (r.read q :: readings, last)

theorem readAll_eq (r : Reel) (requests : List Request) :
    r.readAll requests =
      (requests.mapIdx fun i q => (r.skip i).read q, r.skip requests.length) := by
  induction requests generalizing r with
  | nil => rfl
  | cons q rest ih =>
      have next := ih r.nextTurn.2
      rw [readAll, List.mapIdx_cons]
      change (r.read q :: (r.nextTurn.2.readAll rest).1, (r.nextTurn.2.readAll rest).2) = _
      rw [next]
      rfl

def turnEvents (r : Reel) (i : Nat) : List Stream.Event :=
  ((Transport.send (r.skip i)).1.play (.ofToken .never) 0 0).events.map (·.2)

theorem turnEvents_eq (r : Reel) (i : Nat) :
    r.turnEvents i = partsEvents (r.skip i).nextTurn.1.first (r.skip i).nextTurn.1.parts :=
  map_events_turn (r.skip i).pacing (r.skip i).nextTurn.1 0

theorem map_unnamed_turnEvents (c : Cassette) (pacing : Pacing) (seed i : Nat) :
    ((start c pacing seed).turnEvents i).map unnamed = (c.served i).flatMap (Part.events "") := by
  rw [turnEvents_eq, map_unnamed_partsEvents, parts_skip_start]

theorem read_prefix_turnEvents (r : Reel) (i : Nat) (q : Request) :
    ((r.skip i).read q).events.map (·.2) <+: r.turnEvents i := by
  apply (Stream.Trace.read_prefix _ q.begun q.count q.rest).trans
  rw [turnEvents_eq, ← handed_turnScript (r.skip i).pacing]
  exact Script.map_events_prefix q.limits q.begun 0 _

theorem read_eq_turnEvents (r : Reel) (i : Nat) (q : Request)
    (uncut : q.limits = .ofToken .never ∨ ((r.skip i).read q).outcome = some .completed)
    (every : q.rest = .collect ∨ q.rest = .poll ∨ (r.turnEvents i).length ≤ q.count) :
    ((r.skip i).read q).events.map (·.2) = r.turnEvents i := by
  let pace := (r.skip i).pacing
  let turn := (r.skip i).nextTurn.1
  let trace := (turn.script pace).play q.limits q.begun 0
  have completed : trace.outcome = .completed := by
    rcases uncut with never | told
    · exact (outcome_turn_eq_completed_iff pace turn q.limits q.begun).mpr (never ▸ rfl)
    · exact trace.outcome_of_read q.begun q.count q.rest .completed told
  have produced : trace.events.map (·.2) = r.turnEvents i := by
    rw [turnEvents_eq, ← map_events_turn pace turn q.begun]
    exact congrArg (List.map (·.2))
      ((outcome_turn_eq_completed_iff pace turn q.limits q.begun).mp completed)
  rw [← produced, List.length_map] at every
  rw [← produced]
  exact trace.read_whole q.begun q.count q.rest every

/-- Readers of a transport do not disturb each other: whatever limits the streams before, and
whatever has been read of them, a read is that of the turn that would come after as many turns of
the reel if nobody had read; and this is where the reel stands in the end. What is read is a
beginning of the turn's events, but for the ids of parts the same from whatever number these are
counted; it is all of them if the whole stream is read and is not cut. -/
theorem reads_are_independent (c : Cassette) (pacing : Pacing) (seed : Nat)
    (requests : List Request) :
    let r := start c pacing seed
    let readings := (r.readAll requests).1
    (r.readAll requests).2 = r.skip requests.length ∧ readings.length = requests.length ∧
      ∀ i q reading, requests[i]? = some q → readings[i]? = some reading →
        reading = (r.skip i).read q ∧ reading.events.map (·.2) <+: r.turnEvents i ∧
          (q.limits = .ofToken .never ∨ reading.outcome = some .completed →
            q.rest = .collect ∨ q.rest = .poll ∨ (r.turnEvents i).length ≤ q.count →
            reading.events.map (·.2) = r.turnEvents i) ∧
          ∀ other, ((start c pacing other).turnEvents i).map unnamed =
            (r.turnEvents i).map unnamed := by
  intro r readings
  have all := r.readAll_eq requests
  refine ⟨congrArg (·.2) all, ?_, ?_⟩
  · change (r.readAll requests).1.length = _
    rw [all, List.length_mapIdx]
  intro i q reading asked given
  have same : reading = (r.skip i).read q := by
    change (r.readAll requests).1[i]? = some reading at given
    rw [all, List.getElem?_mapIdx, asked] at given
    exact (Option.some.inj given).symm
  refine ⟨same, ?_, ?_, ?_⟩
  · rw [same]
    exact r.read_prefix_turnEvents i q
  · intro uncut every
    rw [same] at uncut ⊢
    exact r.read_eq_turnEvents i q uncut every
  · intro other
    rw [map_unnamed_turnEvents, map_unnamed_turnEvents]

theorem reads_are_independent_of_drop :
    let c : Cassette := ⟨[⟨.user, [.text "a"]⟩, ⟨.assistant, [.text "bc"]⟩, ⟨.user, [.text "d"]⟩,
      ⟨.assistant, [.text "e"]⟩, ⟨.user, []⟩, ⟨.assistant, [.toolCall "1" "look" .null none]⟩]⟩
    let last : Request := ⟨90, .ofToken .never, 0, .collect⟩
    let requests : List Request :=
      [⟨0, .ofToken .never, 2, .drop⟩, ⟨40, .ofToken (.cancelledFrom 0), 9, .finish⟩, last]
    let r := start c .standard 0
    (r.readAll requests).1[0]?.map (·.events.length) = some 2 ∧
      (r.readAll requests).1[1]?.map (·.events.length) = some 0 ∧
      ∀ reading, (r.readAll requests).1[2]? = some reading →
        reading.events.map (·.2) = [.toolInput "1" "look" .null] := by
  intro c last requests r
  refine ⟨by decide +kernel, by decide +kernel, ?_⟩
  intro reading given
  obtain ⟨-, -, each⟩ := reads_are_independent c .standard 0 requests
  obtain ⟨-, -, whole, -⟩ := each 2 last reading rfl given
  rw [whole (.inl rfl) (.inl rfl)]
  decide +kernel

end Reel

end Cassette

end Playback
