import Playback.Proofs.Agents.Repetition
import Mathlib.Data.List.Pairwise

/-!
What scans of a growing text let through, against the text without its repetitions. Calls of two
agents are taken for one another if they are written alike, agent before call. Nothing else is lost,
and no delta at all.
-/

namespace Playback.Agents

namespace Event

theorem not_confused_delta (d : Event) (agent content : String) :
    ¬ d.IsConfusedWith (delta agent content) := by
  rintro ⟨-, ⟨-, -, other, hasCall, -⟩, -⟩
  cases hasCall

theorem IsConfusedWith.symm {d e : Event} (confused : d.IsConfusedWith e) :
    e.IsConfusedWith d := by
  obtain ⟨kinds, ⟨call, hd, other, he, written⟩, fresh⟩ := confused
  refine ⟨kinds.symm, ⟨other, he, call, hd, written.symm⟩, fun again => fresh ?_⟩
  obtain ⟨delta, -, agents, calls⟩ := (isRepeatedBy_iff e d).mp again
  exact (isRepeatedBy_iff d e).mpr ⟨kinds ▸ delta, kinds, agents.symm, calls.symm⟩

instance : Std.Symm fun d e => ¬ IsConfusedWith d e := ⟨fun _ _ apart back => apart back.symm⟩

theorem IsConfusedWith.of_isRepeatedBy {c d e : Event} (confused : c.IsConfusedWith e)
    (again : d.IsRepeatedBy e) : c.IsConfusedWith d := by
  obtain ⟨delta, kinds, agents, calls⟩ := (isRepeatedBy_iff d e).mp again
  simp only [IsConfusedWith, isRepeatedBy_iff, ← kinds, ← agents, ← calls] at delta confused ⊢
  exact confused

theorem not_confused_of_plain (d e : Event) (first : ':' ∉ d.agent.toList)
    (second : ':' ∉ e.agent.toList) : ¬ d.IsConfusedWith e := by
  rintro ⟨kinds, ⟨call, hasCall, other, hasOther, written⟩, fresh⟩
  have chars := congrArg (List.reverse ∘ String.toList) written
  simp only [Function.comp_apply, String.toList_append, List.reverse_append] at chars
  obtain ⟨calls, agents⟩ := Tracker.eq_of_mark ':' _ _ _ _ (List.mem_reverse.not.mpr first)
    (List.mem_reverse.not.mpr second) chars
  have sameCall := String.toList_inj.mp (List.reverse_injective calls)
  have sameAgent := String.toList_inj.mp (List.reverse_injective agents)
  have noDelta : e.kind ≠ .delta := by
    intro delta
    obtain ⟨agent, content, rfl⟩ := e.eq_delta_of_kind delta
    cases hasOther
  refine fresh ((isRepeatedBy_iff d e).mpr ⟨noDelta, kinds, sameAgent, ?_⟩)
  rw [Option.mem_def.mp hasCall, Option.mem_def.mp hasOther, sameCall]

end Event

/-- The events of a text that repeat none before them, of those that come after the given ones. -/
def firstsAfter (before : List Event) : List Event → List Event
  | [] => []
  | e :: rest =>
    if ∃ d ∈ before, d.IsRepeatedBy e then firstsAfter (before ++ [e]) rest
    else e :: firstsAfter (before ++ [e]) rest

def firsts (events : List Event) : List Event := firstsAfter [] events

theorem firstsAfter_append (before first second : List Event) :
    firstsAfter before (first ++ second) =
      firstsAfter before first ++ firstsAfter (before ++ first) second := by
  induction first generalizing before with
  | nil => simp [firstsAfter]
  | cons e first ih =>
      simp only [List.cons_append, firstsAfter, ih, List.append_assoc, List.nil_append]
      split <;> rfl

theorem firsts_concat (events : List Event) (e : Event) :
    firsts (events ++ [e]) =
      firsts events ++ if ∃ d ∈ events, d.IsRepeatedBy e then [] else [e] := by
  rw [firsts, firstsAfter_append]
  rfl

namespace Tracker

theorem met_iff (events : List Event) (e : Event) :
    Met events e ↔ ∃ d ∈ events, d.IsRepeatedBy e ∨ d.IsConfusedWith e := by
  by_cases delta : e.kind = .delta
  · obtain ⟨agent, content, rfl⟩ := e.eq_delta_of_kind delta
    have none (d : Event) : ¬ d.IsRepeatedBy (.delta agent content) := by
      cases d <;> exact id
    simp [not_met_delta, none, Event.not_confused_delta]
  · simp only [met_iff_of_not_delta events e delta, Event.key_eq_iff _ e delta]

theorem take_sublist_firsts (events : List Event) :
    (Tracker.empty.take events).2.Sublist (firsts events) := by
  induction events using List.reverseRecOn with
  | nil => exact List.Sublist.refl []
  | append_singleton events e ih =>
      rw [take_concat, firsts_concat]
      refine ih.append ?_
      by_cases again : ∃ d ∈ events, d.IsRepeatedBy e
      · have met : Met events e := by
          obtain ⟨d, member, repeated⟩ := again
          exact (met_iff events e).mpr ⟨d, member, .inl repeated⟩
        rw [if_pos again, if_pos met]
      · rw [if_neg again]
        split
        · exact List.nil_sublist [e]
        · exact List.Sublist.refl [e]

theorem take_deltas (events : List Event) :
    (Tracker.empty.take events).2.filter (·.kind = .delta) = events.filter (·.kind = .delta) := by
  induction events using List.reverseRecOn with
  | nil => rfl
  | append_singleton events e ih =>
      rw [take_concat, List.filter_append, List.filter_append, ih]
      by_cases met : Met events e
      · have other : e.kind ≠ .delta := by
          intro delta
          obtain ⟨agent, content, rfl⟩ := e.eq_delta_of_kind delta
          exact not_met_delta events agent content met
        simp [met, other]
      · rw [if_neg met]

/-- All that repeats nothing gets through just if no two calls are confused. -/
theorem take_eq_firsts_iff (events : List Event) :
    (Tracker.empty.take events).2 = firsts events ↔
      events.Pairwise fun d e => ¬ d.IsConfusedWith e := by
  induction events using List.reverseRecOn with
  | nil => exact ⟨fun _ => .nil, fun _ => rfl⟩
  | append_singleton events e ih =>
      have shorter := (take_sublist_firsts events).length_le
      rw [List.pairwise_append, take_concat, firsts_concat]
      by_cases again : ∃ d ∈ events, d.IsRepeatedBy e
      · -- What `e` repeats would have been confused before, if `e` is confused with anything.
        obtain ⟨d, member, repeated⟩ := again
        have met : Met events e := (met_iff events e).mpr ⟨d, member, .inl repeated⟩
        have old (apart : events.Pairwise fun d e => ¬ d.IsConfusedWith e) :
            ∀ c ∈ events, ¬ c.IsConfusedWith e := by
          intro c here confused
          have differ : c ≠ d := fun same => confused.2.2 (same ▸ repeated)
          exact apart.forall here member differ (confused.of_isRepeatedBy repeated)
        rw [if_pos met, if_pos ⟨d, member, repeated⟩, List.append_nil, List.append_nil, ih]
        simpa using old
      · rw [if_neg again]
        by_cases met : Met events e
        · obtain ⟨d, member, repeated | confused⟩ := (met_iff events e).mp met
          · exact absurd ⟨d, member, repeated⟩ again
          · rw [if_pos met]
            constructor
            · -- One of the firsts is held back, and nothing else can make up for it.
              intro same
              have lengths := congrArg List.length same
              simp at lengths
              omega
            · rintro ⟨-, -, apart⟩
              exact absurd confused (apart d member e List.mem_cons_self)
        · have apart : ∀ d ∈ events, ¬ d.IsConfusedWith e :=
            fun d member confused => met ((met_iff events e).mpr ⟨d, member, .inr confused⟩)
          rw [if_neg met, List.append_left_inj, ih]
          simpa using fun _ => apart

/-- Scans of beginnings of a text, the whole among them, let through no repetition and every delta.
They let through all else just if no two calls are confused, so in particular if the agents that
call are named without a colon. -/
theorem takeEach_eq_firsts_iff (scans : List (List Event)) (events : List Event)
    (prefixes : ∀ part ∈ scans, part <+: events) (whole : events ∈ scans) :
    let kept := (Tracker.empty.takeEach scans).2
    kept.Sublist (firsts events) ∧
      kept.filter (·.kind = .delta) = events.filter (·.kind = .delta) ∧
      (kept = firsts events ↔ events.Pairwise fun d e => ¬ d.IsConfusedWith e) ∧
      ((∀ e ∈ events, e.call?.isSome → ':' ∉ e.agent.toList) → kept = firsts events) := by
  intro kept
  have once : kept = (Tracker.empty.take events).2 :=
    congrArg Prod.snd (takeEach_of_prefixes scans events prefixes whole)
  rw [once]
  refine ⟨take_sublist_firsts events, take_deltas events, take_eq_firsts_iff events,
    fun plain => (take_eq_firsts_iff events).mpr ?_⟩
  refine List.Pairwise.imp_of_mem ?_ (List.pairwise_of_forall fun _ _ => trivial)
  rintro d e hd he - confused
  obtain ⟨-, ⟨call, hasCall, other, hasOther, -⟩, -⟩ := id confused
  exact Event.not_confused_of_plain d e (plain d hd (Option.isSome_of_mem hasCall))
    (plain e he (Option.isSome_of_mem hasOther)) confused

theorem takeEach_told_twice :
    let call := Event.toolCall "a" "b:c"
    let events := [.delta "a:b" ".", call "look", .delta "a:b" ".", call "again",
      .toolResult "a:b" "c" "" false]
    let scans := [[], events.take 1, events.take 4, events.take 2, events]
    (∀ part ∈ scans, part <+: events) ∧ events ∈ scans ∧
      (Tracker.empty.takeEach scans).2 = firsts events ∧ (firsts events).length = 4 := by
  intro call events scans
  have prefixes : ∀ part ∈ scans, part <+: events := by decide
  have whole : events ∈ scans := by decide
  obtain ⟨-, -, exact, -⟩ := takeEach_eq_firsts_iff scans events prefixes whole
  exact ⟨prefixes, whole, exact.mpr (by decide), by decide⟩

theorem takeEach_not_always_firsts :
    ¬ ∀ (scans : List (List Event)) (events : List Event), (∀ part ∈ scans, part <+: events) →
      events ∈ scans → (Tracker.empty.takeEach scans).2 = firsts events := by
  intro always
  let events := [Event.toolCall "a:b" "c" "look", .toolCall "a" "b:c" "look"]
  have same := always [events] events (by simp) (by simp)
  exact absurd same (by decide)

end Tracker

end Playback.Agents
