import Playback.Agents.Inspection
import Playback.Proofs.Agents.Acceptance
import Playback.Proofs.Agents.Delivery
import Playback.Proofs.Agents.Document
import Playback.Proofs.Agents.Repetition
import Playback.Proofs.Agents.Run

/-!
A text inspected as a whole, where a store is given every event of it, against the same text given
to a store as a text, where a tracker lets every key through once. Both find the same agents; they
part where the store takes an event whose key has been met before.
-/

namespace Playback.Agents

namespace Store

/-- A store that was given no more than another: its agents are the same, but they may have said and
done less. -/
structure Behind (u s : Store) : Prop where
  autoExpand : u.autoExpand = s.autoExpand
  expanded : u.expanded = s.expanded
  outline : u.tree.outline = s.tree.outline
  version_le : u.tree.version ≤ s.tree.version
  knows : ∀ id call, u.tree.Knows id call → s.tree.Knows id call

section Step

variable (u s : Store) (e : Event) (behind : u.Behind s)

include behind

theorem Behind.takes (taken : u.tree.rejection? e = none) : s.tree.rejection? e = none := by
  rw [Tree.rejection?_eq_none_iff] at taken ⊢
  cases e with
  | toolResult id call result isError => exact behind.knows id call taken
  | _ => exact (Tree.contains_of_outline _ _ behind.outline _).symm.trans taken

theorem Behind.starts (start : e.kind = .spawn) :
    u.tree.rejection? e = none ↔ s.tree.rejection? e = none := by
  cases e with
  | spawn id parent name description task =>
      rw [Tree.rejection?_eq_none_iff, Tree.rejection?_eq_none_iff]
      simp only [Tree.contains_of_outline _ _ behind.outline id]
  | _ => cases start

/-- A store stays behind when both are given an event. -/
theorem Behind.both : (u.handle e).Behind (s.handle e) where
  autoExpand := by
    rw [autoExpand_handle, autoExpand_handle]
    exact behind.autoExpand
  expanded := by
    have same := expandStarted_congr u s e behind.autoExpand behind.expanded
    rw [expanded_handle, expanded_handle, same]
    by_cases start : e.kind = .spawn
    · simp only [behind.starts u s e start, behind.expanded]
    · have none : (s.expandStarted e).expanded = s.expanded := by
        cases e with
        | spawn id => exact absurd rfl start
        | _ => rfl
      rw [none, behind.expanded, ite_self, ite_self]
  outline := by
    rw [handle_tree, handle_tree]
    exact Tree.outline_next_congr _ _ _ _ e behind.outline
  version_le := by
    have ahead := behind.version_le
    rw [version_handle, version_handle]
    by_cases taken : u.tree.rejection? e = none
    · rw [if_pos taken, if_pos (behind.takes u s e taken)]
      omega
    · rw [if_neg taken]
      split <;> omega
  knows := by
    intro id call known
    rw [handle_tree, Tree.knows_next_iff] at known ⊢
    rcases known with known | ⟨present, made⟩
    · exact .inl (behind.knows id call known)
    · exact .inr ⟨(Tree.contains_of_outline _ _ behind.outline id).symm.trans present, made⟩

/-- It falls further behind when the other takes an event that it is not given. -/
theorem Behind.ahead (known : e.kind = .spawn → s.tree.contains e.agent = true) :
    u.Behind (s.handle e) where
  autoExpand := by
    rw [autoExpand_handle]
    exact behind.autoExpand
  expanded := by
    rw [expanded_handle, behind.expanded]
    split
    · rename_i taken
      cases e with
      | spawn id parent name description task =>
          have absent := (Tree.rejection?_eq_none_iff _ _).mp taken
          exact absurd ((known rfl).symm.trans absent) Bool.false_ne_true.symm
      | _ => rfl
    · rfl
  outline := by
    rw [handle_tree, Tree.outline_next_of_not_started _ _ e known]
    exact behind.outline
  version_le := by
    have ahead := behind.version_le
    rw [version_handle]
    split <;> omega
  knows := by
    intro id call known
    rw [handle_tree, Tree.knows_next_iff]
    exact .inl (behind.knows id call known)

end Step

def TakesMet (s : Store) (events : List Event) : Prop :=
  ∃ before e after, events = before ++ e :: after ∧ Tracker.Met before e ∧
    (s.handleAll before).tree.rejection? e = none

theorem takesMet_concat_iff (s : Store) (events : List Event) (e : Event) :
    s.TakesMet (events ++ [e]) ↔
      s.TakesMet events ∨
        (Tracker.Met events e ∧ (s.handleAll events).tree.rejection? e = none) := by
  constructor
  · rintro ⟨before, d, after, split, met, taken⟩
    rcases List.eq_nil_or_concat after with rfl | ⟨earlier, last, rfl⟩
    · obtain ⟨rfl, last⟩ := List.append_inj' split rfl
      obtain rfl := List.singleton_inj.mp last
      exact .inr ⟨met, taken⟩
    · have whole : events ++ [e] = (before ++ d :: earlier) ++ [last] := by simpa using split
      obtain ⟨rfl, -⟩ := List.append_inj' whole rfl
      exact .inl ⟨before, d, earlier, rfl, met, taken⟩
  · rintro (⟨before, d, after, rfl, met, taken⟩ | ⟨met, taken⟩)
    · exact ⟨before, d, after ++ [e], by simp, met, taken⟩
    · exact ⟨events, e, [], rfl, met, taken⟩

theorem handleAll_concat (s : Store) (events : List Event) (e : Event) :
    s.handleAll (events ++ [e]) = (s.handleAll events).handle e :=
  s.handleAll_append events [e]

/-- Where nothing is taken twice, it makes no difference what the tracker holds back. -/
theorem handleAll_take_of_not_takesMet (u s : Store) (events : List Event)
    (alike : u.unstamped = s.unstamped) (once : ¬ s.TakesMet events) :
    (u.handleAll (Tracker.empty.take events).2).unstamped = (s.handleAll events).unstamped := by
  induction events using List.reverseRecOn with
  | nil => exact alike
  | append_singleton events e ih =>
      rw [takesMet_concat_iff, not_or, not_and] at once
      have before := ih once.1
      rw [Tracker.take_concat, handleAll_concat]
      split
      · rename_i met
        rw [List.append_nil, handle_of_refused _ e (once.2 met)]
        exact before
      · rw [handleAll_concat]
        exact handle_congr e _ _ before

theorem contains_of_met (s : Store) (events : List Event) (e : Event) (start : s.tree = .empty)
    (met : Tracker.Met events e) (isSpawn : e.kind = .spawn) :
    (s.handleAll events).tree.contains e.agent = true := by
  have reflects := s.reflects_handleAll events [] (start ▸ Tree.isForest_empty 0)
    (start ▸ Tree.reflects_empty 0)
  rw [reflects.present, List.nil_append]
  cases e with
  | spawn id parent name description task =>
      obtain ⟨d, member, same⟩ :=
        (Tracker.met_iff_of_not_delta events _ (by simp [Event.kind])).mp met
      obtain ⟨kind, agent⟩ := d.agent_of_key_eq_spawn id parent name description task same
      cases d with
      | spawn => exact List.any_eq_true.mpr ⟨_, member, beq_iff_eq.mpr agent⟩
      | _ => cases kind
  | _ => cases isSpawn

/-- With the events that a tracker lets through, a store comes behind one with all of them; further
behind, if one that was held back was taken there. -/
theorem behind_take (u s : Store) (events : List Event) (start : s.tree = .empty)
    (behind : u.Behind s) :
    (u.handleAll (Tracker.empty.take events).2).Behind (s.handleAll events) ∧
      (s.TakesMet events →
        (u.handleAll (Tracker.empty.take events).2).tree.version <
          (s.handleAll events).tree.version) := by
  induction events using List.reverseRecOn with
  | nil =>
      refine ⟨behind, ?_⟩
      rintro ⟨before, e, after, split, -⟩
      simp at split
  | append_singleton events e ih =>
      obtain ⟨before, further⟩ := ih
      rw [Tracker.take_concat, handleAll_concat, takesMet_concat_iff]
      by_cases met : Tracker.Met events e
      · -- Only the other store is given the event, and a start it refuses.
        rw [if_pos met, List.append_nil]
        refine ⟨before.ahead _ _ e (s.contains_of_met events e start met), ?_⟩
        have le := before.version_le
        rw [version_handle]
        rintro (earlier | ⟨-, taken⟩)
        · have := further earlier
          split <;> omega
        · rw [if_pos taken]
          omega
      · rw [if_neg met, handleAll_concat]
        refine ⟨before.both _ _ e, ?_⟩
        rintro (earlier | ⟨again, -⟩)
        · have lt := further earlier
          rw [version_handle, version_handle]
          split
          · rename_i taken
            rw [if_pos (before.takes _ _ e taken)]
            omega
          · split <;> omega
        · exact absurd again met

end Store

namespace Inspection

section Sample

open Marker (document parse_events_markers)

def restarted : List Event :=
  [.spawn "a" none "b" "" "", .spawn "a" none "c" "" "", .complete "a" .succeeded none none]

def endedTwice : List Event :=
  [.spawn "a" none "b" "" "", .complete "a" .succeeded none none,
    .complete "a" .failed none none]

end Sample

end Inspection

end Playback.Agents
