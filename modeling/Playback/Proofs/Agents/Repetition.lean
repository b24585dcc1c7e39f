import Playback.Proofs.Agents.Tracking
import Mathlib.Data.List.Basic

namespace Playback.Agents

namespace Event

/-- Does a later event say over again what an earlier one said? It is of the same kind, about the
same agent and, for a tool call or its result, about the same call. -/
def IsRepeatedBy : Event → Event → Prop
  | spawn a .., spawn b .. => a = b
  | toolCall a call _, toolCall b other _ => a = b ∧ call = other
  | toolResult a call .., toolResult b other .. => a = b ∧ call = other
  | complete a .., complete b .. => a = b
  | _, _ => False

def call? : Event → Option String
  | toolCall _ call _ => some call
  | toolResult _ call .. => some call
  | _ => none

theorem isRepeatedBy_iff (d e : Event) :
    d.IsRepeatedBy e ↔
      e.kind ≠ .delta ∧ d.kind = e.kind ∧ d.agent = e.agent ∧ d.call? = e.call? := by
  cases d <;> cases e <;> simp [IsRepeatedBy, kind, agent, call?]

instance : DecidableRel IsRepeatedBy := fun d e => decidable_of_iff _ (isRepeatedBy_iff d e).symm

/-- Are two events about different calls, or the results of such, that are written alike when the
agent stands before the call? -/
def IsConfusedWith (d e : Event) : Prop :=
  d.kind = e.kind ∧ (∃ call ∈ d.call?, ∃ other ∈ e.call?,
    d.agent ++ ":" ++ call = e.agent ++ ":" ++ other) ∧ ¬ d.IsRepeatedBy e

instance : DecidableRel IsConfusedWith := fun _ _ => inferInstanceAs (Decidable (_ ∧ _ ∧ _))

theorem kind_eq_of_key_eq (d e : Event) (other : e.kind ≠ .delta) (same : d.key = e.key) :
    d.kind = e.kind := by
  have chars := congrArg String.toList same
  cases d <;> cases e <;> simp [key, kind] at chars other ⊢

/-- An event that is no delta has the key of what it repeats, and of what it is confused with. -/
theorem key_eq_iff (d e : Event) (other : e.kind ≠ .delta) :
    d.key = e.key ↔ d.IsRepeatedBy e ∨ d.IsConfusedWith e := by
  have alike : d.IsRepeatedBy e ∨ d.IsConfusedWith e ↔ d.IsRepeatedBy e ∨ d.kind = e.kind ∧
      ∃ call ∈ d.call?, ∃ other ∈ e.call?,
        d.agent ++ ":" ++ call = e.agent ++ ":" ++ other := by
    unfold IsConfusedWith
    tauto
  rw [alike]
  by_cases kinds : d.kind = e.kind
  · -- Of one kind, keys differ as the agents do, or as agent and call do that are written together.
    cases d <;> cases e <;> simp [kind] at kinds other
    all_goals simp [key, kind, agent, call?, IsRepeatedBy, String.append_assoc]
    all_goals
      rintro rfl rfl
      rfl
  · have differ : d.key ≠ e.key := kinds ∘ kind_eq_of_key_eq d e other
    have fresh : ¬ d.IsRepeatedBy e := fun again => kinds ((isRepeatedBy_iff d e).mp again).2.1
    simp [differ, fresh, kinds]

theorem key_of_isRepeatedBy (d e : Event) (again : d.IsRepeatedBy e) :
    e.kind ≠ .delta ∧ d.key = e.key := by
  have other := ((isRepeatedBy_iff d e).mp again).1
  exact ⟨other, (key_eq_iff d e other).mpr (.inl again)⟩

theorem agent_of_key_eq_spawn (d : Event) (id : String) (parent : Option String)
    (name description task : String) (same : d.key = (spawn id parent name description task).key) :
    d.kind = .spawn ∧ d.agent = id := by
  rcases (key_eq_iff d _ (by simp [kind])).mp same with again | ⟨-, ⟨-, -, other, hasCall, -⟩, -⟩
  · obtain ⟨-, kinds, agents, -⟩ := (isRepeatedBy_iff d _).mp again
    exact ⟨kinds, agents⟩
  · cases hasCall

theorem eq_delta_of_kind (e : Event) (isDelta : e.kind = .delta) :
    ∃ agent content, e = delta agent content := by
  cases e with
  | delta agent content => exact ⟨agent, content, rfl⟩
  | _ => cases isDelta

theorem key_ne_delta (e : Event) (other : e.kind ≠ .delta) (rest : String) :
    e.key ≠ "delta:" ++ rest := by
  intro same
  have chars := congrArg String.toList same
  cases e <;> simp [key, kind] at chars other

end Event

namespace Tracker

def Met (before : List Event) (e : Event) : Prop := keyAfter before e ∈ keysAfter [] before

instance (before : List Event) (e : Event) : Decidable (Met before e) :=
  inferInstanceAs (Decidable (_ ∈ _))

theorem keyAfter_of_not_delta (before : List Event) (e : Event) (other : e.kind ≠ .delta) :
    keyAfter before e = e.key := by
  cases e with
  | delta agent content => exact absurd rfl other
  | _ => rfl

theorem keyAfter_delta_ne (before : List Event) (agent content : String) (e : Event)
    (other : e.kind ≠ .delta) : keyAfter before (.delta agent content) ≠ e.key := by
  intro same
  simp only [keyAfter, String.append_assoc] at same
  exact Event.key_ne_delta e other _ same.symm

theorem mem_keysAfter_iff (start events : List Event) (key : String) :
    key ∈ keysAfter start events ↔
      ∃ before d after, events = before ++ d :: after ∧ keyAfter (start ++ before) d = key := by
  induction events generalizing start with
  | nil => simp [keysAfter]
  | cons e events ih =>
      rw [keysAfter, List.mem_cons, ih]
      constructor
      · rintro (rfl | ⟨before, d, after, rfl, same⟩)
        · exact ⟨[], e, events, rfl, by rw [List.append_nil]⟩
        · exact ⟨e :: before, d, after, rfl, by rw [← same, List.append_assoc]; rfl⟩
      · rintro ⟨before, d, after, split, same⟩
        cases before with
        | nil =>
            obtain ⟨rfl, rfl⟩ := List.cons.inj split
            rw [List.append_nil] at same
            exact .inl same.symm
        | cons first before =>
            obtain ⟨rfl, rfl⟩ := List.cons.inj split
            refine .inr ⟨before, d, after, rfl, ?_⟩
            rw [List.append_assoc]
            exact same

/-- What stands before the last mark is told by the mark if none comes after it. -/
theorem eq_of_mark (mark : Char) (first second last other : List Char) (lastFree : mark ∉ last)
    (otherFree : mark ∉ other) (same : first ++ mark :: last = second ++ mark :: other) :
    first = second ∧ last = other := by
  rcases List.append_eq_append_iff.mp same with ⟨more, rfl, shift⟩ | ⟨more, rfl, shift⟩
  · cases more with
    | nil => exact ⟨(List.append_nil first).symm, (List.cons.inj shift).2⟩
    | cons c more =>
        obtain ⟨rfl, rfl⟩ := List.cons.inj shift
        simp at lastFree
  · cases more with
    | nil => exact ⟨List.append_nil second, (List.cons.inj shift).2.symm⟩
    | cons c more =>
        obtain ⟨rfl, rfl⟩ := List.cons.inj shift
        simp at otherFree

theorem hash_notMem_toDigits (n : Nat) : '#' ∉ Nat.toDigits 10 n := by
  intro member
  have digit := Nat.isDigit_of_mem_toDigits (by decide) (by decide) member
  exact absurd digit (by decide)

theorem delta_key_inj (a b : String) (m n : Nat)
    (same : "delta:" ++ a ++ "#" ++ toString m = "delta:" ++ b ++ "#" ++ toString n) :
    a = b ∧ m = n := by
  have chars := congrArg String.toList same
  simp only [Nat.toString_eq_repr, Nat.repr_eq_ofList_toDigits, String.toList_append,
    String.toList_ofList, List.append_assoc] at chars
  have marked : a.toList ++ '#' :: Nat.toDigits 10 m = b.toList ++ '#' :: Nat.toDigits 10 n :=
    List.append_cancel_left chars
  obtain ⟨agents, digits⟩ := eq_of_mark '#' _ _ _ _ (hash_notMem_toDigits m)
    (hash_notMem_toDigits n) marked
  have numbers : m = n := by
    have values := congrArg (Nat.ofDigitChars 10 · 0) digits
    simpa using values
  exact ⟨String.toList_inj.mp agents, numbers⟩

/-- The deltas of one agent are numbered, so none has been met before. -/
theorem not_met_delta (before : List Event) (agent content : String) :
    ¬ Met before (.delta agent content) := by
  intro met
  obtain ⟨earlier, d, after, rfl, same⟩ := (mem_keysAfter_iff [] before _).mp met
  rw [List.nil_append] at same
  by_cases delta : d.kind = .delta
  · obtain ⟨other, text, rfl⟩ := d.eq_delta_of_kind delta
    obtain ⟨rfl, count⟩ := delta_key_inj _ _ _ _ same
    rw [List.countP_append, List.countP_cons] at count
    simp [Event.kind, Event.agent] at count
  · rw [keyAfter_of_not_delta earlier d delta] at same
    exact keyAfter_delta_ne _ agent content d delta same.symm

theorem met_iff_of_not_delta (before : List Event) (e : Event) (other : e.kind ≠ .delta) :
    Met before e ↔ ∃ d ∈ before, d.key = e.key := by
  rw [Met, keyAfter_of_not_delta before e other, mem_keysAfter_iff]
  constructor
  · rintro ⟨earlier, d, after, rfl, same⟩
    refine ⟨d, by simp, ?_⟩
    cases d with
    | delta agent text => exact absurd same (keyAfter_delta_ne _ agent text e other)
    | _ => exact same
  · rintro ⟨d, member, same⟩
    obtain ⟨earlier, after, rfl⟩ := List.append_of_mem member
    refine ⟨earlier, d, after, rfl, ?_⟩
    cases d with
    | delta agent text =>
        rw [Event.key] at same
        simp only [String.append_assoc] at same
        exact absurd same.symm (Event.key_ne_delta e other _)
    | _ => exact same

theorem take_concat (events : List Event) (e : Event) :
    (Tracker.empty.take (events ++ [e])).2 =
      (Tracker.empty.take events).2 ++ if Met events e then [] else [e] := by
  have known : keyAfter events e ∈ (Tracker.empty.takeAfter [] events).1.applied ↔
      Met events e := by
    rw [mem_applied_takeAfter]
    simp [Met, Tracker.empty]
  simp only [take, takeAfter_append, List.nil_append, takeAfter]
  by_cases met : Met events e
  · rw [if_pos met, if_pos (known.mpr met)]
  · rw [if_neg met, if_neg (met ∘ known.mp)]

end Tracker

end Playback.Agents
