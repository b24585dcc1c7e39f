import Playback.Agents.Store
import Mathlib.Data.List.Infix

namespace Playback.Agents

namespace Tracker

def keysAfter (before : List Event) : List Event → List String
  | [] => []
  | e :: rest => keyAfter before e :: keysAfter (before ++ [e]) rest

theorem takeAfter_append (t : Tracker) (before first second : List Event) :
    t.takeAfter before (first ++ second) =
      (((t.takeAfter before first).1.takeAfter (before ++ first) second).1,
        (t.takeAfter before first).2 ++
          ((t.takeAfter before first).1.takeAfter (before ++ first) second).2) := by
  induction first generalizing t before with
  | nil => simp [takeAfter]
  | cons e first ih =>
      by_cases known : keyAfter before e ∈ t.applied
      · simp [takeAfter, known, ih]
      · simp [takeAfter, known, ih]

theorem mem_applied_takeAfter (t : Tracker) (before events : List Event) (key : String) :
    key ∈ (t.takeAfter before events).1.applied ↔
      key ∈ t.applied ∨ key ∈ keysAfter before events := by
  induction events generalizing t before with
  | nil => simp [takeAfter, keysAfter]
  | cons e events ih =>
      by_cases known : keyAfter before e ∈ t.applied
      · simp only [takeAfter, known, if_true, ih, keysAfter, List.mem_cons]
        constructor
        · rintro (old | new)
          · exact .inl old
          · exact .inr (.inr new)
        · rintro (old | rfl | new)
          · exact .inl old
          · exact .inl known
          · exact .inr new
      · simp only [takeAfter, known, if_false, ih, keysAfter, List.mem_cons]
        tauto

theorem takeAfter_of_applied (t : Tracker) (before events : List Event)
    (known : ∀ key ∈ keysAfter before events, key ∈ t.applied) :
    t.takeAfter before events = (t, []) := by
  induction events generalizing before with
  | nil => rfl
  | cons e events ih =>
      simp only [keysAfter, List.forall_mem_cons] at known
      simp only [takeAfter, known.1, if_true]
      exact ih (before ++ [e]) known.2

theorem mem_keysAfter_append (before first second : List Event) (key : String)
    (member : key ∈ keysAfter before first) : key ∈ keysAfter before (first ++ second) := by
  induction first generalizing before with
  | nil => cases member
  | cons e first ih =>
      rcases List.mem_cons.mp member with rfl | member
      · exact List.mem_cons_self
      · exact List.mem_cons_of_mem _ (ih (before ++ [e]) member)

theorem take_known (t : Tracker) (part events : List Event) (begins : part <+: events) :
    (t.take events).1.take part = ((t.take events).1, []) := by
  obtain ⟨more, rfl⟩ := begins
  apply takeAfter_of_applied
  intro key member
  exact (mem_applied_takeAfter t [] (part ++ more) key).mpr
    (.inr (mem_keysAfter_append [] part more key member))

/-- A scan of more than was seen before yields what one scan of it all would have added. -/
theorem take_grown (t : Tracker) (part events : List Event) (begins : part <+: events) :
    ((t.take part).1.take events).1 = (t.take events).1 ∧
      (t.take part).2 ++ ((t.take part).1.take events).2 = (t.take events).2 := by
  obtain ⟨more, rfl⟩ := begins
  have seen := take_known t part part (List.prefix_refl part)
  simp only [take] at seen ⊢
  simp only [takeAfter_append, seen, List.nil_append, and_self]

def takeEach (t : Tracker) : List (List Event) → Tracker × List Event
  | [] => (t, [])
  | events :: rest =>
    let (now, fresh) := t.take events
    let (last, later) := now.takeEach rest
    (last, fresh ++ later)

/-- After any scans the tracker knows, and has let through, what one scan of the longest of them
would have yielded. -/
theorem takeEach_covers (scans : List (List Event)) (events done : List Event)
    (within : done <+: events) (prefixes : ∀ part ∈ scans, part <+: events) :
    ∃ all, all <+: events ∧ done <+: all ∧ (∀ part ∈ scans, part <+: all) ∧
      ((empty.take done).1.takeEach scans).1 = (empty.take all).1 ∧
      (empty.take done).2 ++ ((empty.take done).1.takeEach scans).2 = (empty.take all).2 := by
  induction scans generalizing done with
  | nil => exact ⟨done, within, List.prefix_refl done, by simp, rfl, by simp [takeEach]⟩
  | cons part scans ih =>
      obtain ⟨here, later⟩ := List.forall_mem_cons.mp prefixes
      simp only [takeEach]
      rcases List.prefix_or_prefix_of_prefix here within with short | long
      · have known := take_known empty _ _ short
        simp only [known, List.nil_append]
        obtain ⟨all, hwithin, hdone, hscans, htracker, hfresh⟩ := ih done within later
        exact ⟨all, hwithin, hdone, List.forall_mem_cons.mpr ⟨short.trans hdone, hscans⟩,
          htracker, hfresh⟩
      · obtain ⟨trackers, fresh⟩ := take_grown empty _ _ long
        simp only [trackers, ← List.append_assoc, fresh]
        obtain ⟨all, hwithin, hdone, hscans, htracker, hfresh⟩ := ih part here later
        exact ⟨all, hwithin, long.trans hdone, List.forall_mem_cons.mpr ⟨hdone, hscans⟩,
          htracker, hfresh⟩

theorem takeEach_of_prefixes (scans : List (List Event)) (events : List Event)
    (prefixes : ∀ part ∈ scans, part <+: events) (whole : events ∈ scans) :
    empty.takeEach scans = empty.take events := by
  obtain ⟨all, within, -, covered, tracker, fresh⟩ :=
    takeEach_covers scans events [] List.nil_prefix prefixes
  have complete : all = events := within.eq_of_length_le (covered events whole).length_le
  subst complete
  exact Prod.ext tracker fresh

end Tracker

theorem Store.processWith_eq (s : Store) (tracker : Tracker) (text : String) :
    s.processWith tracker text =
      (s.handleAll (tracker.take (Marker.parse text).events).2,
        (tracker.take (Marker.parse text).events).1, (Marker.parse text).clean) := by
  simp only [processWith, takeParsed]

theorem Store.process_tree (s : Store) (text : String) :
    (s.process text).1.tree =
      (s.handleAll (s.tracker.take (Marker.parse text).events).2).tree := by
  simp only [process, processWith_eq]

end Playback.Agents
