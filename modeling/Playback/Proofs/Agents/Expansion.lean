import Playback.Proofs.Agents.Run
import Playback.Proofs.Agents.Scan
import Mathlib.Algebra.Ring.Parity
import Mathlib.Data.List.DropRight

/-!
Which agents are shown expanded. Only toggles, accepted starts and clears bear on it: an agent that
is expanded when it starts is so until it is toggled, and any other id is not so until then. What is
expanded bears on nothing else.
-/

namespace Playback.Agents

def Operation.isToggle : Operation → Bool
  | toggle _ => true
  | _ => false

def toggles (id : String) (ops : List Operation) : Nat := ops.count (.toggle id)

def upToClear (ops : List Operation) : List Operation := ops.rdropWhile (· ≠ .clear)

/-- The operations behind the last clear, or all if there is none. -/
def sinceClear (ops : List Operation) : List Operation := ops.rtakeWhile (· ≠ .clear)

theorem upToClear_append_sinceClear (ops : List Operation) :
    upToClear ops ++ sinceClear ops = ops :=
  List.rdropWhile_append_rtakeWhile

theorem clear_not_mem_sinceClear (ops : List Operation) : .clear ∉ sinceClear ops := by
  intro member
  simpa using List.mem_rtakeWhile_imp member

theorem upToClear_append (ops more : List Operation) (kept : .clear ∉ more) :
    upToClear (ops ++ more) = upToClear ops := by
  have others : ∀ op ∈ more.reverse, decide (op ≠ .clear) = true := by
    intro op member
    exact decide_eq_true (ne_of_mem_of_not_mem (List.mem_reverse.mp member) kept)
  simp only [upToClear, List.rdropWhile, List.reverse_append,
    List.dropWhile_append_of_pos others]

theorem sinceClear_append (ops more : List Operation) (kept : .clear ∉ more) :
    sinceClear (ops ++ more) = sinceClear ops ++ more := by
  have whole : upToClear (ops ++ more) ++ sinceClear (ops ++ more) =
      upToClear (ops ++ more) ++ (sinceClear ops ++ more) := by
    rw [upToClear_append_sinceClear, upToClear_append ops more kept, ← List.append_assoc,
      upToClear_append_sinceClear]
  exact List.append_cancel_left whole

theorem even_toggles_cons (id : String) (op : Operation) (ops : List Operation) :
    Even (toggles id (op :: ops)) ↔
      if op = .toggle id then ¬ Even (toggles id ops) else Even (toggles id ops) := by
  by_cases own : op = .toggle id
  · simp [toggles, own, Nat.even_add_one]
  · simp [toggles, own]

namespace Store

/-- An event starts an agent of the id, and the store takes it. -/
structure Starts (s : Store) (e : Event) (id : String) : Prop where
  kind : e.kind = .spawn
  agent : e.agent = id
  taken : s.tree.rejection? e = none

def StartsIn (s : Store) (events : List Event) (id : String) : Prop :=
  ∃ before e after, events = before ++ e :: after ∧ (s.handleAll before).Starts e id

/-- A start is taken in the course of some operations, and what comes after it has no clear. -/
def StartsBefore (s : Store) (id : String) (ops after : List Operation) : Prop :=
  ∃ before op, ops = before ++ op :: after ∧
    (s.run before).StartsIn ((s.run before).handed op) id ∧ .clear ∉ after

theorem not_startsIn_nil (s : Store) (id : String) : ¬ s.StartsIn [] id := by
  rintro ⟨before, e, after, split, -⟩
  simp at split

theorem startsIn_cons (s : Store) (e : Event) (events : List Event) (id : String) :
    s.StartsIn (e :: events) id ↔ s.Starts e id ∨ (s.handle e).StartsIn events id := by
  constructor
  · rintro ⟨before, d, after, split, starts⟩
    cases before with
    | nil =>
        obtain ⟨rfl, rfl⟩ := List.cons.inj split
        exact .inl starts
    | cons first before =>
        obtain ⟨rfl, rfl⟩ := List.cons.inj split
        exact .inr ⟨before, d, after, rfl, starts⟩
  · rintro (starts | ⟨before, d, after, rfl, starts⟩)
    · exact ⟨[], e, events, rfl, starts⟩
    · exact ⟨e :: before, d, after, rfl, starts⟩

theorem absent_of_starts (s : Store) (e : Event) (id : String) (starts : s.Starts e id) :
    s.tree.contains id = false := by
  obtain ⟨kind, rfl, taken⟩ := starts
  cases e with
  | spawn id => simpa [Tree.rejection?, Event.agent] using taken
  | _ => cases kind

theorem contains_handle (s : Store) (e : Event) (id : String) :
    (s.handle e).tree.contains id = true ↔ s.tree.contains id = true ∨ s.Starts e id := by
  have start : startedIn [e] id = true ↔ e.kind = .spawn ∧ e.agent = id := by
    cases e <;> simp [startedIn, Event.kind, Event.agent]
  rw [handle_tree, Tree.contains_next, start]
  by_cases present : s.tree.contains id = true
  · simp [present]
  · simp only [present, false_or, Bool.false_eq_true]
    constructor
    · rintro ⟨kind, rfl⟩
      refine ⟨kind, rfl, ?_⟩
      cases e with
      | spawn id => simpa [Tree.rejection?, Event.agent] using present
      | _ => cases kind
    · intro starts
      exact ⟨starts.kind, starts.agent⟩

theorem contains_handleAll (s : Store) (events : List Event) (id : String) :
    (s.handleAll events).tree.contains id = true ↔
      s.tree.contains id = true ∨ s.StartsIn events id := by
  induction events generalizing s with
  | nil => exact (or_iff_left (s.not_startsIn_nil id)).symm
  | cons e events ih =>
      change ((s.handle e).handleAll events).tree.contains id = true ↔ _
      rw [ih, contains_handle, startsIn_cons, or_assoc]

theorem absent_of_startsIn (s : Store) (events : List Event) (id : String)
    (starts : s.StartsIn events id) : s.tree.contains id = false := by
  obtain ⟨before, e, after, -, starts⟩ := starts
  have later := absent_of_starts _ e id starts
  rw [Bool.eq_false_iff, ne_eq, contains_handleAll] at later
  exact Bool.eq_false_iff.mpr (later ∘ .inl)

theorem contains_perform (s : Store) (op : Operation) (id : String) (other : op ≠ .clear) :
    (s.perform op).tree.contains id = true ↔
      s.tree.contains id = true ∨ s.StartsIn (s.handed op) id := by
  rw [s.perform_tree op other, contains_handleAll]

theorem contains_run (s : Store) (ops : List Operation) (id : String) (kept : .clear ∉ ops) :
    (s.run ops).tree.contains id = true ↔
      s.tree.contains id = true ∨ ∃ after, s.StartsBefore id ops after := by
  induction ops generalizing s with
  | nil =>
      refine (or_iff_left ?_).symm
      rintro ⟨after, before, op, split, -⟩
      simp at split
  | cons op ops ih =>
      rw [List.mem_cons, not_or] at kept
      change ((s.perform op).run ops).tree.contains id = true ↔ _
      rw [ih _ kept.2, contains_perform s op id (Ne.symm kept.1), or_assoc]
      refine or_congr_right ?_
      constructor
      · rintro (starts | ⟨after, before, last, rfl, starts, free⟩)
        · exact ⟨ops, [], op, rfl, starts, kept.2⟩
        · exact ⟨after, op :: before, last, rfl, starts, free⟩
      · rintro ⟨after, before, last, split, starts, free⟩
        cases before with
        | nil =>
            obtain ⟨rfl, rfl⟩ := List.cons.inj split
            exact .inl starts
        | cons first before =>
            obtain ⟨rfl, rfl⟩ := List.cons.inj split
            exact .inr ⟨after, before, last, rfl, starts, free⟩

theorem mem_expanded_toggle (s : Store) (k id : String) :
    id ∈ (s.toggle k).expanded ↔ if k = id then id ∉ s.expanded else id ∈ s.expanded := by
  by_cases own : k = id
  · subst own
    by_cases shown : k ∈ s.expanded <;> simp [toggle, expand, shown]
  · by_cases shown : k ∈ s.expanded <;> simp [toggle, expand, shown, own, Ne.symm own]

theorem mem_expanded_expandStarted (s : Store) (e : Event) (id : String) :
    id ∈ (s.expandStarted e).expanded ↔
      id ∈ s.expanded ∨ s.autoExpand = true ∧ e.kind = .spawn ∧ e.agent = id := by
  cases e with
  | spawn k =>
      cases auto : s.autoExpand with
      | false => simp [expandStarted, auto]
      | true =>
          by_cases shown : k ∈ s.expanded
          · simp only [expandStarted, expand, auto, shown, if_true, Event.kind, Event.agent,
              true_and]
            exact (or_iff_left_of_imp fun same => same ▸ shown).symm
          · simp [expandStarted, expand, auto, shown, Event.kind, Event.agent, or_comm, eq_comm]
  | _ => simp [expandStarted, Event.kind]

theorem mem_expanded_handle (s : Store) (e : Event) (id : String) :
    id ∈ (s.handle e).expanded ↔ id ∈ s.expanded ∨ s.autoExpand = true ∧ s.Starts e id := by
  rw [expanded_handle]
  split
  · rename_i taken
    rw [mem_expanded_expandStarted]
    have starts : s.Starts e id ↔ e.kind = .spawn ∧ e.agent = id :=
      ⟨fun h => ⟨h.kind, h.agent⟩, fun h => ⟨h.1, h.2, taken⟩⟩
    rw [starts]
  · rename_i refused
    exact (or_iff_left fun started => refused started.2.taken).symm

theorem mem_expanded_handleAll (s : Store) (events : List Event) (id : String) :
    id ∈ (s.handleAll events).expanded ↔
      id ∈ s.expanded ∨ s.autoExpand = true ∧ s.StartsIn events id := by
  induction events generalizing s with
  | nil => exact (or_iff_left fun started => s.not_startsIn_nil id started.2).symm
  | cons e events ih =>
      change id ∈ ((s.handle e).handleAll events).expanded ↔ _
      rw [ih, mem_expanded_handle, autoExpand_handle, startsIn_cons, or_assoc, and_or_left]

theorem mem_expanded_perform (s : Store) (op : Operation) (id : String) (other : op ≠ .clear) :
    id ∈ (s.perform op).expanded ↔
      (if op = .toggle id then id ∉ s.expanded else id ∈ s.expanded) ∨
        s.autoExpand = true ∧ s.StartsIn (s.handed op) id := by
  have taken (events : List Event) := s.mem_expanded_handleAll events id
  have silent (shown : Prop) : shown ↔ shown ∨ s.autoExpand = true ∧ s.StartsIn [] id :=
    (or_iff_left fun started => s.not_startsIn_nil id started.2).symm
  cases op with
  | handle e => exact taken [e]
  | process text =>
      simp only [perform, process, processWith_eq, reduceCtorEq, if_false]
      exact taken _
  | processWith tracker text =>
      simp only [perform, processWith_eq, reduceCtorEq, if_false]
      exact taken _
  | toggle k =>
      simp only [perform, mem_expanded_toggle, Operation.toggle.injEq]
      exact silent _
  | clear => exact absurd rfl other
  | _ => exact silent _

theorem autoExpand_perform (s : Store) (op : Operation) :
    (s.perform op).autoExpand = s.autoExpand := by
  cases op with
  | handle e => exact s.autoExpand_handle e
  | process text =>
      simp only [perform, process, processWith_eq]
      exact s.autoExpand_handleAll _
  | processWith tracker text =>
      simp only [perform, processWith_eq]
      exact s.autoExpand_handleAll _
  | toggle k =>
      obtain ⟨shown, same⟩ := s.exists_toggle k
      rw [perform, same]
  | _ => rfl

theorem autoExpand_run (s : Store) (ops : List Operation) :
    (s.run ops).autoExpand = s.autoExpand := by
  induction ops generalizing s with
  | nil => rfl
  | cons op ops ih => exact (ih (s.perform op)).trans (s.autoExpand_perform op)

/-- As long as an id is not expanded by a start, each toggle of it turns it round. -/
theorem mem_expanded_run (s : Store) (ops : List Operation) (id : String) (kept : .clear ∉ ops)
    (free : s.autoExpand = false ∨ s.tree.contains id = true ∨
      (s.run ops).tree.contains id = false) :
    id ∈ (s.run ops).expanded ↔ (id ∈ s.expanded ↔ Even (toggles id ops)) := by
  induction ops generalizing s with
  | nil => simp [run, toggles]
  | cons op ops ih =>
      rw [List.mem_cons, not_or] at kept
      have other := Ne.symm kept.1
      have present := s.contains_perform op id other
      have stays := (s.perform op).contains_run ops id kept.2
      -- No start expands the id: none does, or it is there already, or it never comes.
      have unstarted : ¬ (s.autoExpand = true ∧ s.StartsIn (s.handed op) id) := by
        rintro ⟨auto, starts⟩
        rcases free with manual | there | gone
        · exact Bool.false_ne_true (manual.symm.trans auto)
        · exact Bool.false_ne_true ((s.absent_of_startsIn _ id starts).symm.trans there)
        · exact Bool.false_ne_true (gone.symm.trans (stays.mpr (.inl (present.mpr (.inr starts)))))
      have freed : (s.perform op).autoExpand = false ∨
          (s.perform op).tree.contains id = true ∨
          ((s.perform op).run ops).tree.contains id = false := by
        rw [autoExpand_perform, present]
        exact free.imp_right (.imp_left .inl)
      have now := s.mem_expanded_perform op id other
      rw [or_iff_left unstarted] at now
      change id ∈ ((s.perform op).run ops).expanded ↔ _
      rw [ih _ kept.2 freed, now, even_toggles_cons]
      by_cases own : op = .toggle id
      · rw [if_pos own, if_pos own]
        exact not_iff_comm.trans iff_comm
      · rw [if_neg own, if_neg own]

theorem run_upToClear (autoExpand : Bool) (clock : Instant) (seed : Nat) (ops : List Operation) :
    let s := (new autoExpand clock seed).run (upToClear ops)
    s.expanded = [] ∧ ∀ id, s.tree.contains id = false := by
  intro s
  by_cases none : upToClear ops = []
  · have blank : s = new autoExpand clock seed := congrArg (Store.run _) none
    rw [blank]
    exact ⟨rfl, fun _ => rfl⟩
  · -- The last of these operations is the clear.
    have clears : (upToClear ops).getLast none = .clear := by
      by_contra other
      exact List.rdropWhile_last_not _ ops none (decide_eq_true other)
    have whole := (List.dropLast_append_getLast none).symm
    rw [clears] at whole
    have cleared : s = ((new autoExpand clock seed).run (upToClear ops).dropLast).clear := by
      refine (congrArg (Store.run _) whole).trans ?_
      rw [run, List.foldl_append]
      rfl
    rw [cleared]
    exact ⟨rfl, fun _ => rfl⟩

theorem run_sinceClear (s : Store) (ops : List Operation) :
    s.run ops = (s.run (upToClear ops)).run (sinceClear ops) := by
  rw [run, run, run, ← List.foldl_append, upToClear_append_sinceClear]

theorem startsBefore_sinceClear (s : Store) (id : String) (ops after : List Operation) :
    s.StartsBefore id ops after ↔
      (s.run (upToClear ops)).StartsBefore id (sinceClear ops) after := by
  constructor
  · rintro ⟨before, op, rfl, starts, free⟩
    have kept : .clear ∉ op :: after := by
      rw [List.mem_cons, not_or]
      refine ⟨?_, free⟩
      rintro rfl
      exact not_startsIn_nil _ id starts
    rw [upToClear_append before _ kept, sinceClear_append before _ kept]
    rw [run_sinceClear s before] at starts
    exact ⟨sinceClear before, op, rfl, starts, free⟩
  · rintro ⟨before, op, split, starts, free⟩
    refine ⟨upToClear ops ++ before, op, ?_, ?_, free⟩
    · rw [List.append_assoc, ← split, upToClear_append_sinceClear]
    · rw [run, List.foldl_append]
      exact starts

theorem exists_handleAll_shown (s : Store) (events : List Event) (shown : List String) :
    ∃ last, { s with expanded := shown }.handleAll events =
      { s.handleAll events with expanded := last } := by
  induction events generalizing s shown with
  | nil => exact ⟨shown, rfl⟩
  | cons e events ih =>
      obtain ⟨first, handled⟩ := { s with expanded := shown }.exists_handle e
      obtain ⟨second, also⟩ := s.exists_handle e
      have alike : { s with expanded := shown }.handle e =
          { s.handle e with expanded := first } := by
        rw [handled, also]
        rfl
      obtain ⟨last, rest⟩ := ih (s.handle e) first
      exact ⟨last, (congrArg (handleAll · events) alike).trans rest⟩

theorem exists_perform_shown (s : Store) (op : Operation) (shown : List String) :
    ∃ last, { s with expanded := shown }.perform op = { s.perform op with expanded := last } := by
  cases op with
  | handle e => exact s.exists_handleAll_shown [e] shown
  | process text =>
      obtain ⟨last, same⟩ := s.exists_handleAll_shown
        (s.tracker.take (Marker.parse text).events).2 shown
      simp only [perform, process, processWith_eq, same]
      exact ⟨last, rfl⟩
  | processWith tracker text =>
      obtain ⟨last, same⟩ := s.exists_handleAll_shown
        (tracker.take (Marker.parse text).events).2 shown
      simp only [perform, processWith_eq, same]
      exact ⟨last, rfl⟩
  | toggle k =>
      obtain ⟨first, toggled⟩ := { s with expanded := shown }.exists_toggle k
      obtain ⟨second, also⟩ := s.exists_toggle k
      simp only [perform, toggled, also]
      exact ⟨first, rfl⟩
  | clear => exact ⟨[], rfl⟩
  | _ => exact ⟨shown, rfl⟩

/-- A run goes as it would without its toggles, but for what is expanded. -/
theorem exists_run_untoggled (s : Store) (ops : List Operation) (shown : List String) :
    ∃ last, { s with expanded := shown }.run ops =
      { s.run (ops.filter (!·.isToggle)) with expanded := last } := by
  induction ops generalizing s shown with
  | nil => exact ⟨shown, rfl⟩
  | cons op ops ih =>
      cases toggles : op.isToggle with
      | true =>
          obtain ⟨k, rfl⟩ : ∃ k, op = .toggle k := by
            cases op with
            | toggle k => exact ⟨k, rfl⟩
            | _ => cases toggles
          obtain ⟨first, toggled⟩ := { s with expanded := shown }.exists_toggle k
          obtain ⟨last, rest⟩ := ih s first
          refine ⟨last, ?_⟩
          change ({ s with expanded := shown }.toggle k).run ops = _
          rw [toggled, List.filter_cons_of_neg (by simp [toggles])]
          exact rest
      | false =>
          obtain ⟨first, performed⟩ := s.exists_perform_shown op shown
          obtain ⟨last, rest⟩ := ih (s.perform op) first
          refine ⟨last, ?_⟩
          change ({ s with expanded := shown }.perform op).run ops = _
          rw [performed, List.filter_cons_of_pos (by simp [toggles])]
          exact rest

theorem applied_perform (s : Store) (op : Operation) (key : String) (other : op ≠ .clear)
    (known : key ∈ s.tracker.applied) : key ∈ (s.perform op).tracker.applied := by
  cases op with
  | handle e =>
      rw [perform, tracker_handle]
      exact known
  | process text =>
      simp only [perform, process, processWith_eq]
      exact (Tracker.mem_applied_takeAfter s.tracker [] _ key).mpr (.inl known)
  | processWith tracker text =>
      simp only [perform, processWith_eq, tracker_handleAll]
      exact known
  | toggle k =>
      obtain ⟨shown, same⟩ := s.exists_toggle k
      rw [perform, same]
      exact known
  | clear => exact absurd rfl other
  | _ => exact known

theorem applied_run (s : Store) (ops : List Operation) (key : String) (kept : .clear ∉ ops)
    (known : key ∈ s.tracker.applied) : key ∈ (s.run ops).tracker.applied := by
  induction ops generalizing s with
  | nil => exact known
  | cons op ops ih =>
      rw [List.mem_cons, not_or] at kept
      exact ih (s.perform op) kept.2 (s.applied_perform op key (Ne.symm kept.1) known)

/-- A scan of a text leaves a tracker that lets nothing of a beginning of it through again, as long
as it does not forget. -/
theorem take_of_remembered (tracker later : Tracker) (text part : String)
    (begins : part.toList <+: text.toList)
    (remembered : ∀ key ∈ (tracker.take (Marker.parse text).events).1.applied,
      key ∈ later.applied) :
    later.take (Marker.parse part).events = (later, []) := by
  obtain ⟨more, whole⟩ := Marker.parse_events_prefix part text begins
  apply Tracker.takeAfter_of_applied
  intro key member
  apply remembered
  rw [← whole, Tracker.take, Tracker.mem_applied_takeAfter]
  exact .inr (Tracker.mem_keysAfter_append [] _ more key member)

/-- A beginning of a text that the store took before changes nothing, whatever has been done since
but a clear. -/
theorem process_of_known (s : Store) (text part : String) (later : List Operation)
    (kept : .clear ∉ later) (begins : part.toList <+: text.toList) :
    (((s.process text).1.run later).process part).1 = (s.process text).1.run later := by
  have none : ((s.process text).1.run later).tracker.take (Marker.parse part).events =
      (((s.process text).1.run later).tracker, []) := by
    refine take_of_remembered s.tracker _ text part begins fun key member => ?_
    refine applied_run _ later key kept ?_
    simpa only [process, processWith_eq] using member
  generalize (s.process text).1.run later = t at none ⊢
  simp only [process, processWith_eq, none]
  rfl

theorem applied_takeEach (tracker : Tracker) (scans : List (List Event)) (key : String)
    (known : key ∈ tracker.applied) : key ∈ (tracker.takeEach scans).1.applied := by
  induction scans generalizing tracker with
  | nil => exact known
  | cons events scans ih =>
      exact ih _ ((Tracker.mem_applied_takeAfter tracker [] events key).mpr (.inl known))

theorem processWith_of_known (s t : Store) (tracker : Tracker) (text part : String)
    (later : List String) (begins : part.toList <+: text.toList) :
    let known := ((t.processWith tracker text).2.1.takeEach
      (later.map fun more => (Marker.parse more).events)).1
    (s.processWith known part).1 = s := by
  intro known
  have none : known.take (Marker.parse part).events = (known, []) := by
    refine take_of_remembered tracker known text part begins fun key member => ?_
    refine applied_takeEach _ _ key ?_
    rwa [processWith_eq]
  rw [processWith_eq, none]
  rfl

theorem isExpanded_of_startsBefore (s : Store) (id : String) (ops after : List Operation)
    (auto : s.autoExpand = true) (started : s.StartsBefore id ops after) :
    (s.run ops).isExpanded id = true ↔ Even (toggles id after) := by
  obtain ⟨before, op, rfl, starts, free⟩ := started
  obtain ⟨t, ht⟩ : ∃ t, t = (s.run before).perform op := ⟨_, rfl⟩
  have other : op ≠ .clear := by
    rintro rfl
    exact not_startsIn_nil _ id starts
  have there : t.tree.contains id = true := by
    rw [ht, contains_perform _ op id other]
    exact .inr starts
  have shown : id ∈ t.expanded := by
    rw [ht, mem_expanded_perform _ op id other, autoExpand_run]
    exact .inr ⟨auto, starts⟩
  have whole : s.run (before ++ op :: after) = t.run after := by
    rw [ht, run, List.foldl_append]
    rfl
  rw [whole, isExpanded, decide_eq_true_eq, t.mem_expanded_run after id free (.inr (.inl there))]
  exact iff_true_left shown

theorem isExpanded_of_not_startsBefore (autoExpand : Bool) (clock : Instant) (seed : Nat)
    (ops : List Operation) (id : String)
    (unstarted : autoExpand = false ∨
      ∀ after, ¬ (new autoExpand clock seed).StartsBefore id ops after) :
    ((new autoExpand clock seed).run ops).isExpanded id = true ↔
      Odd (toggles id (sinceClear ops)) := by
  obtain ⟨collapsed, absent⟩ := run_upToClear autoExpand clock seed ops
  obtain ⟨s, hs⟩ : ∃ s, s = (new autoExpand clock seed).run (upToClear ops) := ⟨_, rfl⟩
  have kept := clear_not_mem_sinceClear ops
  have free : s.autoExpand = false ∨ s.tree.contains id = true ∨
      (s.run (sinceClear ops)).tree.contains id = false := by
    rcases unstarted with manual | never
    · exact .inl (by rw [hs, autoExpand_run]; exact manual)
    · refine .inr (.inr ?_)
      rw [Bool.eq_false_iff, ne_eq, contains_run s _ id kept, hs, absent]
      simp only [← startsBefore_sinceClear, Bool.false_eq_true, false_or]
      exact not_exists.mpr never
  rw [run_sinceClear, ← hs, isExpanded, decide_eq_true_eq, s.mem_expanded_run _ id kept free, hs,
    collapsed]
  simp

theorem contains_iff_startsBefore (autoExpand : Bool) (clock : Instant) (seed : Nat)
    (ops : List Operation) (id : String) :
    ((new autoExpand clock seed).run ops).tree.contains id = true ↔
      ∃ after, (new autoExpand clock seed).StartsBefore id ops after := by
  obtain ⟨-, absent⟩ := run_upToClear autoExpand clock seed ops
  rw [run_sinceClear, contains_run _ _ id (clear_not_mem_sinceClear ops), absent]
  simp only [← startsBefore_sinceClear, Bool.false_eq_true, false_or]

theorem isExpanded_of_untoggled (autoExpand : Bool) (clock : Instant) (seed : Nat)
    (ops : List Operation) (id : String) (untoggled : .toggle id ∉ sinceClear ops) :
    ((new autoExpand clock seed).run ops).isExpanded id = true ↔
      autoExpand = true ∧ ((new autoExpand clock seed).run ops).tree.contains id = true := by
  rw [contains_iff_startsBefore]
  by_cases started : autoExpand = true ∧
      ∃ after, (new autoExpand clock seed).StartsBefore id ops after
  · obtain ⟨auto, after, starts⟩ := started
    have part : after <:+ sinceClear ops := by
      obtain ⟨before, op, split, -⟩ := (startsBefore_sinceClear _ id ops after).mp starts
      exact ⟨before ++ [op], by simp [split]⟩
    have none : toggles id after = 0 :=
      List.count_eq_zero.mpr fun member => untoggled (part.mem member)
    rw [isExpanded_of_startsBefore _ id ops after auto starts, none]
    exact iff_of_true Even.zero ⟨auto, after, starts⟩
  · have unstarted : autoExpand = false ∨
        ∀ after, ¬ (new autoExpand clock seed).StartsBefore id ops after := by
      rwa [not_and_or, Bool.not_eq_true, not_exists] at started
    have none : toggles id (sinceClear ops) = 0 := List.count_eq_zero.mpr untoggled
    rw [isExpanded_of_not_startsBefore autoExpand clock seed ops id unstarted, none]
    exact iff_of_false (by decide) started

/-- If starts expand, an agent is expanded as long as it was toggled an even number of times since
its start. Any other id is expanded as long as it was toggled an odd number of times since the last
clear. An event that is refused, a second start of an agent and text that comes again change
nothing, and toggles change nothing else: the tree is as it would be without them, and so are the
events that are taken from a text. -/
theorem expanded_as_toggled (autoExpand : Bool) (clock : Instant) (seed : Nat)
    (ops : List Operation) :
    let begun := new autoExpand clock seed
    let s := begun.run ops
    let plain := begun.run (ops.filter (!·.isToggle))
    (∀ id after, autoExpand = true → begun.StartsBefore id ops after →
        (s.isExpanded id = true ↔ Even (toggles id after))) ∧
      (∀ id, (autoExpand = false ∨ ∀ after, ¬ begun.StartsBefore id ops after) →
        (s.isExpanded id = true ↔ Odd (toggles id (sinceClear ops)))) ∧
      (∀ id, s.tree.contains id = true ↔ ∃ after, begun.StartsBefore id ops after) ∧
      (∀ e, s.tree.rejection? e ≠ none → s.handle e = s) ∧
      (∀ id parent name description task, s.tree.contains id = true →
        s.handle (.spawn id parent name description task) = s) ∧
      (∀ (text part : String) later, .clear ∉ later → part.toList <+: text.toList →
        (((s.process text).1.run later).process part).1 = (s.process text).1.run later) ∧
      (∀ (t : Store) (tracker : Tracker) (text part : String) (later : List String),
        part.toList <+: text.toList →
        let known := ((t.processWith tracker text).2.1.takeEach
          (later.map fun more => (Marker.parse more).events)).1
        (s.processWith known part).1 = s) ∧
      (∀ id, (s.toggle id).tree = s.tree) ∧
      (s.tree = plain.tree ∧ ∀ op, s.handed op = plain.handed op) ∧
      ∀ id, .toggle id ∉ sinceClear ops →
        (s.isExpanded id = true ↔ autoExpand = true ∧ s.tree.contains id = true) := by
  intro begun s plain
  refine ⟨?_, isExpanded_of_not_startsBefore autoExpand clock seed ops,
    contains_iff_startsBefore autoExpand clock seed ops, s.handle_of_refused, ?_,
    s.process_of_known, s.processWith_of_known, s.toggle_tree, ?_,
    isExpanded_of_untoggled autoExpand clock seed ops⟩
  · intro id after auto started
    exact isExpanded_of_startsBefore begun id ops after auto started
  · intro id parent name description task there
    apply s.handle_of_refused
    simp [Tree.rejection?, there]
  · obtain ⟨shown, same⟩ := begun.exists_run_untoggled ops begun.expanded
    have alike : s = { plain with expanded := shown } := same
    rw [alike]
    refine ⟨rfl, ?_⟩
    intro op
    cases op <;> rfl

theorem expanded_as_toggled_collapsed :
    let start : Operation := .handle (.spawn "a" none "" "" "")
    let before : List Operation := [.toggle "a", start, .clear, .toggle "a"]
    let after : List Operation := [.toggle "a", start, .toggle "b"]
    let begun := new true default 0
    let s := begun.run (before ++ start :: after)
    begun.StartsBefore "a" (before ++ start :: after) after ∧ s.tree.contains "a" = true ∧
      s.isExpanded "a" = false ∧ s.isExpanded "b" = true := by
  intro start before after begun s
  obtain ⟨law, others, there, -⟩ :=
    expanded_as_toggled true default 0 (before ++ start :: after)
  have started : begun.StartsBefore "a" (before ++ start :: after) after :=
    ⟨before, start, rfl, ⟨[], _, [], rfl, rfl, rfl, by decide +kernel⟩, by decide⟩
  have absent : ∀ after', ¬ begun.StartsBefore "b" (before ++ start :: after) after' := by
    rw [← not_exists, ← there "b"]
    decide +kernel
  refine ⟨started, (there "a").mpr ⟨after, started⟩, ?_, ?_⟩
  · rw [Bool.eq_false_iff, ne_eq, law "a" after rfl started]
    decide
  · rw [others "b" (.inr absent)]
    decide +kernel

end Store

end Playback.Agents
