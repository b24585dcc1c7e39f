import Playback.Proofs.Agents.Run

/-!
A clear leaves nothing behind but the count of versions. A store that is cleared goes on as a new
one does, however full it was, and is always ahead of that by the versions it had, and one.
-/

namespace Playback.Agents

namespace Tree

def raised (t : Tree) (k : Nat) : Tree := { t with version := t.version + k }

@[simp] theorem raised_contains (t : Tree) (k : Nat) (id : String) :
    (t.raised k).contains id = t.contains id := rfl

@[simp] theorem raised_rejection? (t : Tree) (k : Nat) (e : Event) :
    (t.raised k).rejection? e = t.rejection? e := by
  cases e <;> rfl

theorem raised_unstamped (t : Tree) (k : Nat) :
    (t.raised k).unstamped = t.unstamped.raised k := rfl

theorem insert_raised (t : Tree) (k : Nat) (a : Agent) :
    (t.raised k).insert a = (t.insert a).raised k := by
  unfold insert
  rw [raised_contains]
  split <;> rfl

theorem addAgent_raised (t : Tree) (k : Nat) (stamp : Stamp) (id : String) (parent : Option String)
    (name description task : String) :
    (t.raised k).addAgent stamp id parent name description task =
      (t.addAgent stamp id parent name description task).raised k := by
  unfold addAgent
  cases namedParent parent with
  | none => exact insert_raised { t with roots := t.roots ++ [id] } k _
  | some p =>
      by_cases present : t.contains p
      · simp only [raised_contains, present, if_true]
        exact insert_raised (t.modify p (·.addChild id)) k _
      · simp only [raised_contains, present]
        exact insert_raised t k _

theorem apply_raised (t : Tree) (k : Nat) (stamp : Stamp) (e : Event) :
    (t.raised k).apply stamp e = (t.apply stamp e).raised k := by
  have version : (t.raised k).version + 1 = t.version + 1 + k := Nat.add_right_comm _ _ _
  cases e with
  | spawn id parent name description task =>
      simp only [apply, version, addAgent_raised]
      rfl
  | _ =>
      simp only [apply, version]
      rfl

theorem next_raised (t : Tree) (k : Nat) (stamp : Stamp) (e : Event) :
    (t.raised k).next stamp e = (t.next stamp e).raised k := by
  rw [next, next, raised_rejection?]
  cases t.rejection? e with
  | some why => rfl
  | none => exact apply_raised t k stamp e

theorem next_unstamped (t : Tree) (stamp : Stamp) (e : Event) (made : IsMade stamp.message) :
    (t.next stamp e).unstamped = t.unstamped.next .blank e := by
  rw [next, next, rejection?_unstamped]
  cases t.rejection? e with
  | some why => rfl
  | none => exact apply_unstamped t stamp e made

end Tree

def Operation.isDeed : Operation → Bool
  | handle _ | process _ | processWith _ _ | toggle _ | clear => true
  | subscribe | unsubscribe _ | wait _ _ => false

def deeds (ops : List Operation) : List Operation := ops.filter Operation.isDeed

/-- What a store gives back: the clean text and the tracker, where there are such, and what it says
to each event that it is given. -/
structure Answer where
  clean : Option String
  tracker : Option Tracker
  decisions : List (Event × Option Rejection)
  deriving DecidableEq, Repr

namespace Store

def decisions (s : Store) : List Event → List (Event × Option Rejection)
  | [] => []
  | e :: rest => (e, s.tree.rejection? e) :: (s.handle e).decisions rest

def answer (s : Store) (op : Operation) : Answer where
  clean :=
    match op with
    | .process text => some (s.process text).2
    | .processWith tracker text => some (s.processWith tracker text).2.2
    | _ => none
  tracker :=
    match op with
    | .processWith tracker text => some (s.processWith tracker text).2.1
    | _ => none
  decisions := s.decisions (s.handed op)

/-- What deeds and answers depend on, at a version that is higher by so much. -/
noncomputable def core (s : Store) (k : Nat) : Store :=
  { new s.autoExpand default 0 with
    tree := s.tree.unstamped.raised k
    expanded := s.expanded
    tracker := s.tracker }

theorem core_eq_iff (s u : Store) (j k : Nat) :
    s.core j = u.core k ↔ s.autoExpand = u.autoExpand ∧ s.expanded = u.expanded ∧
      s.tracker = u.tracker ∧ s.tree.unstamped.raised j = u.tree.unstamped.raised k := by
  simp only [core, new, Store.mk.injEq]
  tauto

theorem unstamped_core (s : Store) (k : Nat) :
    (s.core k).tree.unstamped = s.tree.unstamped.raised k := by
  simp [core, Tree.raised_unstamped]

theorem core_core (s : Store) (k : Nat) : (s.core k).core 0 = s.core k := by
  rw [core_eq_iff]
  exact ⟨rfl, rfl, rfl, congrArg (Tree.raised · 0) (s.unstamped_core k)⟩

theorem rejection?_core (s : Store) (k : Nat) (e : Event) :
    (s.core k).tree.rejection? e = s.tree.rejection? e := by
  simp [core]

/-- What an event leaves of the core depends on the core alone. -/
theorem core_handle (s : Store) (k : Nat) (e : Event) :
    (s.handle e).core k = ((s.core k).handle e).core 0 := by
  rw [core_eq_iff]
  refine ⟨?_, ?_, ?_, ?_⟩
  · rw [autoExpand_handle, autoExpand_handle]
    rfl
  · rw [expanded_handle, expanded_handle, rejection?_core]
    split
    · exact expandStarted_congr s _ e rfl rfl
    · rfl
  · rw [tracker_handle, tracker_handle]
    rfl
  · rw [handle_tree, handle_tree, Tree.next_unstamped _ _ e s.isMade_stamp,
      Tree.next_unstamped _ _ e (isMade_stamp _), unstamped_core, ← Tree.next_raised]
    rfl

theorem core_handleAll (s : Store) (k : Nat) (events : List Event) :
    (s.handleAll events).core k = ((s.core k).handleAll events).core 0 := by
  induction events generalizing s k with
  | nil => exact (s.core_core k).symm
  | cons e events ih =>
      -- The induction is used once more the other way: what the core leaves is itself a store.
      change ((s.handle e).handleAll events).core k = _
      rw [ih, core_handle, ← ih]
      rfl

theorem decisions_core (s : Store) (k : Nat) (events : List Event) :
    (s.core k).decisions events = s.decisions events := by
  induction events generalizing s k with
  | nil => rfl
  | cons e events ih =>
      rw [decisions, decisions, rejection?_core, ← ih _ 0, ← core_handle, ih]

theorem core_of_idle (s : Store) (k : Nat) (op : Operation) (idle : op.isDeed = false) :
    (s.perform op).core k = s.core k := by
  cases op with
  | subscribe => rfl
  | unsubscribe listener => rfl
  | wait clock seed => rfl
  | _ => cases idle

theorem core_perform (s : Store) (k : Nat) (op : Operation) :
    (s.perform op).core k = ((s.core k).perform op).core 0 := by
  cases op with
  | handle e => exact s.core_handle k e
  | process text =>
      have handed := s.core_handleAll k (s.tracker.take (Marker.parse text).events).2
      rw [core_eq_iff] at handed ⊢
      simp only [perform, process, processWith_eq]
      exact ⟨handed.1, handed.2.1, rfl, handed.2.2.2⟩
  | processWith tracker text =>
      simp only [perform, processWith_eq]
      exact s.core_handleAll k _
  | toggle id =>
      have trees := s.unstamped_core k
      by_cases shown : id ∈ s.expanded
      · have also : id ∈ (s.core k).expanded := shown
        rw [core_eq_iff, perform, perform, toggle, toggle, if_pos shown, if_pos also]
        exact ⟨rfl, rfl, rfl, trees.symm⟩
      · have also : id ∉ (s.core k).expanded := shown
        rw [core_eq_iff, perform, perform, toggle, toggle, if_neg shown, if_neg also, expand,
          expand, if_neg shown, if_neg also]
        exact ⟨rfl, rfl, rfl, trees.symm⟩
  | clear =>
      rw [core_eq_iff]
      exact ⟨rfl, rfl, rfl, congrArg (Tree.mk [] []) (Nat.add_right_comm s.tree.version 1 k)⟩
  | _ => exact (s.core_core k).symm

theorem core_run (s : Store) (k : Nat) (ops : List Operation) :
    (s.run ops).core k = ((s.core k).run ops).core 0 := by
  induction ops generalizing s k with
  | nil => exact (s.core_core k).symm
  | cons op ops ih =>
      change ((s.perform op).run ops).core k = _
      rw [ih, core_perform, ← ih]
      rfl

theorem core_run_deeds (s : Store) (k : Nat) (ops : List Operation) :
    (s.run ops).core k = (s.run (deeds ops)).core k := by
  induction ops generalizing s with
  | nil => rfl
  | cons op ops ih =>
      change ((s.perform op).run ops).core k = _
      cases deed : op.isDeed with
      | false =>
          have none : deeds (op :: ops) = deeds ops := List.filter_cons_of_neg (by simp [deed])
          rw [none, ih, core_run, core_of_idle s k op deed, ← core_run]
      | true =>
          have first : deeds (op :: ops) = op :: deeds ops := List.filter_cons_of_pos deed
          rw [first, ih]
          rfl

theorem answer_core (s : Store) (k : Nat) (op : Operation) :
    (s.core k).answer op = s.answer op := by
  cases op <;> simp only [answer, handed, decisions_core] <;> rfl

theorem core_clear (s : Store) (clock : Instant) (seed : Nat) :
    s.clear.core 0 = (new s.autoExpand clock seed).core (1 + s.tree.version) := by
  have version : s.tree.version + 1 + 0 = 0 + (1 + s.tree.version) := by omega
  rw [core_eq_iff]
  exact ⟨rfl, rfl, rfl, congrArg (Tree.mk [] []) version⟩

/-- A store that was cleared goes on as a new one: after the same deeds, whatever listeners came and
went and however time went on, both have the same agents, roots and expanded ids, but for stamps,
and give the same back of whatever is done next. The version is ahead by one and by what it was
before the clear. -/
theorem clear_goes_on_as_new (s : Store) (clock : Instant) (seed : Nat)
    (ops others : List Operation) (same : deeds ops = deeds others) :
    let kept := s.run (.clear :: ops)
    let fresh := (new s.autoExpand clock seed).run others
    kept.tree.records.map Agent.unstamped = fresh.tree.records.map Agent.unstamped ∧
      kept.tree.roots = fresh.tree.roots ∧
      kept.tree.version = fresh.tree.version + (1 + s.tree.version) ∧
      kept.expanded = fresh.expanded ∧
      ∀ op, kept.answer op = fresh.answer op := by
  intro kept fresh
  let k := 1 + s.tree.version
  have cores : kept.core 0 = fresh.core k := by
    calc
      kept.core 0 = (s.clear.run (deeds ops)).core 0 := s.clear.core_run_deeds 0 ops
      _ = ((s.clear.core 0).run (deeds ops)).core 0 := s.clear.core_run 0 _
      _ = (((new s.autoExpand clock seed).core k).run (deeds others)).core 0 := by
        rw [s.core_clear clock seed, same]
      _ = ((new s.autoExpand clock seed).run (deeds others)).core k := (core_run _ k _).symm
      _ = fresh.core k := (core_run_deeds _ k others).symm
  obtain ⟨-, expanded, -, trees⟩ := (core_eq_iff kept fresh 0 k).mp cores
  have records := congrArg Tree.records trees
  have roots := congrArg Tree.roots trees
  have version := congrArg Tree.version trees
  refine ⟨records, roots, version, expanded, ?_⟩
  intro op
  rw [← kept.answer_core 0, cores, answer_core]

theorem clear_goes_on_as_new_with_text :
    let start : Event := .spawn "a" none "" "" ""
    let text :=
      "<!--GRAM_AGENT:\x7b\"type\":\"sub_agent.spawn\",\"agent_id\":\"a\",\"name\":\"\"\x7d-->!"
    let s := (new true default 0).run [.process text, .toggle "a", .toggle "b"]
    let ops : List Operation := [.subscribe, .process text]
    let others : List Operation := [.process text, .wait default 7]
    let kept := s.run (.clear :: ops)
    deeds ops = deeds others ∧ kept.tree.roots = ["a"] ∧ kept.tree.version = 3 ∧
      kept.expanded = ["a"] ∧
      kept.answer (.process text) = ⟨some "!", none, []⟩ ∧
      kept.answer (.handle start) = ⟨none, none, [(start, some .duplicateSpawn)]⟩ := by
  intro start text s ops others kept
  have same : deeds ops = deeds others := by decide +kernel
  obtain ⟨-, roots, version, expanded, answers⟩ :=
    clear_goes_on_as_new s default 0 ops others same
  refine ⟨same, ?_⟩
  rw [roots, version, expanded, answers, answers]
  decide +kernel

end Store

end Playback.Agents
