import Playback.Proofs.Agents.Forest
import Playback.Proofs.Agents.Tracking
import Playback.Proofs.Agents.Unstamped

/-!
All that can be done to a store, in any order, and the events that it is given in the course of it.
The tree stays a forest, and it can be told from the events since the last clear which agents it has
and where each of them is filed.
-/

namespace Playback.Agents

inductive Operation where
  | handle (e : Event)
  | process (text : String)
  | processWith (tracker : Tracker) (text : String)
  | toggle (id : String)
  | clear
  | subscribe
  | unsubscribe (listener : Nat)
  | wait (clock : Instant) (seed : Nat)
  deriving DecidableEq, Repr

namespace Store

def perform (s : Store) : Operation → Store
  | .handle e => s.handle e
  | .process text => (s.process text).1
  | .processWith tracker text => (s.processWith tracker text).1
  | .toggle id => s.toggle id
  | .clear => s.clear
  | .subscribe => s.subscribe.1
  | .unsubscribe listener => (s.unsubscribe listener).1
  | .wait clock seed => s.atTime clock seed

def run (s : Store) (ops : List Operation) : Store := ops.foldl perform s

def handed (s : Store) : Operation → List Event
  | .handle e => [e]
  | .process text => (s.tracker.take (Marker.parse text).events).2
  | .processWith tracker text => (tracker.take (Marker.parse text).events).2
  | _ => []

/-- The events given to a store since it was cleared, when some were before the operations. -/
def history (s : Store) (before : List Event) : List Operation → List Event
  | [] => before
  | .clear :: rest => s.clear.history [] rest
  | op :: rest => (s.perform op).history (before ++ s.handed op) rest

theorem run_handle (s : Store) (events : List Event) :
    s.run (events.map .handle) = s.handleAll events :=
  List.foldl_map

theorem toggle_tree (s : Store) (id : String) : (s.toggle id).tree = s.tree := by
  obtain ⟨shown, same⟩ := s.exists_toggle id
  rw [same]

theorem perform_tree (s : Store) (op : Operation) (other : op ≠ .clear) :
    (s.perform op).tree = (s.handleAll (s.handed op)).tree := by
  cases op with
  | process text => exact s.process_tree text
  | processWith tracker text =>
      have handed := s.processWith_eq tracker text
      exact congrArg (fun taken => taken.1.tree) handed
  | toggle id => exact s.toggle_tree id
  | clear => exact absurd rfl other
  | _ => rfl

end Store

def startedIn (history : List Event) (id : String) : Bool :=
  history.any fun
    | .spawn agent .. => agent == id
    | _ => false

theorem startedIn_append (first second : List Event) (id : String) :
    startedIn (first ++ second) id = (startedIn first id || startedIn second id) :=
  List.any_append

namespace Tree

/-- Where an agent is filed: among the roots or not, and under a host or under none. -/
structure Placed (t : Tree) (id : String) (root : Prop) (host : Option String) : Prop where
  root_iff : id ∈ t.roots ↔ root
  listed_iff : ∀ p, (∃ a, t.agent? p = some a ∧ id ∈ a.children) ↔ host = some p
  filed : ∃ a, t.agent? id = some a ∧ a.parent = host

theorem placed_congr (t u : Tree) (id : String) (root : Prop) (host : Option String)
    (roots : u.roots = t.roots) (same : ∀ k, u.links k = t.links k)
    (placed : t.Placed id root host) : u.Placed id root host where
  root_iff := roots ▸ placed.root_iff
  listed_iff := by
    intro p
    rw [← placed.listed_iff p]
    constructor
    · rintro ⟨a, found, listed⟩
      obtain ⟨b, hb, -, children⟩ := agent?_of_links u t p a (same p) found
      exact ⟨b, hb, children ▸ listed⟩
    · rintro ⟨a, found, listed⟩
      obtain ⟨b, hb, -, children⟩ := agent?_of_links t u p a (same p).symm found
      exact ⟨b, hb, children ▸ listed⟩
  filed := by
    obtain ⟨a, found, parent⟩ := placed.filed
    obtain ⟨b, hb, parents, -⟩ := agent?_of_links t u id a (same id).symm found
    exact ⟨b, hb, parents.trans parent⟩

section Start

variable (t : Tree) (stamp : Stamp) (id : String) (parent : Option String)
  (name description task : String)

theorem placed_addAgent_of_ne (absent : t.contains id = false) (k : String) (root : Prop)
    (host : Option String) (placed : t.Placed k root host) :
    (t.addAgent stamp id parent name description task).Placed k root host := by
  have missing := (contains_eq_false_iff t id).mp absent
  have kept := agent?_addAgent_of_ne t stamp id parent name description task absent
  obtain ⟨own, hown, filed⟩ := placed.filed
  have other : k ≠ id := by
    rintro rfl
    simp [missing] at hown
  constructor
  · rw [roots_addAgent t stamp id parent name description task absent, ← placed.root_iff]
    split <;> simp [other]
  · intro p
    rw [← placed.listed_iff p]
    constructor
    · rintro ⟨a, found, listed⟩
      rcases agent?_addAgent_cases t stamp id parent name description task absent p a found with
        ⟨-, rfl⟩ | ⟨-, b, hb, rfl⟩
      · cases listed
      · rcases (mem_attach_children b _ id k).mp listed with before | ⟨-, new⟩
        · exact ⟨b, hb, before⟩
        · exact absurd new other
    · rintro ⟨a, found, listed⟩
      have apart : p ≠ id := by
        rintro rfl
        simp [missing] at found
      exact ⟨_, kept p a apart found, (mem_attach_children a _ id k).mpr (.inl listed)⟩
  · exact ⟨_, kept k own other hown, by rw [Agent.attach_parent, filed]⟩

theorem placed_addAgent_self (forest : t.IsForest) (absent : t.contains id = false) :
    (t.addAgent stamp id parent name description task).Placed id (namedParent parent = none)
      (t.host? parent) := by
  have missing := (contains_eq_false_iff t id).mp absent
  have self := agent?_addAgent_self t stamp id parent name description task absent
  constructor
  · have new : id ∉ t.roots := by
      intro root
      obtain ⟨a, ha, -⟩ := forest.root_has_no_parent id root
      simp [missing] at ha
    rw [roots_addAgent t stamp id parent name description task absent]
    split
    · rename_i unnamed
      simp [unnamed]
    · rename_i named
      simp [named, new]
  · intro p
    constructor
    · rintro ⟨a, found, listed⟩
      rcases agent?_addAgent_cases t stamp id parent name description task absent p a found with
        ⟨-, rfl⟩ | ⟨-, b, hb, rfl⟩
      · cases listed
      · rcases (mem_attach_children b _ id id).mp listed with before | ⟨hosted, -⟩
        · obtain ⟨c, hc, -⟩ := forest.child_has_parent p b id hb before
          simp [missing] at hc
        · rw [hosted, id_of_agent? t p b hb]
    · intro hosted
      obtain ⟨a, ha⟩ := (contains_iff_exists t p).mp (contains_of_host? t parent p hosted)
      have other : p ≠ id := by
        rintro rfl
        simp [missing] at ha
      have kept := agent?_addAgent_of_ne t stamp id parent name description task absent p a other ha
      refine ⟨_, kept, (mem_attach_children a _ id id).mpr (.inr ⟨?_, rfl⟩)⟩
      rw [hosted, id_of_agent? t p a ha]
  · exact ⟨_, self, rfl⟩

end Start

theorem placed_next (t : Tree) (stamp : Stamp) (e : Event) (k : String) (root : Prop)
    (host : Option String) (placed : t.Placed k root host) :
    (t.next stamp e).Placed k root host := by
  rcases t.next_cases stamp e with ⟨-, same⟩ |
    ⟨id, parent, name, description, task, rfl, absent, started⟩ | ⟨-, -, changed⟩
  · rw [same]
    exact placed
  · rw [started]
    exact placed_congr (t.addAgent stamp id parent name description task) _ k root host rfl
      (fun _ => rfl)
      (placed_addAgent_of_ne t stamp id parent name description task absent k root host placed)
  · rw [changed]
    exact placed_congr t _ k root host rfl (links_modify_receive t stamp e) placed

theorem contains_next (t : Tree) (stamp : Stamp) (e : Event) (k : String) :
    (t.next stamp e).contains k = true ↔ t.contains k = true ∨ startedIn [e] k = true := by
  rcases t.next_cases stamp e with ⟨refused, same⟩ |
    ⟨id, parent, name, description, task, rfl, absent, started⟩ | ⟨other, -, changed⟩
  · rw [same, or_iff_left_of_imp]
    intro start
    cases e with
    | spawn id =>
        obtain rfl : id = k := by simpa [startedIn] using start
        simpa [rejection?] using refused
    | _ => simp [startedIn] at start
  · rw [started, contains_iff_mem_ids, contains_iff_mem_ids]
    change k ∈ (t.addAgent stamp id parent name description task).ids ↔ _
    rw [ids_addAgent t stamp id parent name description task absent, List.mem_append,
      List.mem_singleton]
    have start : startedIn [.spawn id parent name description task] k = true ↔ k = id := by
      simp only [startedIn, List.any_cons, List.any_nil, Bool.or_false, beq_iff_eq]
      exact eq_comm
    rw [start]
  · have kept : (t.modify e.agent (·.receive stamp e)).ids = t.ids :=
      ids_modify t e.agent _ fun a => (a.receive_links stamp e).1
    have none : startedIn [e] k = false := by
      cases e with
      | spawn id parent name description task =>
          exact absurd rfl (other id parent name description task)
      | _ => rfl
    rw [changed, contains_iff_mem_ids, contains_iff_mem_ids, none]
    change k ∈ (t.modify e.agent (·.receive stamp e)).ids ↔ _
    rw [kept]
    simp

/-- The host that the events before a start give to the new agent: the one that it names, if that
has been started. -/
def hostIn (before : List Event) (parent : Option String) : Option String :=
  (namedParent parent).filter (startedIn before ·)

theorem namedParent_eq_none_iff (parent : Option String) :
    namedParent parent = none ↔ parent = none ∨ parent = some "" := by
  unfold namedParent
  cases parent <;> simp

theorem hostIn_eq_some_iff (before : List Event) (parent : Option String) (p : String) :
    hostIn before parent = some p ↔ parent = some p ∧ p ≠ "" ∧ startedIn before p = true := by
  unfold hostIn namedParent
  rw [Option.filter_eq_some_iff, Option.filter_eq_some_iff, decide_eq_true_iff, and_assoc]

/-- The tree has the agents started in a history, filed as their first starts say. -/
structure Reflects (t : Tree) (history : List Event) : Prop where
  present : ∀ id, t.contains id = true ↔ startedIn history id = true
  placed : ∀ before id parent name description task after,
    history = before ++ .spawn id parent name description task :: after →
    startedIn before id = false →
    t.Placed id (namedParent parent = none) (hostIn before parent)

theorem reflects_empty (version : Nat) :
    ({ empty with version := version } : Tree).Reflects [] where
  present := by simp [contains, agent?, empty, startedIn]
  placed := by
    intro before id parent name description task after split
    simp at split

theorem reflects_next (t : Tree) (stamp : Stamp) (e : Event) (history : List Event)
    (forest : t.IsForest) (reflects : t.Reflects history) :
    (t.next stamp e).Reflects (history ++ [e]) where
  present := by
    intro id
    rw [contains_next, reflects.present id, startedIn_append, Bool.or_eq_true]
  placed := by
    intro before id parent name description task after split first
    rcases List.eq_nil_or_concat after with rfl | ⟨earlier, last, rfl⟩
    · -- The start is the event itself, which is taken since no agent of its id is there.
      obtain ⟨rfl, rfl⟩ : history = before ∧ e = .spawn id parent name description task := by
        simpa using List.append_inj' split rfl
      have absent : t.contains id = false := by
        rw [Bool.eq_false_iff, ne_eq, reflects.present id, first]
        exact Bool.false_ne_true
      have hosts : t.host? parent = hostIn history parent := by
        unfold host? hostIn
        congr 1
        funext p
        exact Bool.eq_iff_iff.mpr (reflects.present p)
      have accepted : t.next stamp (.spawn id parent name description task) =
          { t.addAgent stamp id parent name description task with version := t.version + 1 } := by
        simp [next, rejection?, absent, apply]
      rw [accepted, ← hosts]
      exact placed_congr (t.addAgent stamp id parent name description task) _ id _ _ rfl
        (fun _ => rfl)
        (placed_addAgent_self t stamp id parent name description task forest absent)
    · -- The start came earlier, and the event leaves the agent where it was filed.
      obtain ⟨rfl, rfl⟩ : history = before ++ .spawn id parent name description task :: earlier ∧
          e = last := by
        have whole : history ++ [e] =
            (before ++ .spawn id parent name description task :: earlier) ++ [last] := by
          simpa using split
        simpa using List.append_inj' whole rfl
      exact placed_next t stamp e id _ _
        (reflects.placed before id parent name description task earlier rfl first)

end Tree

namespace Store

section History

variable (holds : Tree → List Event → Prop)
  (next : ∀ t stamp e before, holds t before → holds (t.next stamp e) (before ++ [e]))

include next in
theorem holds_handleAll (s : Store) (events before : List Event) (now : holds s.tree before) :
    holds (s.handleAll events).tree (before ++ events) := by
  induction events generalizing s before with
  | nil =>
      rw [List.append_nil]
      exact now
  | cons e events ih =>
      have step := next s.tree s.stamp e before now
      rw [← handle_tree] at step
      have whole := ih (s.handle e) (before ++ [e]) step
      rw [List.append_assoc] at whole
      exact whole

include next in
/-- What is so of a tree without agents, and stays so with every event, is so of the tree of a store
and its history. -/
theorem holds_run (empty : ∀ version, holds { Tree.empty with version := version } []) (s : Store)
    (ops : List Operation) (before : List Event) (now : holds s.tree before) :
    holds (s.run ops).tree (s.history before ops) := by
  induction ops generalizing s before with
  | nil => exact now
  | cons op ops ih =>
      by_cases clears : op = .clear
      · subst clears
        exact ih s.clear [] (empty (s.tree.version + 1))
      · have more := holds_handleAll holds next s (s.handed op) before now
        rw [← perform_tree s op clears] at more
        have unfolded : s.history before (op :: ops) =
            (s.perform op).history (before ++ s.handed op) ops := by
          rw [history]
          exact clears
        rw [unfolded]
        exact ih (s.perform op) (before ++ s.handed op) more

end History

theorem isForest_run (s : Store) (ops : List Operation) (forest : s.tree.IsForest) :
    (s.run ops).tree.IsForest :=
  holds_run (fun t _ => t.IsForest) (fun t stamp e _ => t.isForest_next stamp e)
    Tree.isForest_empty s ops [] forest

theorem reflects_step (t : Tree) (stamp : Stamp) (e : Event) (before : List Event)
    (now : t.IsForest ∧ t.Reflects before) :
    (t.next stamp e).IsForest ∧ (t.next stamp e).Reflects (before ++ [e]) :=
  ⟨t.isForest_next stamp e now.1, t.reflects_next stamp e before now.1 now.2⟩

theorem reflects_handleAll (s : Store) (events before : List Event) (forest : s.tree.IsForest)
    (reflects : s.tree.Reflects before) :
    (s.handleAll events).tree.Reflects (before ++ events) :=
  (holds_handleAll (fun t h => t.IsForest ∧ t.Reflects h) reflects_step s events before
    ⟨forest, reflects⟩).2

theorem reflects_run (s : Store) (ops : List Operation) (before : List Event)
    (forest : s.tree.IsForest) (reflects : s.tree.Reflects before) :
    (s.run ops).tree.Reflects (s.history before ops) :=
  (holds_run (fun t h => t.IsForest ∧ t.Reflects h) reflects_step
    (fun version => ⟨Tree.isForest_empty version, Tree.reflects_empty version⟩) s ops before
    ⟨forest, reflects⟩).2

/-- Whatever is done to a store, its tree stays a forest. If it had no agents at first, it has those
that have been started since the last clear, each filed as the first of its starts says: a root if
no parent was named, under the parent if that was there by then, and by itself otherwise. -/
theorem run_isForest_as_started :
    (∀ (s : Store) (ops : List Operation), s.tree.IsForest → (s.run ops).tree.IsForest) ∧
      ∀ (autoExpand : Bool) (clock : Instant) (seed : Nat) (ops : List Operation),
        let t := ((new autoExpand clock seed).run ops).tree
        let started := (new autoExpand clock seed).history [] ops
        t.IsForest ∧ (∀ id, t.contains id = true ↔ startedIn started id = true) ∧
          ∀ before id parent name description task after,
            started = before ++ .spawn id parent name description task :: after →
            startedIn before id = false →
            (id ∈ t.roots ↔ parent = none ∨ parent = some "") ∧
              (∀ p, (∃ a, t.agent? p = some a ∧ id ∈ a.children) ↔
                parent = some p ∧ p ≠ "" ∧ startedIn before p = true) ∧
              ∃ a, t.agent? id = some a ∧
                ∀ p, a.parent = some p ↔ parent = some p ∧ p ≠ "" ∧ startedIn before p = true := by
  constructor
  · exact isForest_run
  intro autoExpand clock seed ops t started
  have forest : t.IsForest := isForest_run _ ops (Tree.isForest_empty 0)
  have reflects : t.Reflects started := reflects_run _ ops [] (Tree.isForest_empty 0)
    (Tree.reflects_empty 0)
  refine ⟨forest, reflects.present, ?_⟩
  intro before id parent name description task after split first
  have placed := reflects.placed before id parent name description task after split first
  refine ⟨?_, ?_, ?_⟩
  · rw [placed.root_iff, Tree.namedParent_eq_none_iff]
  · intro p
    rw [placed.listed_iff p, Tree.hostIn_eq_some_iff]
  · obtain ⟨a, found, host⟩ := placed.filed
    refine ⟨a, found, ?_⟩
    intro p
    rw [host, Tree.hostIn_eq_some_iff]

theorem run_isForest_late_parent :
    let s := new false default 0
    let ops : List Operation := [.handle (.spawn "x" none "" "" ""), .clear,
      .handle (.spawn "b" (some "a") "" "" ""), .handle (.spawn "a" (some "") "" "" ""),
      .handle (.spawn "b" (some "a") "" "" ""), .handle (.spawn "c" (some "a") "" "" "")]
    s.tree.IsForest ∧ (s.run ops).tree.IsForest ∧ (s.run ops).tree.contains "x" = false ∧
      "b" ∉ (s.run ops).tree.roots ∧ "a" ∈ (s.run ops).tree.roots ∧
      ¬ (∃ a, (s.run ops).tree.agent? "a" = some a ∧ "b" ∈ a.children) ∧
      ∃ a, (s.run ops).tree.agent? "a" = some a ∧ "c" ∈ a.children := by
  intro s ops
  have empty : s.tree.IsForest := Tree.isForest_empty 0
  obtain ⟨stays, told⟩ := run_isForest_as_started
  obtain ⟨-, present, placed⟩ := told false default 0 ops
  have orphan := placed [] "b" (some "a") "" "" "" _ rfl rfl
  have root := placed [.spawn "b" (some "a") "" "" ""] "a" (some "") "" "" "" _ rfl rfl
  have child := placed [.spawn "b" (some "a") "" "" "", .spawn "a" (some "") "" "" "",
    .spawn "b" (some "a") "" "" ""] "c" (some "a") "" "" "" _ rfl rfl
  refine ⟨empty, stays s ops empty, ?_, ?_, root.1.mpr (.inr rfl), ?_, ?_⟩
  · rw [Bool.eq_false_iff, ne_eq, present "x"]
    decide
  · rw [orphan.1]
    decide
  · rw [orphan.2.1 "a"]
    decide
  · exact (child.2.1 "a").mpr (by decide)

end Store

end Playback.Agents
