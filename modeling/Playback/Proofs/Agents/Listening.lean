import Playback.Proofs.Agents.Run

namespace Playback.Agents

/-- Trees made one after another, each of the next version, lead from one tree to another. -/
inductive Leads : Tree → List Tree → Tree → Prop
  | refl (t : Tree) : Leads t [] t
  | next (t u last : Tree) (made : List Tree) (version : u.version = t.version + 1)
      (rest : Leads u made last) : Leads t (u :: made) last

namespace Leads

theorem append (t u v : Tree) (made more : List Tree) (first : Leads t made u)
    (second : Leads u more v) : Leads t (made ++ more) v := by
  induction first with
  | refl t => exact second
  | next t w u made version rest ih => exact .next t w v (made ++ more) version (ih second)

theorem versions (t last : Tree) (made : List Tree) (leads : Leads t made last) :
    made.map (·.version) = List.range' (t.version + 1) made.length := by
  induction leads with
  | refl t => rfl
  | next t u last made version rest ih =>
      rw [List.map_cons, ih, version, List.length_cons, List.range'_succ]

theorem version_last (t last : Tree) (made : List Tree) (leads : Leads t made last) :
    last.version = t.version + made.length := by
  induction leads with
  | refl t => rfl
  | next t u last made version rest ih =>
      rw [ih, version, List.length_cons]
      omega

theorem last_mem (t last : Tree) (made : List Tree) (leads : Leads t made last) :
    last ∈ t :: made := by
  induction leads with
  | refl t => exact List.mem_cons_self
  | next t u last made version rest ih => exact List.mem_cons_of_mem t ih

theorem eq_of_version (t last : Tree) (made : List Tree) (leads : Leads t made last) :
    ∀ u ∈ t :: made, ∀ v ∈ t :: made, u.version = v.version → u = v := by
  apply List.inj_on_of_nodup_map
  rw [List.map_cons, leads.versions, ← List.range'_succ]
  exact List.nodup_range'

end Leads

def announce (listeners : List Nat) (t : Tree) : List Call := listeners.map (⟨·, t⟩)

def heard (k : Nat) (calls : List Call) : List Tree :=
  (calls.filter (·.listener = k)).map (·.tree)

theorem heard_append (k : Nat) (calls more : List Call) :
    heard k (calls ++ more) = heard k calls ++ heard k more := by
  unfold heard
  rw [List.filter_append, List.map_append]

theorem heard_announce (k : Nat) (listeners : List Nat) (t : Tree) (once : listeners.Nodup) :
    heard k (announce listeners t) = if k ∈ listeners then [t] else [] := by
  have calls : (announce listeners t).filter (·.listener = k) =
      announce (listeners.filter (· = k)) t := List.filter_map
  rw [heard, calls, List.filter_eq, once.count]
  split <;> rfl

namespace Store

def made (s : Store) (e : Event) : List Tree :=
  if s.tree.rejection? e = none then [(s.handle e).tree] else []

def madeAll (s : Store) : List Event → List Tree
  | [] => []
  | e :: rest => s.made e ++ (s.handle e).madeAll rest

def changes (s : Store) : Operation → List Tree
  | .clear => [s.clear.tree]
  | op => s.madeAll (s.handed op)

def changesAll (s : Store) : List Operation → List Tree
  | [] => []
  | op :: rest => s.changes op ++ (s.perform op).changesAll rest

def told (s : Store) : Operation → List Call
  | .clear => s.clear.calls
  | op => s.callsOfAll (s.handed op)

def toldAll (s : Store) : List Operation → List Call
  | [] => []
  | op :: rest => s.told op ++ (s.perform op).toldAll rest

theorem changes_of_ne (s : Store) (op : Operation) (other : op ≠ .clear) :
    s.changes op = s.madeAll (s.handed op) := by
  rw [changes]
  exact other

theorem told_of_ne (s : Store) (op : Operation) (other : op ≠ .clear) :
    s.told op = s.callsOfAll (s.handed op) := by
  rw [told]
  exact other

theorem changesAll_append (s : Store) (ops more : List Operation) :
    s.changesAll (ops ++ more) = s.changesAll ops ++ (s.run ops).changesAll more := by
  induction ops generalizing s with
  | nil => rfl
  | cons op ops ih =>
      rw [List.cons_append, changesAll, changesAll, ih, List.append_assoc]
      rfl

theorem toldAll_append (s : Store) (ops more : List Operation) :
    s.toldAll (ops ++ more) = s.toldAll ops ++ (s.run ops).toldAll more := by
  induction ops generalizing s with
  | nil => rfl
  | cons op ops ih =>
      rw [List.cons_append, toldAll, toldAll, ih, List.append_assoc]
      rfl

theorem leads_made (s : Store) (e : Event) : Leads s.tree (s.made e) (s.handle e).tree := by
  unfold made
  split
  · rename_i taken
    have version := s.version_handle e
    rw [if_pos taken] at version
    exact .next _ _ _ _ version (.refl _)
  · rename_i refused
    rw [s.handle_of_refused e refused]
    exact .refl s.tree

theorem leads_madeAll (s : Store) (events : List Event) :
    Leads s.tree (s.madeAll events) (s.handleAll events).tree := by
  induction events generalizing s with
  | nil => exact .refl s.tree
  | cons e events ih => exact (s.leads_made e).append _ _ _ _ _ (ih (s.handle e))

theorem leads_changes (s : Store) (op : Operation) :
    Leads s.tree (s.changes op) (s.perform op).tree := by
  by_cases clears : op = .clear
  · subst clears
    exact .next _ _ _ _ rfl (.refl _)
  · rw [s.changes_of_ne op clears, s.perform_tree op clears]
    exact s.leads_madeAll (s.handed op)

theorem leads_changesAll (s : Store) (ops : List Operation) :
    Leads s.tree (s.changesAll ops) (s.run ops).tree := by
  induction ops generalizing s with
  | nil => exact .refl s.tree
  | cons op ops ih => exact (s.leads_changes op).append _ _ _ _ _ (ih (s.perform op))

theorem versions_changesAll (s : Store) (ops : List Operation) :
    (s.changesAll ops).map (·.version) =
      List.range' (s.tree.version + 1) ((s.run ops).tree.version - s.tree.version) := by
  have leads := s.leads_changesAll ops
  have count : (s.run ops).tree.version - s.tree.version = (s.changesAll ops).length := by
    rw [leads.version_last]
    exact Nat.add_sub_cancel_left _ _
  rw [count]
  exact leads.versions

theorem tree_run_mem (s : Store) (before after : List Operation) :
    (s.run before).tree ∈ s.tree :: s.changesAll (before ++ after) := by
  rw [changesAll_append, ← List.cons_append]
  exact List.mem_append_left _ (s.leads_changesAll before).last_mem

theorem listeners_handle (s : Store) (e : Event) :
    (s.handle e).listeners = s.listeners ∧ (s.handle e).nextListener = s.nextListener := by
  obtain ⟨shown, same⟩ := s.exists_handle e
  rw [same]
  exact ⟨rfl, rfl⟩

theorem listeners_toggle (s : Store) (id : String) :
    (s.toggle id).listeners = s.listeners ∧ (s.toggle id).nextListener = s.nextListener := by
  obtain ⟨shown, same⟩ := s.exists_toggle id
  rw [same]
  exact ⟨rfl, rfl⟩

theorem listeners_handleAll (s : Store) (events : List Event) :
    (s.handleAll events).listeners = s.listeners ∧
      (s.handleAll events).nextListener = s.nextListener := by
  obtain ⟨tree, shown, same⟩ := s.exists_handleAll events
  rw [same]
  exact ⟨rfl, rfl⟩

theorem listeners_perform (s : Store) (op : Operation) :
    (op = .subscribe ∧ (s.perform op).listeners = s.listeners ++ [s.nextListener] ∧
        (s.perform op).nextListener = s.nextListener + 1) ∨
      (∃ k, op = .unsubscribe k ∧ (s.perform op).listeners = s.listeners.filter (· ≠ k) ∧
        (s.perform op).nextListener = s.nextListener) ∨
      ((s.perform op).listeners = s.listeners ∧
        (s.perform op).nextListener = s.nextListener) := by
  cases op with
  | handle e => exact .inr (.inr (s.listeners_handle e))
  | process text =>
      refine .inr (.inr ?_)
      simp only [perform, process, processWith_eq]
      exact s.listeners_handleAll _
  | processWith tracker text =>
      refine .inr (.inr ?_)
      simp only [perform, processWith_eq]
      exact s.listeners_handleAll _
  | toggle id => exact .inr (.inr (s.listeners_toggle id))
  | clear => exact .inr (.inr ⟨rfl, rfl⟩)
  | subscribe => exact .inl ⟨rfl, rfl, rfl⟩
  | unsubscribe k => exact .inr (.inl ⟨k, rfl, rfl, rfl⟩)
  | wait clock seed => exact .inr (.inr ⟨rfl, rfl⟩)

/-- The listeners stand in the order of their coming, each once, and a new one gets a new number. -/
structure IsOrderly (s : Store) : Prop where
  ordered : s.listeners.Pairwise (· < ·)
  below : ∀ k ∈ s.listeners, k < s.nextListener

namespace IsOrderly

variable {s : Store} (orderly : s.IsOrderly)

include orderly

theorem once : s.listeners.Nodup := orderly.ordered.imp fun below => Nat.ne_of_lt below

theorem perform (op : Operation) : (s.perform op).IsOrderly := by
  rcases s.listeners_perform op with ⟨-, listeners, next⟩ | ⟨k, -, listeners, next⟩ |
    ⟨listeners, next⟩
  · constructor
    · rw [listeners, List.pairwise_append]
      refine ⟨orderly.ordered, List.pairwise_singleton _ _, ?_⟩
      intro k member new isNew
      rw [List.mem_singleton.mp isNew]
      exact orderly.below k member
    · rw [listeners, next]
      intro k member
      rcases List.mem_append.mp member with old | new
      · exact Nat.lt_succ_of_lt (orderly.below k old)
      · rw [List.mem_singleton.mp new]
        exact Nat.lt_succ_self _
  · constructor
    · rw [listeners]
      exact orderly.ordered.filter _
    · rw [listeners, next]
      intro j member
      exact orderly.below j (List.mem_of_mem_filter member)
  · constructor
    · rw [listeners]
      exact orderly.ordered
    · rw [listeners, next]
      exact orderly.below

theorem run (ops : List Operation) : (s.run ops).IsOrderly := by
  induction ops generalizing s with
  | nil => exact orderly
  | cons op ops ih => exact ih (orderly.perform op)

end IsOrderly

theorem nextListener_le_run (s : Store) (ops : List Operation) :
    s.nextListener ≤ (s.run ops).nextListener := by
  induction ops generalizing s with
  | nil => exact Nat.le_refl _
  | cons op ops ih =>
      refine Nat.le_trans ?_ (ih (s.perform op))
      rcases s.listeners_perform op with ⟨-, -, next⟩ | ⟨k, -, -, next⟩ | ⟨-, next⟩
      · rw [next]
        exact Nat.le_succ _
      · rw [next]
      · rw [next]

theorem callsOf_eq (s : Store) (e : Event) :
    s.callsOf e = (s.made e).flatMap (announce s.listeners) := by
  unfold callsOf made
  cases s.tree.rejection? e with
  | some why => rfl
  | none =>
      have same := (s.listeners_handle e).1
      simp [calls, announce, same]

theorem callsOfAll_eq (s : Store) (events : List Event) :
    s.callsOfAll events = (s.madeAll events).flatMap (announce s.listeners) := by
  induction events generalizing s with
  | nil => rfl
  | cons e events ih =>
      rw [callsOfAll, madeAll, List.flatMap_append, callsOf_eq, ih, (s.listeners_handle e).1]

theorem told_eq (s : Store) (op : Operation) :
    s.told op = (s.changes op).flatMap (announce s.listeners) := by
  by_cases clears : op = .clear
  · subst clears
    exact (List.flatMap_singleton (announce s.listeners) s.clear.tree).symm
  · rw [s.changes_of_ne op clears, s.told_of_ne op clears, callsOfAll_eq]

theorem tree_mem_changesAll (s : Store) (ops : List Operation) (c : Call)
    (called : c ∈ s.toldAll ops) : c.tree ∈ s.changesAll ops := by
  induction ops generalizing s with
  | nil => cases called
  | cons op ops ih =>
      rw [changesAll, List.mem_append]
      rcases List.mem_append.mp called with now | later
      · rw [told_eq] at now
        obtain ⟨t, made, shown⟩ := List.mem_flatMap.mp now
        obtain ⟨k, -, rfl⟩ := List.mem_map.mp shown
        exact .inl made
      · exact .inr (ih (s.perform op) later)

section Heard

variable (k : Nat) (s : Store) (ops : List Operation) (orderly : s.IsOrderly)

include orderly

theorem heard_told (op : Operation) :
    heard k (s.told op) = if k ∈ s.listeners then s.changes op else [] := by
  rw [told_eq]
  induction s.changes op with
  | nil => exact (ite_self _).symm
  | cons t rest ih =>
      rw [List.flatMap_cons, heard_append, heard_announce k s.listeners t orderly.once, ih]
      split <;> rfl

theorem heard_of_listening (listens : k ∈ s.listeners) (stays : .unsubscribe k ∉ ops) :
    heard k (s.toldAll ops) = s.changesAll ops ∧ k ∈ (s.run ops).listeners := by
  induction ops generalizing s with
  | nil => exact ⟨rfl, listens⟩
  | cons op ops ih =>
      rw [List.mem_cons, not_or] at stays
      have still : k ∈ (s.perform op).listeners := by
        rcases s.listeners_perform op with ⟨-, listeners, -⟩ | ⟨j, leaves, listeners, -⟩ |
          ⟨listeners, -⟩
        · rw [listeners]
          exact List.mem_append_left _ listens
        · rw [listeners]
          have other : k ≠ j := by
            rintro rfl
            exact stays.1 leaves.symm
          exact List.mem_filter.mpr ⟨listens, decide_eq_true other⟩
        · rw [listeners]
          exact listens
      obtain ⟨rest, last⟩ := ih (s.perform op) (orderly.perform op) still stays.2
      refine ⟨?_, last⟩
      rw [toldAll, heard_append, heard_told k s orderly op, if_pos listens, rest]
      rfl

/-- Who has gone hears nothing more: no new listener gets an old number. -/
theorem heard_of_gone (gone : k ∉ s.listeners) (old : k < s.nextListener) :
    heard k (s.toldAll ops) = [] := by
  induction ops generalizing s with
  | nil => rfl
  | cons op ops ih =>
      rw [toldAll, heard_append, heard_told k s orderly op, if_neg gone, List.nil_append]
      have older : k < (s.perform op).nextListener :=
        Nat.lt_of_lt_of_le old (s.nextListener_le_run [op])
      refine ih (s.perform op) (orderly.perform op) ?_ older
      rcases s.listeners_perform op with ⟨-, listeners, -⟩ | ⟨j, -, listeners, -⟩ | ⟨listeners, -⟩
      · rw [listeners, List.mem_append, List.mem_singleton]
        rintro (before | same)
        · exact gone before
        · omega
      · rw [listeners]
        intro member
        exact gone (List.mem_of_mem_filter member)
      · rw [listeners]
        exact gone

theorem heard_of_coming (later : (s.run ops).nextListener ≤ k) : heard k (s.toldAll ops) = [] := by
  induction ops generalizing s with
  | nil => rfl
  | cons op ops ih =>
      have absent : k ∉ s.listeners := by
        intro listens
        have below := orderly.below k listens
        have first := s.nextListener_le_run (op :: ops)
        omega
      rw [toldAll, heard_append, heard_told k s orderly op, if_neg absent, List.nil_append]
      exact ih (s.perform op) (orderly.perform op) later

theorem heard_between (during after : List Operation) :
    let k := (s.run ops).subscribe.2
    .unsubscribe k ∉ during → (after = [] ∨ ∃ rest, after = .unsubscribe k :: rest) →
    heard k (s.toldAll (ops ++ .subscribe :: (during ++ after))) =
      ((s.run ops).perform .subscribe).changesAll during := by
  intro k stays ends
  let subscribed := (s.run ops).perform .subscribe
  have coming : heard k (s.toldAll ops) = [] := heard_of_coming k s ops orderly (Nat.le_refl k)
  have new : subscribed.IsOrderly := (orderly.run ops).perform .subscribe
  have listens : k ∈ subscribed.listeners := List.mem_append_right _ List.mem_cons_self
  obtain ⟨hears, still⟩ := heard_of_listening k subscribed during new listens stays
  have going : heard k ((subscribed.run during).toldAll after) = [] := by
    rcases ends with rfl | ⟨rest, rfl⟩
    · rfl
    · have known : k < (subscribed.run during).nextListener := (new.run during).below k still
      have gone : k ∉ ((subscribed.run during).perform (.unsubscribe k)).listeners := by
        intro member
        have other : k ≠ k := of_decide_eq_true (List.mem_filter.mp member).2
        exact other rfl
      exact heard_of_gone k _ rest ((new.run during).perform (.unsubscribe k)) gone known
  have quiet : (s.run ops).told .subscribe = [] := rfl
  calc
    heard k (s.toldAll (ops ++ .subscribe :: (during ++ after))) =
        heard k (s.toldAll ops ++ ((s.run ops).told .subscribe ++
          (subscribed.toldAll during ++ (subscribed.run during).toldAll after))) := by
      rw [← toldAll_append, ← toldAll, ← toldAll_append]
    _ = subscribed.changesAll during := by
      rw [heard_append, coming, quiet, List.nil_append, List.nil_append, heard_append, hears, going,
        List.append_nil]

end Heard

theorem toldAll_handle (s : Store) (events : List Event) :
    s.toldAll (events.map .handle) = s.callsOfAll events := by
  induction events generalizing s with
  | nil => rfl
  | cons e events ih =>
      have one : s.told (.handle e) = s.callsOf e := List.append_nil _
      rw [List.map_cons, toldAll, ih, one, callsOfAll]
      rfl

/-- An operation makes a tree of the next version, and all who listen are called with it. -/
structure Announces (s : Store) (op : Operation) : Prop where
  version : (s.perform op).tree.version = s.tree.version + 1
  calls : s.told op = announce s.listeners (s.perform op).tree

structure IsQuiet (s : Store) (op : Operation) : Prop where
  tree : (s.perform op).tree = s.tree
  calls : s.told op = []

theorem announces_of_changes (s : Store) (op : Operation)
    (one : s.changes op = [(s.perform op).tree]) : s.Announces op where
  version := by
    have version := (s.leads_changes op).version_last
    rw [one] at version
    exact version
  calls := by rw [told_eq, one, List.flatMap_singleton]

theorem isQuiet_of_changes (s : Store) (op : Operation) (none : s.changes op = []) :
    s.IsQuiet op where
  tree := by
    have leads := s.leads_changes op
    rw [none] at leads
    exact List.mem_singleton.mp leads.last_mem
  calls := by
    rw [told_eq, none]
    rfl

theorem changes_handle (s : Store) (e : Event) : s.changes (.handle e) = s.made e :=
  List.append_nil _

/-- Whatever has been done to a store, an event that is taken and a clear make a tree of the next
version, with which everyone who listens is called once, in the order of their coming; all else
leaves the tree as it is and calls nobody, but for the events that a text hands over one by one. So
a listener hears the trees that are made between its coming and its going, which are of consecutive
versions, and the trees of a run that have the same version are the same. -/
theorem listeners_hear_versions (autoExpand : Bool) (clock : Instant) (seed : Nat)
    (agents : List Agent) (ops : List Operation) :
    let begun := ofAgents autoExpand clock seed agents
    let s := begun.run ops
    let trees := begun.tree :: begun.changesAll ops
    s.listeners.Pairwise (· < ·) ∧
      (∀ e, (s.tree.rejection? e = none → s.Announces (.handle e)) ∧
        (s.tree.rejection? e ≠ none → s.IsQuiet (.handle e))) ∧
      s.Announces .clear ∧
      (∀ op, op ≠ .clear → let events := (s.handed op).map Operation.handle
        (s.perform op).tree = (s.run events).tree ∧ s.told op = s.toldAll events) ∧
      (∀ op, ((∃ id, op = .toggle id) ∨ op = .subscribe ∨ (∃ k, op = .unsubscribe k) ∨
        ∃ clock seed, op = .wait clock seed) → s.IsQuiet op) ∧
      (∀ during after, let k := s.subscribe.2
        .unsubscribe k ∉ during → (after = [] ∨ ∃ rest, after = .unsubscribe k :: rest) →
        let subscribed := s.perform .subscribe
        let told := begun.toldAll (ops ++ .subscribe :: (during ++ after))
        heard k told = subscribed.changesAll during ∧
          (heard k told).map (·.version) = List.range' (s.tree.version + 1)
            ((subscribed.run during).tree.version - s.tree.version)) ∧
      (∀ before after, ops = before ++ after → (begun.run before).tree ∈ trees) ∧
      (∀ c ∈ begun.toldAll ops, c.tree ∈ trees) ∧
      ∀ t ∈ trees, ∀ u ∈ trees, t.version = u.version → t = u := by
  intro begun s trees
  have orderly : begun.IsOrderly := ⟨List.Pairwise.nil, List.forall_mem_nil _⟩
  have now : s.IsOrderly := orderly.run ops
  refine ⟨now.ordered, ?_, ?_, ?_, ?_, ?_, ?_, ?_, ?_⟩
  · intro e
    constructor
    · intro taken
      apply announces_of_changes
      rw [changes_handle, made, if_pos taken]
      rfl
    · intro refused
      apply isQuiet_of_changes
      rw [changes_handle, made, if_neg refused]
  · exact s.announces_of_changes .clear rfl
  · intro op other events
    rw [run_handle, toldAll_handle]
    exact ⟨s.perform_tree op other, s.told_of_ne op other⟩
  · rintro op (⟨id, rfl⟩ | rfl | ⟨k, rfl⟩ | ⟨clock, seed, rfl⟩) <;>
      exact s.isQuiet_of_changes _ rfl
  · intro during after k stays ends subscribed told
    have whole := begun.heard_between ops orderly during after stays ends
    refine ⟨whole, ?_⟩
    rw [whole]
    exact subscribed.versions_changesAll during
  · rintro before after rfl
    exact begun.tree_run_mem before after
  · intro c called
    exact List.mem_cons_of_mem _ (begun.tree_mem_changesAll ops c called)
  · exact (begun.leads_changesAll ops).eq_of_version

theorem listeners_hear_until_gone :
    let tick :=
      "<!--GRAM_AGENT:\x7b\"type\":\"sub_agent.delta\",\"agent_id\":\"a\",\"content\":\".\"\x7d-->"
    let spawn (id : String) : Event := .spawn id none "" "" ""
    let ops : List Operation := [.subscribe, .handle (spawn "a")]
    let k := ((ofAgents true default 0 []).run ops).subscribe.2
    let during : List Operation := [.handle (spawn "a"), .process tick, .subscribe,
      .unsubscribe 3, .handle (.delta "a" "."), .toggle "a", .clear]
    let rest : List Operation := [.handle (spawn "b"), .subscribe]
    let told := (ofAgents true default 0 []).toldAll
      (ops ++ .subscribe :: (during ++ .unsubscribe k :: rest))
    .unsubscribe k ∉ during ∧ (heard k told).map (·.version) = [2, 3, 4] := by
  intro tick spawn ops k during rest told
  have stays : .unsubscribe k ∉ during := by decide +kernel
  obtain ⟨-, -, -, -, -, hears, -⟩ := listeners_hear_versions true default 0 [] ops
  obtain ⟨-, versions⟩ := hears during (.unsubscribe k :: rest) stays (.inr ⟨rest, rfl⟩)
  rw [versions]
  decide +kernel

end Store

end Playback.Agents
