import Playback.Agents.Store
import Mathlib.Data.List.Basic

namespace Playback.Agents

namespace Agent

theorem exists_addDelta (a : Agent) (stamp : Stamp) (content : String) :
    ∃ log, a.addDelta stamp content = { a with messages := log } := by
  unfold addDelta
  split
  · split <;> exact ⟨_, rfl⟩
  · exact ⟨_, rfl⟩

theorem receive_links (a : Agent) (stamp : Stamp) (e : Event) :
    (a.receive stamp e).id = a.id ∧ (a.receive stamp e).parent = a.parent ∧
      (a.receive stamp e).children = a.children := by
  cases e with
  | delta _ content =>
      obtain ⟨log, same⟩ := a.exists_addDelta stamp content
      rw [receive, same]
      exact ⟨rfl, rfl, rfl⟩
  | _ => exact ⟨rfl, rfl, rfl⟩

def attach (host : Option String) (child : String) (a : Agent) : Agent :=
  if host = some a.id then a.addChild child else a

@[simp] theorem attach_id (host : Option String) (child : String) (a : Agent) :
    (a.attach host child).id = a.id := by
  unfold attach
  split <;> rfl

@[simp] theorem attach_parent (host : Option String) (child : String) (a : Agent) :
    (a.attach host child).parent = a.parent := by
  unfold attach
  split <;> rfl

theorem attach_children (host : Option String) (child : String) (a : Agent) :
    (a.attach host child).children = a.children ++ if host = some a.id then [child] else [] := by
  unfold attach
  split <;> simp [addChild]

theorem attach_none (child : String) (a : Agent) : a.attach none child = a := by
  simp [attach]

end Agent

namespace Tree

def ids (t : Tree) : List String := t.records.map (·.id)

theorem id_of_agent? (t : Tree) (id : String) (a : Agent) (found : t.agent? id = some a) :
    a.id = id := by
  simpa using List.find?_some found

theorem contains_iff_mem_ids (t : Tree) (id : String) : t.contains id = true ↔ id ∈ t.ids := by
  simp [contains, agent?, ids]

theorem contains_iff_exists (t : Tree) (id : String) :
    t.contains id = true ↔ ∃ a, t.agent? id = some a := by
  simp [contains, Option.isSome_iff_exists]

theorem contains_eq_false_iff (t : Tree) (id : String) :
    t.contains id = false ↔ t.agent? id = none := by
  simp [contains]

theorem agent?_of_mem (t : Tree) (distinct : t.ids.Nodup) (a : Agent) (member : a ∈ t.records) :
    t.agent? a.id = some a := by
  obtain ⟨records, roots, version⟩ := t
  simp only [agent?, ids] at distinct member ⊢
  induction records with
  | nil => cases member
  | cons b records ih =>
      simp only [List.map_cons, List.nodup_cons, List.mem_map, not_exists, not_and] at distinct
      rcases List.mem_cons.mp member with rfl | member
      · simp
      · have other : ¬ b.id = a.id := fun same => distinct.1 a member same.symm
        simp [other, ih distinct.2 member]

theorem agent?_modify (t : Tree) (id k : String) (f : Agent → Agent)
    (keeps : ∀ a, (f a).id = a.id) :
    (t.modify id f).agent? k = (t.agent? k).map fun a => if a.id = id then f a else a := by
  have same (a : Agent) : (if a.id = id then f a else a).id = a.id := by
    split
    · exact keeps a
    · rfl
  have looked : ((·.id == k) ∘ fun a => if a.id = id then f a else a) = (·.id == k) := by
    funext a
    exact congrArg (· == k) (same a)
  unfold agent? modify
  rw [List.find?_map, looked]

theorem ids_modify (t : Tree) (id : String) (f : Agent → Agent) (keeps : ∀ a, (f a).id = a.id) :
    (t.modify id f).ids = t.ids := by
  simp only [ids, modify, List.map_map]
  apply List.map_congr_left
  intro a _
  by_cases same : a.id = id <;> simp [same, keeps]

theorem insert_of_absent (t : Tree) (a : Agent) (absent : t.contains a.id = false) :
    t.insert a = { t with records := t.records ++ [a] } := by
  simp [insert, absent]

/-- The agent under which a new one is filed: the one that it names, if that is there. -/
def host? (t : Tree) (parent : Option String) : Option String :=
  (namedParent parent).filter (t.contains ·)

def fresh (t : Tree) (stamp : Stamp) (id : String) (parent : Option String)
    (name description task : String) : Agent :=
  { Agent.start id name task stamp.time with
    description := description
    parent := t.host? parent }

variable (t : Tree) (stamp : Stamp) (id : String) (parent : Option String)
  (name description task : String)

theorem contains_of_host? (p : String) (hosted : t.host? parent = some p) :
    t.contains p = true := by
  simpa using (Option.filter_eq_some_iff.mp hosted).2

theorem addAgent_eq (absent : t.contains id = false) :
    t.addAgent stamp id parent name description task =
      { t with
        records := t.records.map (·.attach (t.host? parent) id) ++
          [t.fresh stamp id parent name description task]
        roots := if namedParent parent = none then t.roots ++ [id] else t.roots } := by
  cases named : namedParent parent with
  | none =>
      have hostless : t.host? parent = none := by simp [host?, named]
      have inserted := insert_of_absent { t with roots := t.roots ++ [id] }
        (t.fresh stamp id parent name description task) absent
      simp only [fresh, hostless] at inserted
      simp only [addAgent, named, hostless, if_true, Agent.attach_none, List.map_id', fresh]
      exact inserted
  | some p =>
      by_cases present : t.contains p
      · have hosted : t.host? parent = some p := by simp [host?, named, present]
        have attached : (t.modify p (·.addChild id)).records =
            t.records.map (·.attach (some p) id) := by
          apply List.map_congr_left
          intro a _
          by_cases same : a.id = p
          · simp [Agent.attach, same]
          · simp [Agent.attach, same, Ne.symm same]
        have absentAfter : (t.modify p (·.addChild id)).contains id = false := by
          rw [contains_eq_false_iff] at absent ⊢
          rw [agent?_modify t p id (·.addChild id) fun _ => rfl, absent]
          rfl
        have inserted := insert_of_absent (t.modify p (·.addChild id))
          (t.fresh stamp id parent name description task) absentAfter
        simp only [fresh, hosted, attached] at inserted
        simp only [addAgent, named, if_pos present, hosted, fresh, reduceCtorEq, if_false]
        exact inserted
      · have hostless : t.host? parent = none := by simp [host?, named, present]
        have inserted := insert_of_absent t (t.fresh stamp id parent name description task) absent
        simp only [fresh, hostless] at inserted
        simp only [addAgent, named, if_neg present, hostless, fresh, Agent.attach_none,
          List.map_id', reduceCtorEq, if_false]
        exact inserted

theorem agent?_addAgent (k : String) (absent : t.contains id = false) :
    (t.addAgent stamp id parent name description task).agent? k =
      if k = id then some (t.fresh stamp id parent name description task)
      else (t.agent? k).map (·.attach (t.host? parent) id) := by
  have missing := (contains_eq_false_iff t id).mp absent
  rw [addAgent_eq t stamp id parent name description task absent]
  simp only [agent?, List.find?_append, List.find?_map, Function.comp_def, Agent.attach_id]
  by_cases same : k = id
  · subst same
    unfold agent? at missing
    simp [missing, fresh, Agent.start]
  · simp [same, fresh, Agent.start, Ne.symm same]

theorem ids_addAgent (absent : t.contains id = false) :
    (t.addAgent stamp id parent name description task).ids = t.ids ++ [id] := by
  rw [addAgent_eq t stamp id parent name description task absent]
  simp [ids, fresh, Agent.start, Function.comp_def]

theorem roots_addAgent (absent : t.contains id = false) :
    (t.addAgent stamp id parent name description task).roots =
      if namedParent parent = none then t.roots ++ [id] else t.roots := by
  rw [addAgent_eq t stamp id parent name description task absent]

def next (t : Tree) (stamp : Stamp) (e : Event) : Tree :=
  match t.rejection? e with
  | some _ => t
  | none => t.apply stamp e

omit id parent name description task in
theorem contains_of_accepted (e : Event) (accepted : t.rejection? e = none)
    (other : ∀ id parent name description task, e ≠ .spawn id parent name description task) :
    t.contains e.agent = true := by
  by_contra absent
  cases e with
  | spawn id parent name description task => exact other id parent name description task rfl
  | toolResult id call =>
      have missing : t.agent? id = none := by simpa [contains, Event.agent] using absent
      simp [rejection?, missing] at accepted
  | _ => simp [rejection?, absent] at accepted

omit id parent name description task in
/-- All that an event can do: nothing, a start under a new id, or a change of one record. -/
theorem next_cases (e : Event) :
    (t.rejection? e ≠ none ∧ t.next stamp e = t) ∨
      (∃ id parent name description task, e = .spawn id parent name description task ∧
        t.contains id = false ∧
        t.next stamp e = { t.addAgent stamp id parent name description task with
          version := t.version + 1 }) ∨
      ((∀ id parent name description task, e ≠ .spawn id parent name description task) ∧
        t.contains e.agent = true ∧
        t.next stamp e = { t.modify e.agent (·.receive stamp e) with
          version := t.version + 1 }) := by
  unfold next
  cases refused : t.rejection? e with
  | some why => exact .inl ⟨by simp, rfl⟩
  | none =>
      have present := contains_of_accepted t e refused
      cases e with
      | spawn id parent name description task =>
          have absent : t.contains id = false := by simpa [rejection?] using refused
          exact .inr (.inl ⟨id, parent, name, description, task, rfl, absent, rfl⟩)
      | _ => exact .inr (.inr ⟨by simp, present (by simp), rfl⟩)

end Tree

namespace Store

theorem handle_tree (s : Store) (e : Event) : (s.handle e).tree = s.tree.next s.stamp e := by
  unfold handle Tree.next
  cases s.tree.rejection? e <;> rfl

theorem handle_of_refused (s : Store) (e : Event) (refused : s.tree.rejection? e ≠ none) :
    s.handle e = s := by
  unfold handle
  split
  · rfl
  · contradiction

theorem version_handle (s : Store) (e : Event) :
    (s.handle e).tree.version =
      if s.tree.rejection? e = none then s.tree.version + 1 else s.tree.version := by
  unfold handle
  cases s.tree.rejection? e <;> rfl

theorem exists_expandStarted (s : Store) (e : Event) :
    ∃ shown, s.expandStarted e = { s with expanded := shown } := by
  cases e with
  | spawn id =>
      simp only [expandStarted, expand]
      split
      · split
        · exact ⟨s.expanded, rfl⟩
        · exact ⟨id :: s.expanded, rfl⟩
      · exact ⟨s.expanded, rfl⟩
  | _ => exact ⟨s.expanded, rfl⟩

/-- An event changes nothing of a store but its tree and what is expanded. -/
theorem exists_handle (s : Store) (e : Event) :
    ∃ shown, s.handle e = { s with tree := s.tree.next s.stamp e, expanded := shown } := by
  obtain ⟨shown, started⟩ := s.exists_expandStarted e
  unfold handle Tree.next
  cases s.tree.rejection? e with
  | some why => exact ⟨s.expanded, rfl⟩
  | none =>
      rw [started]
      exact ⟨shown, rfl⟩

theorem autoExpand_handle (s : Store) (e : Event) : (s.handle e).autoExpand = s.autoExpand := by
  obtain ⟨shown, same⟩ := s.exists_handle e
  rw [same]

theorem tracker_handle (s : Store) (e : Event) : (s.handle e).tracker = s.tracker := by
  obtain ⟨shown, same⟩ := s.exists_handle e
  rw [same]

theorem exists_handleAll (s : Store) (events : List Event) :
    ∃ tree shown, s.handleAll events = { s with tree := tree, expanded := shown } := by
  induction events generalizing s with
  | nil => exact ⟨s.tree, s.expanded, rfl⟩
  | cons e events ih =>
      obtain ⟨shown, first⟩ := s.exists_handle e
      obtain ⟨tree, last, rest⟩ := ih (s.handle e)
      refine ⟨tree, last, rest.trans ?_⟩
      rw [first]

theorem autoExpand_handleAll (s : Store) (events : List Event) :
    (s.handleAll events).autoExpand = s.autoExpand := by
  obtain ⟨tree, shown, same⟩ := s.exists_handleAll events
  rw [same]

theorem tracker_handleAll (s : Store) (events : List Event) :
    (s.handleAll events).tracker = s.tracker := by
  obtain ⟨tree, shown, same⟩ := s.exists_handleAll events
  rw [same]

theorem exists_toggle (s : Store) (id : String) :
    ∃ shown, s.toggle id = { s with expanded := shown } := by
  unfold toggle expand
  split
  · exact ⟨s.expanded.filter (· ≠ id), rfl⟩
  · exact ⟨id :: s.expanded, rfl⟩

theorem expanded_handle (s : Store) (e : Event) :
    (s.handle e).expanded =
      if s.tree.rejection? e = none then (s.expandStarted e).expanded else s.expanded := by
  unfold handle
  cases s.tree.rejection? e <;> rfl

theorem expandStarted_congr (u s : Store) (e : Event) (auto : u.autoExpand = s.autoExpand)
    (expanded : u.expanded = s.expanded) :
    (u.expandStarted e).expanded = (s.expandStarted e).expanded := by
  cases e with
  | spawn id =>
      simp only [expandStarted, expand, auto, expanded]
      split
      · split
        · exact expanded
        · rfl
      · exact expanded
  | _ => exact expanded

end Store

end Playback.Agents
