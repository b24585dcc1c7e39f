import Playback.Proofs.Agents.Change
import Mathlib.Data.List.Nodup
import Mathlib.Logic.Relation

namespace Playback.Agents

namespace Tree

def IsChild (t : Tree) (child parent : String) : Prop :=
  ∃ a, t.agent? child = some a ∧ a.parent = some parent

structure IsForest (t : Tree) : Prop where
  ids_nodup : t.ids.Nodup
  stored : ∀ a ∈ t.records, t.agent? a.id = some a
  child_has_parent : ∀ p a c, t.agent? p = some a → c ∈ a.children →
    ∃ b, t.agent? c = some b ∧ b.parent = some p
  children_nodup : ∀ p a, t.agent? p = some a → a.children.Nodup
  child_of_one : ∀ p q a b c, t.agent? p = some a → t.agent? q = some b →
    c ∈ a.children → c ∈ b.children → p = q
  parent_has_child : ∀ c b p, t.agent? c = some b → b.parent = some p →
    ∃ a, t.agent? p = some a ∧ c ∈ a.children
  roots_nodup : t.roots.Nodup
  root_has_no_parent : ∀ r ∈ t.roots, ∃ a, t.agent? r = some a ∧ a.parent = none
  root_not_child : ∀ r ∈ t.roots, ∀ p a, t.agent? p = some a → r ∉ a.children
  acyclic : ∀ id, ¬ Relation.TransGen t.IsChild id id

/-- What follows from the other parts: ids that are found, and children in one list only. -/
theorem isForest_of_links (t : Tree) (distinct : t.ids.Nodup)
    (child_has_parent : ∀ p a c, t.agent? p = some a → c ∈ a.children →
      ∃ b, t.agent? c = some b ∧ b.parent = some p)
    (children_nodup : ∀ p a, t.agent? p = some a → a.children.Nodup)
    (parent_has_child : ∀ c b p, t.agent? c = some b → b.parent = some p →
      ∃ a, t.agent? p = some a ∧ c ∈ a.children)
    (roots_nodup : t.roots.Nodup)
    (root_has_no_parent : ∀ r ∈ t.roots, ∃ a, t.agent? r = some a ∧ a.parent = none)
    (acyclic : ∀ id, ¬ Relation.TransGen t.IsChild id id) : t.IsForest where
  ids_nodup := distinct
  stored := t.agent?_of_mem distinct
  child_has_parent := child_has_parent
  children_nodup := children_nodup
  child_of_one := by
    intro p q a b c hp hq inFirst inSecond
    obtain ⟨first, hfirst, firstParent⟩ := child_has_parent p a c hp inFirst
    obtain ⟨second, hsecond, secondParent⟩ := child_has_parent q b c hq inSecond
    obtain rfl : first = second := Option.some.inj (hfirst.symm.trans hsecond)
    exact Option.some.inj (firstParent.symm.trans secondParent)
  parent_has_child := parent_has_child
  roots_nodup := roots_nodup
  root_has_no_parent := root_has_no_parent
  root_not_child := by
    intro r root p a hp listed
    obtain ⟨b, hb, none⟩ := root_has_no_parent r root
    obtain ⟨c, hc, parent⟩ := child_has_parent p a r hp listed
    obtain rfl : b = c := Option.some.inj (hb.symm.trans hc)
    simp [none] at parent
  acyclic := acyclic

theorem isForest_empty (version : Nat) : ({ empty with version := version } : Tree).IsForest := by
  have nobody (id : String) : ({ empty with version := version } : Tree).agent? id = none := rfl
  apply isForest_of_links
  · exact List.nodup_nil
  · intro p a c found
    simp [nobody] at found
  · intro p a found
    simp [nobody] at found
  · intro c b p found
    simp [nobody] at found
  · exact List.nodup_nil
  · intro r root
    cases root
  · intro id cycle
    obtain ⟨c, -, a, found, -⟩ := Relation.TransGen.tail'_iff.mp cycle
    simp [nobody] at found

def links (t : Tree) (id : String) : Option (Option String × List String) :=
  (t.agent? id).map fun a => (a.parent, a.children)

theorem agent?_of_links (t u : Tree) (id : String) (a : Agent) (same : t.links id = u.links id)
    (found : t.agent? id = some a) :
    ∃ b, u.agent? id = some b ∧ b.parent = a.parent ∧ b.children = a.children := by
  unfold links at same
  rw [found] at same
  obtain ⟨b, hb, pair⟩ := Option.map_eq_some_iff.mp same.symm
  simp only [Prod.mk.injEq] at pair
  exact ⟨b, hb, pair.1, pair.2⟩

theorem isChild_of_links (t u : Tree) (same : ∀ id, t.links id = u.links id) (c p : String)
    (child : t.IsChild c p) : u.IsChild c p := by
  obtain ⟨a, found, parent⟩ := child
  obtain ⟨b, hb, parents, -⟩ := agent?_of_links t u c a (same c) found
  exact ⟨b, hb, parents.trans parent⟩

theorem isForest_congr (t u : Tree) (ids : u.ids = t.ids) (roots : u.roots = t.roots)
    (same : ∀ id, u.links id = t.links id) (forest : t.IsForest) : u.IsForest := by
  apply isForest_of_links
  · rw [ids]
    exact forest.ids_nodup
  · intro p a c found listed
    obtain ⟨b, hb, -, children⟩ := agent?_of_links u t p a (same p) found
    obtain ⟨d, hd, parent⟩ := forest.child_has_parent p b c hb (children ▸ listed)
    obtain ⟨e, he, parents, -⟩ := agent?_of_links t u c d (same c).symm hd
    exact ⟨e, he, parents.trans parent⟩
  · intro p a found
    obtain ⟨b, hb, -, children⟩ := agent?_of_links u t p a (same p) found
    exact children ▸ forest.children_nodup p b hb
  · intro c b p found parent
    obtain ⟨d, hd, parents, -⟩ := agent?_of_links u t c b (same c) found
    obtain ⟨a, ha, listed⟩ := forest.parent_has_child c d p hd (parents.trans parent)
    obtain ⟨e, he, -, children⟩ := agent?_of_links t u p a (same p).symm ha
    exact ⟨e, he, children ▸ listed⟩
  · exact roots ▸ forest.roots_nodup
  · intro r root
    obtain ⟨a, ha, none⟩ := forest.root_has_no_parent r (roots ▸ root)
    obtain ⟨b, hb, parents, -⟩ := agent?_of_links t u r a (same r).symm ha
    exact ⟨b, hb, parents.trans none⟩
  · intro id cycle
    exact forest.acyclic id (Relation.TransGen.mono (isChild_of_links u t same) _ _ cycle)

theorem links_modify_receive (t : Tree) (stamp : Stamp) (e : Event) (id : String) :
    (t.modify e.agent (·.receive stamp e)).links id = t.links id := by
  unfold links
  rw [agent?_modify t e.agent id (·.receive stamp e) fun a => (a.receive_links stamp e).1,
    Option.map_map]
  congr 1
  funext a
  obtain ⟨-, parent, children⟩ := a.receive_links stamp e
  by_cases same : a.id = e.agent <;> simp [same, parent, children]

section Start

variable (t : Tree) (stamp : Stamp) (id : String) (parent : Option String)
  (name description task : String)

theorem agent?_addAgent_of_ne (absent : t.contains id = false) (k : String) (a : Agent)
    (other : k ≠ id) (found : t.agent? k = some a) :
    (t.addAgent stamp id parent name description task).agent? k =
      some (a.attach (t.host? parent) id) := by
  rw [agent?_addAgent t stamp id parent name description task k absent, if_neg other, found]
  rfl

theorem agent?_addAgent_self (absent : t.contains id = false) :
    (t.addAgent stamp id parent name description task).agent? id =
      some (t.fresh stamp id parent name description task) := by
  rw [agent?_addAgent t stamp id parent name description task id absent, if_pos rfl]

theorem agent?_addAgent_cases (absent : t.contains id = false) (k : String) (a : Agent)
    (found : (t.addAgent stamp id parent name description task).agent? k = some a) :
    (k = id ∧ a = t.fresh stamp id parent name description task) ∨
      (k ≠ id ∧ ∃ b, t.agent? k = some b ∧ a = b.attach (t.host? parent) id) := by
  rw [agent?_addAgent t stamp id parent name description task k absent] at found
  by_cases self : k = id
  · rw [if_pos self] at found
    exact .inl ⟨self, (Option.some.inj found).symm⟩
  · rw [if_neg self] at found
    obtain ⟨b, hb, same⟩ := Option.map_eq_some_iff.mp found
    exact .inr ⟨self, b, hb, same.symm⟩

theorem ne_of_agent? (absent : t.contains id = false) (k : String) (a : Agent)
    (found : t.agent? k = some a) : k ≠ id := by
  rintro rfl
  simp [(contains_eq_false_iff t k).mp absent] at found

theorem mem_attach_children (a : Agent) (host : Option String) (child c : String) :
    c ∈ (a.attach host child).children ↔ c ∈ a.children ∨ (host = some a.id ∧ c = child) := by
  rw [Agent.attach_children]
  by_cases hosted : host = some a.id <;> simp [hosted]

/-- Nobody is filed under a new agent. -/
theorem isChild_addAgent (forest : t.IsForest) (absent : t.contains id = false) (c p : String)
    (child : (t.addAgent stamp id parent name description task).IsChild c p) :
    p ≠ id ∧ (c ≠ id → t.IsChild c p) := by
  obtain ⟨a, found, named⟩ := child
  rcases agent?_addAgent_cases t stamp id parent name description task absent c a found with
    ⟨self, rfl⟩ | ⟨-, b, hb, rfl⟩
  · refine ⟨?_, fun other => absurd self other⟩
    rintro rfl
    simp [contains_of_host? t parent p named] at absent
  · rw [Agent.attach_parent] at named
    obtain ⟨q, hq, -⟩ := forest.parent_has_child c b p hb named
    exact ⟨ne_of_agent? t id absent p q hq, fun _ => ⟨b, hb, named⟩⟩

theorem transGen_of_addAgent (forest : t.IsForest) (absent : t.contains id = false) (c p : String)
    (path : Relation.TransGen (t.addAgent stamp id parent name description task).IsChild c p) :
    p ≠ id ∧ (c ≠ id → Relation.TransGen t.IsChild c p) := by
  have step := isChild_addAgent t stamp id parent name description task forest absent
  induction path with
  | single child =>
      obtain ⟨ne, before⟩ := step _ _ child
      exact ⟨ne, fun other => .single (before other)⟩
  | tail _ child ih =>
      obtain ⟨ne, before⟩ := step _ _ child
      exact ⟨ne, fun other => (ih.2 other).tail (before ih.1)⟩

theorem nodup_ids_addAgent (absent : t.contains id = false) (distinct : t.ids.Nodup) :
    (t.addAgent stamp id parent name description task).ids.Nodup := by
  rw [ids_addAgent t stamp id parent name description task absent]
  have new : id ∉ t.ids := by
    rw [← contains_iff_mem_ids, absent]
    exact Bool.false_ne_true
  simpa using List.Nodup.concat new distinct

theorem child_has_parent_addAgent (forest : t.IsForest) (absent : t.contains id = false)
    (p : String) (a : Agent) (c : String)
    (found : (t.addAgent stamp id parent name description task).agent? p = some a)
    (listed : c ∈ a.children) :
    ∃ b, (t.addAgent stamp id parent name description task).agent? c = some b ∧
      b.parent = some p := by
  rcases agent?_addAgent_cases t stamp id parent name description task absent p a found with
    ⟨-, rfl⟩ | ⟨-, b, hb, rfl⟩
  · cases listed
  · rcases (mem_attach_children b _ id c).mp listed with before | ⟨hosted, rfl⟩
    · obtain ⟨d, hd, named⟩ := forest.child_has_parent p b c hb before
      exact ⟨_, agent?_addAgent_of_ne t stamp id parent name description task absent c d
        (ne_of_agent? t id absent c d hd) hd, by rw [Agent.attach_parent, named]⟩
    · exact ⟨_, agent?_addAgent_self t stamp c parent name description task absent,
        by rw [← id_of_agent? t p b hb]; exact hosted⟩

theorem children_nodup_addAgent (forest : t.IsForest) (absent : t.contains id = false)
    (p : String) (a : Agent)
    (found : (t.addAgent stamp id parent name description task).agent? p = some a) :
    a.children.Nodup := by
  rcases agent?_addAgent_cases t stamp id parent name description task absent p a found with
    ⟨-, rfl⟩ | ⟨-, b, hb, rfl⟩
  · exact List.nodup_nil
  · have before := forest.children_nodup p b hb
    have new : id ∉ b.children := by
      intro listed
      obtain ⟨d, hd, -⟩ := forest.child_has_parent p b id hb listed
      exact ne_of_agent? t id absent id d hd rfl
    rw [Agent.attach_children]
    by_cases hosted : t.host? parent = some b.id
    · simpa [hosted] using List.Nodup.concat new before
    · simpa [hosted] using before

theorem parent_has_child_addAgent (forest : t.IsForest) (absent : t.contains id = false)
    (c : String) (b : Agent) (p : String)
    (found : (t.addAgent stamp id parent name description task).agent? c = some b)
    (named : b.parent = some p) :
    ∃ a, (t.addAgent stamp id parent name description task).agent? p = some a ∧
      c ∈ a.children := by
  have kept (k : String) (a : Agent) (found : t.agent? k = some a) :=
    agent?_addAgent_of_ne t stamp id parent name description task absent k a
      (ne_of_agent? t id absent k a found) found
  rcases agent?_addAgent_cases t stamp id parent name description task absent c b found with
    ⟨rfl, rfl⟩ | ⟨-, d, hd, rfl⟩
  · obtain ⟨a, ha⟩ := (contains_iff_exists t p).mp (contains_of_host? t parent p named)
    refine ⟨_, kept p a ha, (mem_attach_children a _ c c).mpr (.inr ⟨?_, rfl⟩)⟩
    rw [id_of_agent? t p a ha]
    exact named
  · rw [Agent.attach_parent] at named
    obtain ⟨a, ha, listed⟩ := forest.parent_has_child c d p hd named
    exact ⟨_, kept p a ha, (mem_attach_children a _ id c).mpr (.inl listed)⟩

theorem roots_nodup_addAgent (forest : t.IsForest) (absent : t.contains id = false) :
    (t.addAgent stamp id parent name description task).roots.Nodup := by
  rw [roots_addAgent t stamp id parent name description task absent]
  split
  · have new : id ∉ t.roots := by
      intro root
      obtain ⟨a, ha, -⟩ := forest.root_has_no_parent id root
      exact ne_of_agent? t id absent id a ha rfl
    simpa using List.Nodup.concat new forest.roots_nodup
  · exact forest.roots_nodup

theorem root_has_no_parent_addAgent (forest : t.IsForest) (absent : t.contains id = false)
    (r : String) (root : r ∈ (t.addAgent stamp id parent name description task).roots) :
    ∃ a, (t.addAgent stamp id parent name description task).agent? r = some a ∧
      a.parent = none := by
  have before (root : r ∈ t.roots) :
      ∃ a, (t.addAgent stamp id parent name description task).agent? r = some a ∧
        a.parent = none := by
    obtain ⟨a, ha, none⟩ := forest.root_has_no_parent r root
    exact ⟨_, agent?_addAgent_of_ne t stamp id parent name description task absent r a
      (ne_of_agent? t id absent r a ha) ha, by rw [Agent.attach_parent, none]⟩
  rw [roots_addAgent t stamp id parent name description task absent] at root
  split at root
  · rename_i unnamed
    rcases List.mem_append.mp root with root | new
    · exact before root
    · obtain rfl := List.mem_singleton.mp new
      exact ⟨_, agent?_addAgent_self t stamp r parent name description task absent,
        by simp [fresh, host?, unnamed]⟩
  · exact before root

theorem isForest_addAgent (forest : t.IsForest) (absent : t.contains id = false) :
    (t.addAgent stamp id parent name description task).IsForest := by
  apply isForest_of_links
  · exact t.nodup_ids_addAgent stamp id parent name description task absent forest.ids_nodup
  · exact t.child_has_parent_addAgent stamp id parent name description task forest absent
  · exact t.children_nodup_addAgent stamp id parent name description task forest absent
  · exact t.parent_has_child_addAgent stamp id parent name description task forest absent
  · exact t.roots_nodup_addAgent stamp id parent name description task forest absent
  · exact t.root_has_no_parent_addAgent stamp id parent name description task forest absent
  · intro k cycle
    -- a way round would have to go through the new agent, which is nobody's parent
    have path :=
      transGen_of_addAgent t stamp id parent name description task forest absent k k cycle
    exact forest.acyclic k (path.2 path.1)

end Start

theorem isForest_next (t : Tree) (stamp : Stamp) (e : Event) (forest : t.IsForest) :
    (t.next stamp e).IsForest := by
  have raised (u : Tree) (kept : u.IsForest) :
      ({ u with version := t.version + 1 } : Tree).IsForest :=
    isForest_congr u _ rfl rfl (fun _ => rfl) kept
  rcases t.next_cases stamp e with ⟨-, same⟩ |
    ⟨id, parent, name, description, task, rfl, absent, started⟩ | ⟨-, -, changed⟩
  · rw [same]
    exact forest
  · rw [started]
    exact raised _ (isForest_addAgent t stamp id parent name description task forest absent)
  · rw [changed]
    refine raised _ (isForest_congr t _ ?_ rfl (links_modify_receive t stamp e) forest)
    exact ids_modify t e.agent _ fun a => (a.receive_links stamp e).1

end Tree

end Playback.Agents
