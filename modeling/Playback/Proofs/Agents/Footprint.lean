import Playback.Proofs.Agents.Acceptance
import Playback.Proofs.Agents.Listening

namespace Playback.Agents

/-- What may become of an entry of the log of an event's agent: nothing, or another content. It goes
on if it is the last one and the assistant's, and is replaced if it is of the call that is
answered. -/
inductive Message.KeptBy (e : Event) (isLast : Prop) (m : Message) : Message → Prop
  | same : m.KeptBy e isLast m
  | extended {agent content : String} (delta : e = .delta agent content) (last : isLast)
      (said : m.role = .assistant) : m.KeptBy e isLast { m with content := m.content ++ content }
  | answered {agent call result : String} {isError : Bool}
      (answer : e = .toolResult agent call result isError) (made : m.call = some call) :
      m.KeptBy e isLast { m with content := Agent.resultText result isError }

namespace Agent

structure KeptBy (e : Event) (a b : Agent) : Prop where
  links : b.id = a.id ∧ b.parent = a.parent ∧ b.children = a.children
  start : b.name = a.name ∧ b.description = a.description ∧ b.task = a.task ∧
    b.started = a.started
  log : ∀ i m, a.messages[i]? = some m →
    ∃ n, b.messages[i]? = some n ∧ Message.KeptBy e (i + 1 = a.messages.length) m n

variable (a : Agent) (stamp : Stamp)

theorem log_append (e : Event) (more : List Message) (i : Nat) (m : Message)
    (entry : a.messages[i]? = some m) :
    ∃ n, (a.messages ++ more)[i]? = some n ∧ m.KeptBy e (i + 1 = a.messages.length) n := by
  obtain ⟨within, -⟩ := List.getElem?_eq_some_iff.mp entry
  rw [List.getElem?_append_left within]
  exact ⟨m, entry, .same⟩

theorem log_addDelta (agent content : String) (i : Nat) (m : Message)
    (entry : a.messages[i]? = some m) :
    ∃ n, (a.addDelta stamp content).messages[i]? = some n ∧
      m.KeptBy (.delta agent content) (i + 1 = a.messages.length) n := by
  unfold addDelta
  cases ending : a.messages.getLast? with
  | none =>
      rw [List.getLast?_eq_none_iff.mp ending] at entry
      cases entry
  | some last =>
      dsimp only
      obtain ⟨earlier, whole⟩ := List.getLast?_eq_some_iff.mp ending
      split
      · rename_i said
        rw [whole] at entry ⊢
        rw [List.dropLast_concat, List.length_append, List.length_singleton]
        rcases Nat.lt_or_ge i earlier.length with before | there
        · rw [List.getElem?_append_left before] at entry ⊢
          exact ⟨m, entry, .same⟩
        · rw [List.getElem?_append_right there] at entry ⊢
          have here : i - earlier.length = 0 := by
            by_contra beyond
            simp [beyond] at entry
          rw [here] at entry ⊢
          obtain rfl : last = m := Option.some.inj entry
          exact ⟨_, rfl, .extended rfl (by omega) said⟩
      · exact a.log_append _ _ i m entry

theorem log_addToolResult (agent call result : String) (isError : Bool) (i : Nat) (m : Message)
    (entry : a.messages[i]? = some m) :
    ∃ n, (a.addToolResult call (resultText result isError)).messages[i]? = some n ∧
      m.KeptBy (.toolResult agent call result isError) (i + 1 = a.messages.length) n := by
  simp only [addToolResult, List.getElem?_map, entry, Option.map_some, Option.some.injEq,
    exists_eq_left']
  split
  · rename_i made
    exact .answered rfl made
  · exact .same

theorem start_receive (e : Event) :
    (a.receive stamp e).name = a.name ∧ (a.receive stamp e).description = a.description ∧
      (a.receive stamp e).task = a.task ∧ (a.receive stamp e).started = a.started := by
  cases e with
  | delta _ content =>
      obtain ⟨log, same⟩ := a.exists_addDelta stamp content
      rw [receive, same]
      exact ⟨rfl, rfl, rfl, rfl⟩
  | _ => exact ⟨rfl, rfl, rfl, rfl⟩

theorem keptBy_receive (e : Event) : a.KeptBy e (a.receive stamp e) where
  links := a.receive_links stamp e
  start := a.start_receive stamp e
  log := by
    intro i m entry
    cases e with
    | delta agent content => exact a.log_addDelta stamp agent content i m entry
    | toolCall agent call tool => exact a.log_append _ _ i m entry
    | toolResult agent call result isError =>
        exact a.log_addToolResult agent call result isError i m entry
    | _ => exact ⟨m, entry, .same⟩

def labels (a : Agent) : List Message := a.messages.map ({ · with content := "" })

/-- Nothing of a record has been removed from another, or stands there in another order: no child
and no entry of the log, each of which has kept all but its content. -/
structure StaysIn (a b : Agent) : Prop where
  parent : b.parent = a.parent
  children : a.children <+: b.children
  log : a.labels <+: b.labels

theorem StaysIn.refl : a.StaysIn a := ⟨rfl, List.prefix_rfl, List.prefix_rfl⟩

theorem StaysIn.trans {a b c : Agent} (first : a.StaysIn b) (second : b.StaysIn c) :
    a.StaysIn c where
  parent := second.parent.trans first.parent
  children := first.children.trans second.children
  log := first.log.trans second.log

theorem KeptBy.labels_prefix {e : Event} {a b : Agent} (kept : a.KeptBy e b) :
    a.labels <+: b.labels := by
  rw [List.prefix_iff_getElem?]
  intro i within
  simp only [labels, List.length_map] at within
  obtain ⟨n, entry, content⟩ := kept.log i a.messages[i] (List.getElem?_eq_getElem within)
  simp only [labels, List.getElem?_map, entry, List.getElem_map, Option.map_some]
  cases content <;> rfl

end Agent

namespace Tree

/-- Nothing comes of an event: it starts an agent that is there, is about one that is not, or
answers a call that the log of its agent does not have. -/
inductive IsVain (t : Tree) (e : Event) : Prop
  | startsAgain (start : e.kind = .spawn) (present : t.contains e.agent = true)
  | aboutNobody (other : e.kind ≠ .spawn) (absent : t.contains e.agent = false)
  | answersNothing {agent call result : String} {isError : Bool} {a : Agent}
      (answer : e = .toolResult agent call result isError) (found : t.agent? agent = some a)
      (unmatched : ∀ m ∈ a.messages, m.call ≠ some call)

def SameBut (t : Tree) (ids : List String) (u : Tree) : Prop := ∀ k ∉ ids, u.agent? k = t.agent? k

/-- Where a start files the id of the new agent, at the end: among the roots if no parent is named,
with the parent if that is there, and nowhere otherwise. No other record changes. -/
inductive Files (t : Tree) (id : String) (u : Tree) : Option String → Option String → Prop
  | root {parent : Option String} (unnamed : parent = none ∨ parent = some "")
      (roots : u.roots = t.roots ++ [id]) (others : t.SameBut [id] u) : t.Files id u parent none
  | child {p : String} {a : Agent} (named : p ≠ "") (found : t.agent? p = some a)
      (listed : u.agent? p = some { a with children := a.children ++ [id] })
      (roots : u.roots = t.roots) (others : t.SameBut [id, p] u) : t.Files id u (some p) (some p)
  | alone {p : String} (named : p ≠ "") (missing : t.agent? p = none) (roots : u.roots = t.roots)
      (others : t.SameBut [id] u) : t.Files id u (some p) none

/-- What an event does that something comes of. -/
inductive Takes (t : Tree) (stamp : Stamp) : Event → Tree → Prop
  | start {id name description task : String} {parent host : Option String} {u : Tree}
      (absent : t.agent? id = none) (ids : u.ids = t.ids ++ [id])
      (own : u.agent? id = some { Agent.start id name task stamp.time with
        description := description, parent := host })
      (filed : t.Files id u parent host) :
      t.Takes stamp (.spawn id parent name description task) u
  | change {e : Event} {a b : Agent} {u : Tree} (other : e.kind ≠ .spawn)
      (found : t.agent? e.agent = some a) (changed : u.agent? e.agent = some b)
      (kept : a.KeptBy e b) (ids : u.ids = t.ids) (roots : u.roots = t.roots)
      (others : t.SameBut [e.agent] u) : t.Takes stamp e u

variable (t : Tree) (stamp : Stamp)

theorem rejection?_ne_none_iff (e : Event) : t.rejection? e ≠ none ↔ t.IsVain e := by
  rw [ne_eq, rejection?_eq_none_iff]
  constructor
  · intro refused
    by_cases present : t.contains e.agent = true
    · cases e with
      | spawn => exact .startsAgain rfl present
      | toolResult agent call result isError =>
          obtain ⟨a, found⟩ := (contains_iff_exists t agent).mp present
          refine .answersNothing rfl found fun m member made => ?_
          exact refused ⟨a, found, List.mem_map.mpr ⟨m, member, made⟩⟩
      | _ => exact absurd present refused
    · have absent : t.contains e.agent = false := Bool.eq_false_iff.mpr present
      cases e with
      | spawn => exact absurd absent refused
      | _ => exact .aboutNobody Kind.noConfusion absent
  · intro vain taken
    cases vain with
    | startsAgain start present =>
        cases e with
        | spawn => exact Bool.false_ne_true (taken.symm.trans present)
        | _ => cases start
    | aboutNobody other absent =>
        have missing := (contains_eq_false_iff t e.agent).mp absent
        cases e with
        | spawn => exact other rfl
        | toolResult agent call =>
            obtain ⟨a, found, -⟩ := taken
            cases missing.symm.trans found
        | _ => exact Bool.false_ne_true (absent.symm.trans taken)
    | answersNothing answer found unmatched =>
        subst answer
        obtain ⟨a, present, made⟩ := taken
        obtain ⟨m, member, same⟩ := List.mem_map.mp made
        obtain rfl := Option.some.inj (found.symm.trans present)
        exact unmatched m member same

section Start

variable (id : String) (parent : Option String) (name description task : String)

theorem eq_some_of_namedParent (p : String) (named : namedParent parent = some p) :
    parent = some p ∧ p ≠ "" := by
  obtain ⟨same, solid⟩ := Option.filter_eq_some_iff.mp named
  exact ⟨same, of_decide_eq_true solid⟩

theorem files_addAgent (absent : t.contains id = false) :
    t.Files id (t.addAgent stamp id parent name description task) parent (t.host? parent) := by
  have roots := roots_addAgent t stamp id parent name description task absent
  have agents (k : String) := agent?_addAgent t stamp id parent name description task k absent
  -- without a host every other record is as it was
  have others (hostless : t.host? parent = none) :
      t.SameBut [id] (t.addAgent stamp id parent name description task) := by
    intro k other
    rw [agents k, if_neg (List.mem_singleton.not.mp other), hostless]
    simp [Agent.attach_none]
  cases named : namedParent parent with
  | none =>
      have hostless : t.host? parent = none := by simp [host?, named]
      rw [hostless]
      refine .root ((namedParent_eq_none_iff parent).mp named) ?_ (others hostless)
      rw [roots, if_pos named]
  | some p =>
      obtain ⟨rfl, solid⟩ := eq_some_of_namedParent parent p named
      rw [named, if_neg (Option.some_ne_none p)] at roots
      cases found : t.agent? p with
      | none =>
          have hostless : t.host? (some p) = none := by simp [host?, named, contains, found]
          rw [hostless]
          exact .alone solid found roots (others hostless)
      | some a =>
          have hosted : t.host? (some p) = some p := by simp [host?, named, contains, found]
          have own := t.id_of_agent? p a found
          rw [hosted] at agents ⊢
          refine .child solid found ?_ roots ?_
          · rw [agents p, if_neg (ne_of_agent? t id absent p a found), found]
            simp [Agent.attach, Agent.addChild, own]
          · intro k other
            simp only [List.mem_cons, List.not_mem_nil, or_false, not_or] at other
            rw [agents k, if_neg other.1]
            cases here : t.agent? k with
            | none => rfl
            | some b =>
                have apart : p ≠ b.id := by
                  rw [t.id_of_agent? k b here]
                  exact Ne.symm other.2
                simp [Agent.attach, apart]

theorem Files.withVersion {u : Tree} {host : Option String} (version : Nat)
    (filed : t.Files id u parent host) : t.Files id { u with version := version } parent host := by
  cases filed with
  | root unnamed roots others => exact .root unnamed roots others
  | child named found listed roots others => exact .child named found listed roots others
  | alone named missing roots others => exact .alone named missing roots others

end Start

theorem takes_next (e : Event) (taken : t.rejection? e = none) :
    t.Takes stamp e (t.next stamp e) := by
  rcases t.next_cases stamp e with ⟨refused, -⟩ |
    ⟨id, parent, name, description, task, rfl, absent, started⟩ | ⟨other, present, changed⟩
  · exact absurd taken refused
  · have filed := t.files_addAgent stamp id parent name description task absent
    have own := agent?_addAgent_self t stamp id parent name description task absent
    have ids := ids_addAgent t stamp id parent name description task absent
    rw [started]
    exact .start ((contains_eq_false_iff t id).mp absent) ids own
      (filed.withVersion t id parent (t.version + 1))
  · have about (b : Agent) : (b.receive stamp e).id = b.id := (b.receive_links stamp e).1
    have agents (k : String) := agent?_modify t e.agent k (·.receive stamp e) about
    obtain ⟨a, found⟩ := (contains_iff_exists t e.agent).mp present
    have own := t.id_of_agent? e.agent a found
    have start : e.kind ≠ .spawn := by
      intro same
      cases e with
      | spawn id parent name description task => exact other id parent name description task rfl
      | _ => cases same
    rw [changed]
    refine .change start found (b := a.receive stamp e) ?_ (a.keptBy_receive stamp e) ?_ rfl ?_
    · change (t.modify e.agent (·.receive stamp e)).agent? e.agent = _
      rw [agents, found, Option.map_some, if_pos own]
    · exact ids_modify t e.agent _ about
    · intro k apart
      change (t.modify e.agent (·.receive stamp e)).agent? k = _
      rw [agents]
      cases here : t.agent? k with
      | none => rfl
      | some b =>
          have different : b.id ≠ e.agent := by
            rw [t.id_of_agent? k b here]
            exact List.mem_singleton.not.mp apart
          rw [Option.map_some, if_neg different]

/-- Nothing of a tree has been removed from another, or stands there in another order. -/
structure StaysIn (t u : Tree) : Prop where
  ids : t.ids <+: u.ids
  roots : t.roots <+: u.roots
  records : ∀ k a, t.agent? k = some a → ∃ b, u.agent? k = some b ∧ a.StaysIn b

theorem StaysIn.refl : t.StaysIn t where
  ids := List.prefix_rfl
  roots := List.prefix_rfl
  records := fun _ a found => ⟨a, found, .refl a⟩

theorem StaysIn.trans {t u v : Tree} (first : t.StaysIn u) (second : u.StaysIn v) :
    t.StaysIn v where
  ids := first.ids.trans second.ids
  roots := first.roots.trans second.roots
  records := by
    intro k a found
    obtain ⟨b, here, earlier⟩ := first.records k a found
    obtain ⟨c, there, later⟩ := second.records k b here
    exact ⟨c, there, earlier.trans later⟩

theorem Files.roots_prefix {id : String} {u : Tree} {parent host : Option String}
    (filed : t.Files id u parent host) : t.roots <+: u.roots := by
  cases filed with
  | root _ roots _ => exact roots ▸ List.prefix_append t.roots [id]
  | child _ _ _ roots _ => exact roots ▸ List.prefix_rfl
  | alone _ _ roots _ => exact roots ▸ List.prefix_rfl

theorem Files.staysIn {id k : String} {a : Agent} {u : Tree} {parent host : Option String}
    (filed : t.Files id u parent host) (other : k ≠ id) (found : t.agent? k = some a) :
    ∃ b, u.agent? k = some b ∧ a.StaysIn b := by
  have apart : k ∉ [id] := List.mem_singleton.not.mpr other
  cases filed with
  | root _ _ others => exact ⟨a, (others k apart).trans found, .refl a⟩
  | alone _ _ _ others => exact ⟨a, (others k apart).trans found, .refl a⟩
  | @child p b _ host listed _ others =>
      by_cases here : k = p
      · subst here
        obtain rfl := Option.some.inj (found.symm.trans host)
        exact ⟨_, listed, rfl, List.prefix_append a.children [id], List.prefix_rfl⟩
      · have neither : k ∉ [id, p] := by simp [other, here]
        exact ⟨a, (others k neither).trans found, .refl a⟩

theorem Takes.staysIn {e : Event} {u : Tree} (takes : t.Takes stamp e u) : t.StaysIn u := by
  cases takes with
  | @start id name description task parent host _ absent ids _ filed =>
      refine ⟨ids ▸ List.prefix_append t.ids [id], filed.roots_prefix, fun k a found => ?_⟩
      refine filed.staysIn t ?_ found
      rintro rfl
      cases absent.symm.trans found
  | @change _ a b _ _ found changed kept ids roots others =>
      refine ⟨ids ▸ List.prefix_rfl, roots ▸ List.prefix_rfl, fun k c here => ?_⟩
      by_cases own : k = e.agent
      · subst own
        obtain rfl := Option.some.inj (here.symm.trans found)
        exact ⟨b, changed, kept.links.2.1, kept.links.2.2 ▸ List.prefix_rfl, kept.labels_prefix⟩
      · have apart : k ∉ [e.agent] := List.mem_singleton.not.mpr own
        exact ⟨c, (others k apart).trans here, .refl c⟩

end Tree

namespace Store

theorem staysIn_handleAll (s : Store) (events : List Event) :
    s.tree.StaysIn (s.handleAll events).tree := by
  induction events generalizing s with
  | nil => exact .refl s.tree
  | cons e events ih =>
      have step : s.tree.StaysIn (s.handle e).tree := by
        by_cases taken : s.tree.rejection? e = none
        · rw [handle_tree]
          exact (s.tree.takes_next s.stamp e taken).staysIn
        · rw [s.handle_of_refused e taken]
          exact .refl s.tree
      exact step.trans (ih (s.handle e))

theorem staysIn_run (s : Store) (ops : List Operation) (kept : .clear ∉ ops) :
    s.tree.StaysIn (s.run ops).tree := by
  induction ops generalizing s with
  | nil => exact .refl s.tree
  | cons op ops ih =>
      simp only [List.mem_cons, not_or] at kept
      obtain ⟨other, rest⟩ := kept
      have step : s.tree.StaysIn (s.perform op).tree := by
        rw [s.perform_tree op (Ne.symm other)]
        exact s.staysIn_handleAll (s.handed op)
      exact step.trans (ih (s.perform op) rest)

/-- Of an event nothing comes just if it starts an agent that is there, is about one that is not, or
answers a call that its agent did not make: the store stays as it was and tells nobody. Any other
event makes the next version, of which everyone who listens is told, and changes the record of its
agent in the ways told, or adds one and files its id in one place. Until a clear nothing is ever
removed or put in another order. -/
theorem handle_footprint (s : Store) (e : Event) :
    (s.tree.rejection? e ≠ none ↔ s.tree.IsVain e) ∧
      (s.tree.IsVain e → s.handle e = s ∧ s.callsOf e = []) ∧
      (¬ s.tree.IsVain e →
        (s.handle e).tree.version = s.tree.version + 1 ∧
        s.callsOf e = s.listeners.map (⟨·, (s.handle e).tree⟩) ∧
        s.tree.Takes s.stamp e (s.handle e).tree) ∧
      ∀ ops, .clear ∉ ops → s.tree.StaysIn (s.run ops).tree := by
  have refused := s.tree.rejection?_ne_none_iff e
  refine ⟨refused, fun vain => ?_, fun fruitful => ?_, s.staysIn_run⟩
  · have why := refused.mpr vain
    refine ⟨s.handle_of_refused e why, ?_⟩
    rw [callsOf, if_pos (Option.isSome_iff_ne_none.mpr why)]
  · have taken : s.tree.rejection? e = none := not_not.mp (refused.not.mpr fruitful)
    refine ⟨?_, ?_, ?_⟩
    · rw [s.version_handle e, if_pos taken]
    · rw [callsOf, taken, calls, (s.listeners_handle e).1]
      rfl
    · rw [handle_tree]
      exact s.tree.takes_next s.stamp e taken

theorem handle_footprint_of_seeded :
    let agent := { Agent.start "a" "" "" default with
      children := ["b"], messages := [⟨"1", .tool, "", some "look", some "1", default⟩] }
    let s := ofAgents true default 0 [agent]
    let answer := Event.toolResult "a" "2" "" false
    let start := Event.spawn "b" (some "a") "" "" ""
    let ops : List Operation := [.handle (.delta "a" "x"), .toggle "a", .handle start]
    s.tree.IsVain answer ∧ s.handle answer = s ∧ s.callsOf answer = [] ∧
      ¬ s.tree.IsVain start ∧ (s.handle start).tree.version = s.tree.version + 1 ∧
      s.tree.Takes s.stamp start (s.handle start).tree ∧
      Operation.clear ∉ ops ∧ s.tree.StaysIn (s.run ops).tree := by
  intro agent s answer start ops
  obtain ⟨-, nothing, -, stays⟩ := handle_footprint s answer
  obtain ⟨refused, -, change, -⟩ := handle_footprint s start
  have vain : s.tree.IsVain answer := .answersNothing rfl rfl (by decide)
  have fruitful : ¬ s.tree.IsVain start := refused.not.mp (by decide)
  obtain ⟨version, -, takes⟩ := change fruitful
  have going : Operation.clear ∉ ops := by decide
  exact ⟨vain, (nothing vain).1, (nothing vain).2, fruitful, version, takes, going, stays ops going⟩

end Store

end Playback.Agents
