import Playback.Proofs.Agents.Change

namespace Playback.Agents

namespace Agent

def calls (a : Agent) : List (Option String) := a.messages.map (·.call)

theorem isSome_toolMessage?_iff (a : Agent) (call : String) :
    (a.toolMessage? call).isSome ↔ some call ∈ a.calls := by
  simp [toolMessage?, calls]

theorem mem_calls_receive_iff (a : Agent) (stamp : Stamp) (e : Event) (call : String) :
    some call ∈ (a.receive stamp e).calls ↔
      some call ∈ a.calls ∨ ∃ agent tool, e = .toolCall agent call tool := by
  cases e with
  | delta agent content =>
      simp only [receive, addDelta, calls, reduceCtorEq, exists_const, or_false]
      cases found : a.messages.getLast? with
      | none => simp [List.getLast?_eq_none_iff.mp found]
      | some last =>
          obtain ⟨earlier, whole⟩ := List.getLast?_eq_some_iff.mp found
          by_cases assistant : last.role = .assistant <;> simp [whole, assistant]
  | toolCall agent other tool => simp [receive, addToolCall, calls, eq_comm]
  | toolResult agent other result isError =>
      have kept (m : Message) : (if m.call = some other then
          { m with content := resultText result isError } else m).call = m.call := by
        split <;> rfl
      simp [receive, addToolResult, calls, kept]
  | _ => simp [receive, addCompletion, calls]

def outline (a : Agent) : Agent :=
  { a with messages := [], status := .running, started := default, completed := none,
           result := none, error := none }

theorem outline_receive (a : Agent) (stamp : Stamp) (e : Event) :
    (a.receive stamp e).outline = a.outline := by
  cases e with
  | delta agent content =>
      obtain ⟨log, same⟩ := a.exists_addDelta stamp content
      rw [receive, same]
      rfl
  | _ => rfl

theorem outline_attach (a : Agent) (host : Option String) (child : String) :
    (a.attach host child).outline = a.outline.attach host child := by
  by_cases hosted : host = some a.id <;> simp [attach, outline, addChild, hosted]

end Agent

namespace Tree

def Knows (t : Tree) (id call : String) : Prop := ∃ a, t.agent? id = some a ∧ some call ∈ a.calls

/-- A start is refused if the agent is there, a result if its call is not, all else if the agent is
not. -/
theorem rejection?_eq_none_iff (t : Tree) (e : Event) :
    t.rejection? e = none ↔
      match e with
      | .spawn id .. => t.contains id = false
      | .toolResult id call .. => t.Knows id call
      | e => t.contains e.agent = true := by
  cases e with
  | toolResult id call result isError =>
      simp only [rejection?, Knows]
      cases t.agent? id with
      | none => simp
      | some a => simp [← a.isSome_toolMessage?_iff, Option.isSome_iff_ne_none]
  | _ => simp [rejection?]

section Start

variable (t : Tree) (stamp : Stamp) (id : String) (parent : Option String)
  (name description task : String)

theorem knows_addAgent_iff (absent : t.contains id = false) (k call : String) :
    (t.addAgent stamp id parent name description task).Knows k call ↔ t.Knows k call := by
  have missing := (contains_eq_false_iff t id).mp absent
  have kept (a : Agent) : (a.attach (t.host? parent) id).calls = a.calls := by
    unfold Agent.attach
    split <;> rfl
  unfold Knows
  rw [agent?_addAgent t stamp id parent name description task k absent]
  by_cases self : k = id
  · subst self
    simp [missing, fresh, Agent.start, Agent.calls]
  · simp [self, kept]

end Start

theorem knows_next_iff (t : Tree) (stamp : Stamp) (e : Event) (id call : String) :
    (t.next stamp e).Knows id call ↔
      t.Knows id call ∨ (t.contains id = true ∧ ∃ tool, e = .toolCall id call tool) := by
  rcases t.next_cases stamp e with ⟨refused, same⟩ |
    ⟨k, parent, name, description, task, rfl, absent, started⟩ | ⟨-, present, changed⟩
  · rw [same, or_iff_left]
    rintro ⟨present, tool, rfl⟩
    exact refused ((rejection?_eq_none_iff t _).mpr present)
  · rw [started]
    change (t.addAgent stamp k parent name description task).Knows id call ↔ _
    simp [knows_addAgent_iff t stamp k parent name description task absent]
  · rw [changed]
    change (t.modify e.agent (·.receive stamp e)).Knows id call ↔ _
    unfold Knows
    rw [agent?_modify t e.agent id _ fun a => (a.receive_links stamp e).1]
    cases found : t.agent? id with
    | none => simp [contains, found]
    | some a =>
        obtain rfl := id_of_agent? t id a found
        by_cases about : a.id = e.agent
        · simp only [Option.map_some, Option.some.injEq, exists_eq_left', about, if_true,
            Agent.mem_calls_receive_iff]
          refine or_congr_right ?_
          constructor
          · rintro ⟨agent, tool, rfl⟩
            exact ⟨present, tool, rfl⟩
          · rintro ⟨-, tool, made⟩
            exact ⟨_, tool, made⟩
        · have other : ¬ ∃ tool, e = .toolCall a.id call tool := by
            rintro ⟨tool, rfl⟩
            exact about rfl
          simp [about, other]

/-- A tree without what its agents said and did, and without its version. -/
def outline (t : Tree) : Tree :=
  { t with records := t.records.map Agent.outline, version := 0 }

theorem contains_outline (t : Tree) (id : String) : t.outline.contains id = t.contains id := by
  simp [contains, agent?, outline, List.find?_map, Function.comp_def, Agent.outline]

theorem contains_of_outline (t u : Tree) (same : t.outline = u.outline) (id : String) :
    t.contains id = u.contains id := by
  rw [← contains_outline, same, contains_outline]

theorem outline_modify_receive (t : Tree) (stamp : Stamp) (e : Event) :
    (t.modify e.agent (·.receive stamp e)).outline = t.outline := by
  simp only [outline, modify, List.map_map, Tree.mk.injEq, and_true]
  apply List.map_congr_left
  intro a _
  by_cases about : a.id = e.agent <;> simp [about, Agent.outline_receive]

theorem outline_next_of_not_started (t : Tree) (stamp : Stamp) (e : Event)
    (known : e.kind = .spawn → t.contains e.agent = true) :
    (t.next stamp e).outline = t.outline := by
  rcases t.next_cases stamp e with ⟨-, same⟩ |
    ⟨id, parent, name, description, task, rfl, absent, -⟩ | ⟨-, -, changed⟩
  · rw [same]
  · exact absurd ((known rfl).symm.trans absent) Bool.false_ne_true.symm
  · rw [changed]
    exact t.outline_modify_receive stamp e

/-- Outlines go on alike. -/
theorem outline_next_congr (t u : Tree) (first second : Stamp) (e : Event)
    (same : t.outline = u.outline) : (t.next first e).outline = (u.next second e).outline := by
  have present := contains_of_outline t u same e.agent
  by_cases known : e.kind = .spawn → t.contains e.agent = true
  · rw [t.outline_next_of_not_started first e known,
      u.outline_next_of_not_started second e (present ▸ known), same]
  obtain ⟨isSpawn, new⟩ := Classical.not_imp.mp known
  cases e with
  | spawn id parent name description task =>
      have absent : t.contains id = false := Bool.eq_false_iff.mpr new
      have alsoAbsent : u.contains id = false := present.symm.trans absent
      have hosts : t.host? parent = u.host? parent := by
        unfold host?
        congr 1
        funext p
        exact contains_of_outline t u same p
      have started (v : Tree) (stamp : Stamp) (absent : v.contains id = false) :
          (v.next stamp (.spawn id parent name description task)).outline =
            { v.outline with
              records := v.outline.records.map (·.attach (v.host? parent) id) ++
                [(v.fresh stamp id parent name description task).outline]
              roots := if namedParent parent = none then v.outline.roots ++ [id]
                else v.outline.roots } := by
        have accepted : v.rejection? (.spawn id parent name description task) = none :=
          (rejection?_eq_none_iff v _).mpr absent
        unfold next
        rw [accepted]
        simp only [apply, addAgent_eq v stamp id parent name description task absent, outline,
          List.map_append, List.map_map, Function.comp_def, Agent.outline_attach]
        rfl
      rw [started t first absent, started u second alsoAbsent, same, hosts]
      simp only [fresh, hosts]
      rfl
  | _ => cases isSpawn

end Tree

end Playback.Agents
