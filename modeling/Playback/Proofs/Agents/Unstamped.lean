import Playback.Agents.Store
import Mathlib.Data.List.Basic

/-!
Stores but for the stamps of their changes: instants, and the ids that a store makes for messages.
What a store does depends on neither, so stores that differ in nothing else go on to differ in
nothing else.
-/

namespace Playback.Agents

def IsMade (id : String) : Prop := ∃ n, id = "msg-" ++ Uuid.ofNat n

def Stamp.blank : Stamp := ⟨default, ""⟩

namespace Message

open Classical in
/-- An entry without its instant, and without its id if a store made that. -/
noncomputable def unstamped (m : Message) : Message :=
  { m with id := if m.role = .assistant ∧ IsMade m.id then "" else m.id, time := default }

@[simp] theorem unstamped_role (m : Message) : m.unstamped.role = m.role := rfl

@[simp] theorem unstamped_content (m : Message) : m.unstamped.content = m.content := rfl

@[simp] theorem unstamped_call (m : Message) : m.unstamped.call = m.call := rfl

@[simp] theorem unstamped_unstamped (m : Message) : m.unstamped.unstamped = m.unstamped := by
  unfold unstamped
  split <;> simp_all

theorem unstamped_fresh (stamp : Stamp) (content : String) (made : IsMade stamp.message) :
    (Message.mk stamp.message .assistant content none none stamp.time).unstamped =
      ⟨"", .assistant, content, none, none, default⟩ := by
  simp [unstamped, made]

end Message

namespace Agent

noncomputable def unstamped (a : Agent) : Agent :=
  { a with
    messages := a.messages.map Message.unstamped
    started := default
    completed := a.completed.map fun _ => default }

@[simp] theorem unstamped_id (a : Agent) : a.unstamped.id = a.id := rfl

@[simp] theorem unstamped_messages (a : Agent) :
    a.unstamped.messages = a.messages.map Message.unstamped := rfl

@[simp] theorem unstamped_unstamped (a : Agent) : a.unstamped.unstamped = a.unstamped := by
  cases ended : a.completed <;> simp [unstamped, ended]

@[simp] theorem toolMessage?_unstamped (a : Agent) (call : String) :
    a.unstamped.toolMessage? call = (a.toolMessage? call).map Message.unstamped := by
  simp [toolMessage?, List.find?_map, Function.comp_def]

theorem addDelta_unstamped (a : Agent) (stamp : Stamp) (content : String)
    (made : IsMade stamp.message) :
    (a.addDelta stamp content).unstamped = a.unstamped.addDelta .blank content := by
  have fresh := Message.unstamped_fresh stamp content made
  simp only [addDelta, unstamped_messages, List.getLast?_map]
  cases a.messages.getLast? with
  | none => simp [unstamped, fresh, Stamp.blank]
  | some last =>
      by_cases assistant : last.role = .assistant
      · have unstampedAssistant : last.unstamped.role = .assistant := assistant
        simp only [Option.map_some]
        rw [if_pos assistant, if_pos unstampedAssistant]
        simp only [unstamped, List.map_append, List.map_dropLast, List.map_cons, List.map_nil]
        rfl
      · simp [unstamped, assistant, fresh, Stamp.blank]

theorem addToolResult_unstamped (a : Agent) (call text : String) :
    (a.addToolResult call text).unstamped = a.unstamped.addToolResult call text := by
  have entry (m : Message) :
      (if m.call = some call then { m with content := text } else m).unstamped =
        if m.unstamped.call = some call then { m.unstamped with content := text }
        else m.unstamped := by
    by_cases same : m.call = some call
    · simp only [Message.unstamped_call, same, if_true]
      rfl
    · simp only [Message.unstamped_call, same, if_false]
  simp only [addToolResult, unstamped, List.map_map, Function.comp_def, entry]

theorem receive_unstamped (a : Agent) (stamp : Stamp) (e : Event) (made : IsMade stamp.message) :
    (a.receive stamp e).unstamped = a.unstamped.receive .blank e := by
  cases e with
  | spawn => rfl
  | delta _ content => exact addDelta_unstamped a stamp content made
  | toolCall _ call tool => simp [receive, addToolCall, unstamped, Message.unstamped, Stamp.blank]
  | toolResult _ call result isError =>
      exact addToolResult_unstamped a call (resultText result isError)
  | complete => rfl

end Agent

namespace Tree

noncomputable def unstamped (t : Tree) : Tree := { t with records := t.records.map Agent.unstamped }

@[simp] theorem unstamped_unstamped (t : Tree) : t.unstamped.unstamped = t.unstamped := by
  simp [unstamped, Function.comp_def]

@[simp] theorem agent?_unstamped (t : Tree) (id : String) :
    t.unstamped.agent? id = (t.agent? id).map Agent.unstamped := by
  simp [agent?, unstamped, List.find?_map, Function.comp_def]

@[simp] theorem contains_unstamped (t : Tree) (id : String) :
    t.unstamped.contains id = t.contains id := by
  simp [contains]

@[simp] theorem rejection?_unstamped (t : Tree) (e : Event) :
    t.unstamped.rejection? e = t.rejection? e := by
  cases e with
  | toolResult id call =>
      simp only [rejection?, agent?_unstamped]
      cases t.agent? id <;> simp
  | _ => simp [rejection?]

theorem modify_unstamped (t : Tree) (id : String) (f g : Agent → Agent)
    (alike : ∀ a, (f a).unstamped = g a.unstamped) :
    (t.modify id f).unstamped = t.unstamped.modify id g := by
  simp only [modify, unstamped, List.map_map, Tree.mk.injEq, and_true]
  apply List.map_congr_left
  intro a _
  by_cases same : a.id = id <;> simp [same, alike]

theorem insert_unstamped (t : Tree) (a : Agent) :
    (t.insert a).unstamped = t.unstamped.insert a.unstamped := by
  unfold insert
  simp only [contains_unstamped, Agent.unstamped_id]
  by_cases present : t.contains a.id
  · simp only [present, if_true, unstamped, List.map_map, Tree.mk.injEq, and_true]
    apply List.map_congr_left
    intro b _
    by_cases same : b.id = a.id <;> simp [same]
  · simp [present, unstamped]

theorem addAgent_unstamped (t : Tree) (stamp : Stamp) (id : String) (parent : Option String)
    (name description task : String) :
    (t.addAgent stamp id parent name description task).unstamped =
      t.unstamped.addAgent .blank id parent name description task := by
  unfold addAgent
  cases namedParent parent with
  | none =>
      simp only [insert_unstamped]
      rfl
  | some p =>
      simp only [contains_unstamped]
      by_cases present : t.contains p
      · have parents : (t.modify p (·.addChild id)).unstamped =
            t.unstamped.modify p (·.addChild id) := modify_unstamped t p _ _ fun _ => rfl
        simp only [if_pos present, insert_unstamped, parents]
        rfl
      · simp only [if_neg present, insert_unstamped]
        rfl

/-- An event does the same to a tree whatever it is stamped with. -/
theorem apply_unstamped (t : Tree) (stamp : Stamp) (e : Event) (made : IsMade stamp.message) :
    (t.apply stamp e).unstamped = t.unstamped.apply .blank e := by
  have receives (e : Event) : (t.modify e.agent (·.receive stamp e)).unstamped =
      t.unstamped.modify e.agent (·.receive .blank e) :=
    modify_unstamped t e.agent _ _ fun a => a.receive_unstamped stamp e made
  cases e with
  | spawn id parent name description task =>
      have started := addAgent_unstamped t stamp id parent name description task
      exact congrArg (fun next : Tree => { next with version := t.version + 1 }) started
  | _ => exact congrArg (fun next : Tree => { next with version := t.version + 1 }) (receives _)

end Tree

namespace Store

noncomputable def unstamped (s : Store) : Store :=
  { s with tree := s.tree.unstamped, clock := default, seed := 0 }

def atTime (s : Store) (clock : Instant) (seed : Nat) : Store :=
  { s with clock := clock, seed := seed }

theorem atTime_unstamped (s : Store) (clock : Instant) (seed : Nat) :
    (s.atTime clock seed).unstamped = s.unstamped := rfl

theorem isMade_stamp (s : Store) : IsMade s.stamp.message := ⟨s.seed + s.tree.version, rfl⟩

theorem expandStarted_unstamped (s : Store) (e : Event) :
    (s.expandStarted e).unstamped = s.unstamped.expandStarted e := by
  cases e with
  | spawn id =>
      by_cases auto : s.autoExpand
      · by_cases shown : id ∈ s.expanded <;> simp [expandStarted, expand, unstamped, auto, shown]
      · simp [expandStarted, unstamped, auto]
  | _ => rfl

/-- What a store makes of an event, but for stamps, depends on nothing that stamps left in it. -/
theorem handle_unstamped (s : Store) (e : Event) :
    (s.handle e).unstamped = (s.unstamped.handle e).unstamped := by
  have refused : s.unstamped.tree.rejection? e = s.tree.rejection? e :=
    Tree.rejection?_unstamped s.tree e
  unfold handle
  rw [refused]
  cases s.tree.rejection? e with
  | some why => simp [unstamped]
  | none =>
      have left := s.tree.apply_unstamped s.stamp e s.isMade_stamp
      have right := s.unstamped.tree.apply_unstamped s.unstamped.stamp e s.unstamped.isMade_stamp
      have trees : (s.tree.apply s.stamp e).unstamped =
          (s.unstamped.tree.apply s.unstamped.stamp e).unstamped := by
        rw [left, right]
        exact congrArg (Tree.apply · .blank e) (Tree.unstamped_unstamped s.tree).symm
      calc
        _ = { (s.expandStarted e).unstamped with tree := (s.tree.apply s.stamp e).unstamped } := rfl
        _ = { s.unstamped.expandStarted e with
              tree := (s.unstamped.tree.apply s.unstamped.stamp e).unstamped } := by
          rw [trees, expandStarted_unstamped]
        _ = _ := by
          rw [← expandStarted_unstamped]
          rfl

theorem handle_congr (e : Event) (s u : Store) (alike : s.unstamped = u.unstamped) :
    (s.handle e).unstamped = (u.handle e).unstamped := by
  rw [handle_unstamped s, handle_unstamped u, alike]

theorem handleAll_congr (events : List Event) (s u : Store) (alike : s.unstamped = u.unstamped) :
    (s.handleAll events).unstamped = (u.handleAll events).unstamped := by
  induction events generalizing s u with
  | nil => exact alike
  | cons e events ih =>
      exact ih (s.handle e) (u.handle e) (handle_congr e s u alike)

end Store

noncomputable def Call.unstamped (c : Call) : Call := { c with tree := c.tree.unstamped }

namespace Store

theorem calls_unstamped (s : Store) : s.calls.map Call.unstamped = s.unstamped.calls := by
  simp only [calls, List.map_map]
  rfl

theorem callsOf_congr (e : Event) (s u : Store) (alike : s.unstamped = u.unstamped) :
    (s.callsOf e).map Call.unstamped = (u.callsOf e).map Call.unstamped := by
  have refused : s.tree.rejection? e = u.tree.rejection? e := by
    rw [← Tree.rejection?_unstamped s.tree, ← Tree.rejection?_unstamped u.tree]
    exact congrArg (fun v : Store => v.tree.rejection? e) alike
  unfold callsOf
  rw [refused]
  split
  · rfl
  · rw [calls_unstamped, calls_unstamped, handle_congr e s u alike]

theorem callsOfAll_congr (events : List Event) (s u : Store) (alike : s.unstamped = u.unstamped) :
    (s.callsOfAll events).map Call.unstamped = (u.callsOfAll events).map Call.unstamped := by
  induction events generalizing s u with
  | nil => rfl
  | cons e events ih =>
      simp only [callsOfAll, List.map_append, callsOf_congr e s u alike,
        ih (s.handle e) (u.handle e) (handle_congr e s u alike)]

end Store

end Playback.Agents
