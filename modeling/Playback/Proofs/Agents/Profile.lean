import Playback.Proofs.Agents.Acceptance
import Playback.Proofs.Agents.Run

namespace Playback.Agents

/-- An entry of a message log without its stamp. -/
structure Entry where
  role : Role
  content : String
  tool : Option String
  call : Option String
  deriving DecidableEq, Repr

structure Profile where
  name : String
  description : String
  task : String
  status : Status
  result : Option String
  error : Option String
  ended : Bool
  log : List Entry
  deriving DecidableEq, Repr

def Message.entry (m : Message) : Entry := ⟨m.role, m.content, m.tool, m.call⟩

def Agent.profile (a : Agent) : Profile where
  name := a.name
  description := a.description
  task := a.task
  status := a.status
  result := a.result
  error := a.error
  ended := a.completed.isSome
  log := a.messages.map Message.entry

def Tree.profile? (t : Tree) (id : String) : Option Profile := (t.agent? id).map Agent.profile

namespace Profile

def say (log : List Entry) (content : String) : List Entry :=
  match log.getLast? with
  | some ⟨.assistant, before, tool, call⟩ =>
    log.dropLast ++ [⟨.assistant, before ++ content, tool, call⟩]
  | _ => log ++ [⟨.assistant, content, none, none⟩]

def answer (log : List Entry) (call text : String) : List Entry :=
  log.map fun m => if m.call = some call then { m with content := text } else m

theorem answer_of_fresh (log : List Entry) (call text : String)
    (fresh : ∀ m ∈ log, m.call ≠ some call) : answer log call text = log := by
  have same : ∀ m ∈ log, (if m.call = some call then { m with content := text } else m) = m :=
    fun m member => if_neg (fresh m member)
  exact (List.map_congr_left same).trans (List.map_id log)

def receive (p : Profile) : Event → Profile
  | .spawn .. => p
  | .delta _ content => { p with log := say p.log content }
  | .toolCall _ call tool =>
    { p with log := p.log ++ [⟨.tool, Agent.placeholder tool, some tool, some call⟩] }
  | .toolResult _ call result isError =>
    { p with log := answer p.log call (Agent.resultText result isError) }
  | .complete _ status result error =>
    { p with status := .ofCompletion status, result := result, error := error, ended := true }

def start (name description task : String) : Profile :=
  ⟨name, description, task, .running, none, none, false, []⟩

/-- What an event does of itself: only a start makes something of nothing. -/
def next : Option Profile → Event → Option Profile
  | none, .spawn _ _ name description task => some (start name description task)
  | none, _ => none
  | some p, e => some (p.receive e)

def ofEvents (events : List Event) : Option Profile := events.foldl next none

end Profile

def about (id : String) (events : List Event) : List Event := events.filter (·.agent = id)

namespace Agent

theorem profile_addDelta (a : Agent) (stamp : Stamp) (content : String) :
    (a.addDelta stamp content).profile =
      { a.profile with log := Profile.say a.profile.log content } := by
  cases found : a.messages.getLast? with
  | none =>
      have empty := List.getLast?_eq_none_iff.mp found
      simp [addDelta, Profile.say, profile, empty, Message.entry]
  | some last =>
      obtain ⟨id, role, before, tool, call, time⟩ := last
      cases role <;> simp [addDelta, found, Profile.say, profile, Message.entry]

theorem profile_receive (a : Agent) (stamp : Stamp) (e : Event) :
    (a.receive stamp e).profile = a.profile.receive e := by
  cases e with
  | spawn => rfl
  | delta _ content => exact a.profile_addDelta stamp content
  | toolCall _ call tool =>
      simp [receive, addToolCall, Profile.receive, profile, Message.entry]
  | toolResult _ call result isError =>
      have entry (m : Message) (text : String) :
          (if m.call = some call then { m with content := text } else m).entry =
            if m.entry.call = some call then { m.entry with content := text } else m.entry := by
        by_cases same : m.call = some call <;> simp [Message.entry, same]
      simp [receive, addToolResult, Profile.receive, Profile.answer, profile, entry]
  | complete => rfl

@[simp] theorem profile_attach (a : Agent) (host : Option String) (child : String) :
    (a.attach host child).profile = a.profile := by
  unfold attach
  split <;> rfl

end Agent

namespace Tree

/-- A refused event would make no difference to what its agent shows. -/
theorem next_profile?_of_refused (t : Tree) (e : Event) (refused : t.rejection? e ≠ none) :
    Profile.next (t.profile? e.agent) e = t.profile? e.agent := by
  rw [ne_eq, rejection?_eq_none_iff] at refused
  unfold profile?
  cases found : t.agent? e.agent with
  | none =>
      cases e with
      | spawn id => exact absurd ((contains_eq_false_iff t id).mpr found) refused
      | _ => rfl
  | some a =>
      have present := (contains_iff_exists t e.agent).mpr ⟨a, found⟩
      cases e with
      | spawn => rfl
      | toolResult id call result isError =>
          have fresh : ∀ m ∈ a.profile.log, m.call ≠ some call := by
            intro m member made
            obtain ⟨entry, logged, rfl⟩ := List.mem_map.mp member
            exact refused ⟨a, found, List.mem_map.mpr ⟨entry, logged, made⟩⟩
          have kept := Profile.answer_of_fresh _ call (Agent.resultText result isError) fresh
          simp only [Option.map_some, Profile.next, Profile.receive, kept]
      | _ => exact absurd present refused

theorem profile?_next (t : Tree) (stamp : Stamp) (e : Event) (id : String) :
    (t.next stamp e).profile? id =
      if e.agent = id then Profile.next (t.profile? id) e else t.profile? id := by
  rcases t.next_cases stamp e with ⟨refused, same⟩ |
    ⟨k, parent, name, description, task, rfl, absent, started⟩ | ⟨-, present, changed⟩
  · -- An event that the tree refuses would change no profile either.
    rw [same]
    split
    · rename_i own
      subst own
      exact (t.next_profile?_of_refused e refused).symm
    · rfl
  · have missing := (contains_eq_false_iff t k).mp absent
    rw [started]
    change (t.addAgent stamp k parent name description task).profile? id = _
    unfold profile?
    rw [agent?_addAgent t stamp k parent name description task id absent]
    by_cases own : id = k
    · subst own
      simp only [if_true, Event.agent, missing]
      rfl
    · simp [own, Ne.symm own, Event.agent, Function.comp_def]
  · rw [changed]
    change (t.modify e.agent (·.receive stamp e)).profile? id = _
    unfold profile?
    rw [agent?_modify t e.agent id _ fun a => (a.receive_links stamp e).1]
    cases found : t.agent? id with
    | none =>
        have other : e.agent ≠ id := by
          rintro rfl
          simp [contains, found] at present
        simp [other]
    | some a =>
        obtain rfl := id_of_agent? t id a found
        by_cases own : e.agent = a.id
        · simp [own, Agent.profile_receive, Profile.next]
        · simp [own, Ne.symm own]

end Tree

theorem about_append (id : String) (first second : List Event) :
    about id (first ++ second) = about id first ++ about id second :=
  List.filter_append first second

@[simp] theorem about_about (id : String) (events : List Event) :
    about id (about id events) = about id events := by
  simp [about]

namespace Store

/-- Events that a store is given one by one are its history. -/
theorem history_handle (s : Store) (before events : List Event) :
    s.history before (events.map .handle) = before ++ events := by
  induction events generalizing s before with
  | nil => simp [history]
  | cons e events ih =>
      rw [List.map_cons, history, ih, handed, List.append_assoc]
      · rfl
      · exact Operation.noConfusion

theorem profile?_run (s : Store) (ops : List Operation) (empty : s.tree.records = [])
    (id : String) :
    (s.run ops).tree.profile? id = Profile.ofEvents (about id (s.history [] ops)) := by
  have step (t : Tree) (stamp : Stamp) (e : Event) (before : List Event)
      (now : t.profile? id = Profile.ofEvents (about id before)) :
      (t.next stamp e).profile? id = Profile.ofEvents (about id (before ++ [e])) := by
    rw [Tree.profile?_next, now, about_append, Profile.ofEvents, Profile.ofEvents,
      List.foldl_append]
    by_cases own : e.agent = id <;> simp [about, own]
  refine holds_run (fun t h => t.profile? id = Profile.ofEvents (about id h)) step
    (fun _ => rfl) s ops [] ?_
  simp [Tree.profile?, Tree.agent?, empty, about, Profile.ofEvents]

/-- Whatever is done to a store that has no agents at first, an agent shows in the end what the
events about it since the last clear make of it: it would show the same if these were all that any
such store ever took, or if other events stood around them in any other way. -/
theorem run_shows_own_events (s : Store) (ops : List Operation) (id : String)
    (empty : s.tree.records = []) :
    let own := about id (s.history [] ops)
    (s.run ops).tree.profile? id = Profile.ofEvents own ∧
      (∀ u : Store, u.tree.records = [] →
        (u.handleAll own).tree.profile? id = (s.run ops).tree.profile? id) ∧
      ∀ (u : Store) (others : List Operation), u.tree.records = [] →
        about id (u.history [] others) = own →
        (u.run others).tree.profile? id = (s.run ops).tree.profile? id := by
  intro own
  have shown := profile?_run s ops empty id
  refine ⟨shown, ?_, ?_⟩
  · intro u none
    rw [← run_handle, profile?_run u _ none, history_handle, shown, List.nil_append, about_about]
  · intro u others none same
    rw [profile?_run u others none, same, shown]

theorem run_shows_parent_alone :
    let s := new true default 0
    let spawn := Event.spawn "a" none "n" "d" "t"
    let ops : List Operation := [.handle (.delta "a" "early"), .handle spawn,
      .handle (.spawn "b" (some "a") "m" "" ""), .handle (.delta "a" "x"), .wait default 7,
      .handle (.toolCall "b" "1" "look"), .handle (.toolResult "a" "1" "no" false),
      .handle (.complete "b" .failed none none), .handle spawn, .handle (.delta "a" "y")]
    let others : List Operation := [.handle (.delta "a" "early"), .handle spawn,
      .handle (.delta "a" "x"), .handle (.toolResult "a" "1" "no" false), .handle spawn,
      .handle (.delta "a" "y"), .handle (.spawn "b" none "" "" "")]
    s.tree.records = [] ∧ about "a" (s.history [] others) = about "a" (s.history [] ops) ∧
      (s.run others).tree.profile? "a" = (s.run ops).tree.profile? "a" ∧
      (s.run ops).tree.profile? "a" =
        some { Profile.start "n" "d" "t" with log := [⟨.assistant, "xy", none, none⟩] } := by
  intro s spawn ops others
  have same : about "a" (s.history [] others) = about "a" (s.history [] ops) := by decide
  obtain ⟨shown, -, alike⟩ := run_shows_own_events s ops "a" rfl
  exact ⟨rfl, same, alike s others rfl same, shown.trans (by decide)⟩

end Store

end Playback.Agents
