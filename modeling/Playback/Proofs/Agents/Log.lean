import Playback.Proofs.Agents.Profile
import Mathlib.Data.List.Chain
import Mathlib.Data.List.Induction

namespace Playback.Agents

namespace Event

def content? : Event → Option String
  | .delta _ content => some content
  | _ => none

def answer? (call : String) : Event → Option String
  | .toolResult _ k result isError =>
    if k = call then some (Agent.resultText result isError) else none
  | _ => none

def ending? : Event → Option (Completion × Option String × Option String)
  | .complete _ status result error => some (status, result, error)
  | _ => none

end Event

def words (events : List Event) : List String :=
  (events.takeWhile (·.kind ≠ .toolCall)).filterMap Event.content?

def speech : List String → List Entry
  | [] => []
  | contents => [⟨.assistant, String.join contents, none, none⟩]

/-- What the entry of a call shows: the last result behind the call, or the placeholder. -/
def shown (call tool : String) (later : List Event) : String :=
  (later.filterMap (Event.answer? call)).getLast?.getD (Agent.placeholder tool)

def callLog : List Event → List Entry
  | [] => []
  | .toolCall _ call tool :: later =>
    ⟨.tool, shown call tool later, some tool, some call⟩ :: (speech (words later) ++ callLog later)
  | _ :: later => callLog later

/-- The log that the events about an agent tell. -/
def toldLog (events : List Event) : List Entry := speech (words events) ++ callLog events

/-- Status, result and error that the events about an agent tell: those of its last completion. -/
def toldEnding (events : List Event) : Status × Option String × Option String :=
  match (events.filterMap Event.ending?).getLast? with
  | none => (.running, none, none)
  | some (status, result, error) => (.ofCompletion status, result, error)

theorem words_cons (e : Event) (events : List Event) :
    words (e :: events) =
      if e.kind = .toolCall then [] else e.content?.toList ++ words events := by
  unfold words
  by_cases call : e.kind = .toolCall
  · simp [call]
  · cases content : e.content? <;> simp [call, content]

theorem words_append (events more : List Event) :
    words (events ++ more) =
      if ∀ e ∈ events, e.kind ≠ .toolCall then words events ++ words more else words events := by
  induction events with
  | nil => simp [words]
  | cons e events ih =>
      rw [List.cons_append, words_cons, words_cons, ih]
      by_cases call : e.kind = .toolCall
      · simp [call]
      · have same : (∀ x ∈ e :: events, x.kind ≠ .toolCall) ↔ ∀ x ∈ events, x.kind ≠ .toolCall := by
          simp [call]
        simp only [if_neg call, same]
        split
        · rw [List.append_assoc]
        · rfl

theorem words_concat_of_wordless (events : List Event) (e : Event) (wordless : e.content? = none) :
    words (events ++ [e]) = words events := by
  have nothing : words [e] = [] := by
    rw [words_cons, wordless]
    exact ite_self _
  rw [words_append, nothing, List.append_nil, ite_self]

theorem callLog_eq_nil_iff (events : List Event) :
    callLog events = [] ↔ ∀ e ∈ events, e.kind ≠ .toolCall := by
  induction events with
  | nil => simp [callLog]
  | cons e events ih => cases e <;> simp [callLog, Event.kind, ih]

theorem shown_concat (call tool : String) (later : List Event) (e : Event) :
    shown call tool (later ++ [e]) = (e.answer? call).getD (shown call tool later) := by
  unfold shown
  cases answer : e.answer? call <;> simp [answer]

namespace Profile

theorem say_append (early log : List Entry) (content : String) (nonempty : log ≠ []) :
    say (early ++ log) content = early ++ say log content := by
  obtain ⟨log, ⟨role, before, tool, call⟩, rfl⟩ := (List.eq_nil_or_concat log).resolve_left nonempty
  rw [List.concat_eq_append, ← List.append_assoc]
  cases role <;> simp [say]

theorem say_cons_tool (m : Entry) (log : List Entry) (content : String) (tool : m.role = .tool) :
    say (m :: log) content = m :: say log content := by
  by_cases alone : log = []
  · obtain ⟨role, before, name, call⟩ := m
    obtain rfl : role = .tool := tool
    rw [alone]
    rfl
  · exact say_append [m] log content alone

theorem say_speech (contents : List String) (content : String) :
    say (speech contents) content = speech (contents ++ [content]) := by
  cases contents with
  | nil => simp [say, speech]
  | cons first rest => simp [say, speech, String.append_assoc]

end Profile

open Profile (say answer)

/-- A delta goes on with the last block, if that is so of the blocks behind calls. -/
theorem toldLog_concat_delta_of (events : List Event) (id content : String)
    (behind : callLog events ≠ [] →
      callLog (events ++ [.delta id content]) = say (callLog events) content) :
    toldLog (events ++ [.delta id content]) = say (toldLog events) content := by
  unfold toldLog
  by_cases calls : callLog events = []
  · have free := (callLog_eq_nil_iff events).mp calls
    have more : callLog (events ++ [.delta id content]) = [] := by
      rw [callLog_eq_nil_iff]
      intro e member
      rcases List.mem_append.mp member with before | last
      · exact free e before
      · rw [List.mem_singleton.mp last]
        exact Kind.noConfusion
    have word : words [.delta id content] = [content] := rfl
    rw [more, calls, words_append, if_pos free, word, List.append_nil, List.append_nil,
      Profile.say_speech]
  · rw [behind calls, words_append, if_neg ((callLog_eq_nil_iff events).not.mp calls),
      Profile.say_append _ _ _ calls]

theorem callLog_concat_delta (events : List Event) (id content : String)
    (calls : callLog events ≠ []) :
    callLog (events ++ [.delta id content]) = say (callLog events) content := by
  induction events with
  | nil => exact absurd rfl calls
  | cons e events ih =>
      cases e with
      | toolCall _ call tool =>
          have rest := toldLog_concat_delta_of events id content ih
          have kept := shown_concat call tool events (.delta id content)
          change ⟨.tool, shown call tool (events ++ [.delta id content]), _, _⟩ ::
            toldLog (events ++ [.delta id content]) = _
          rw [kept, rest, ← Profile.say_cons_tool _ _ _ rfl]
          rfl
      | _ => exact ih calls

theorem toldLog_concat_delta (events : List Event) (id content : String) :
    toldLog (events ++ [.delta id content]) = say (toldLog events) content :=
  toldLog_concat_delta_of events id content (callLog_concat_delta events id content)

def Entry.answeredBy (e : Event) (m : Entry) : Entry :=
  { m with content := (m.call.bind e.answer?).getD m.content }

theorem map_answeredBy_speech (e : Event) (contents : List String) :
    (speech contents).map (Entry.answeredBy e) = speech contents := by
  cases contents <;> rfl

/-- Any other event answers entries of calls, and may be a call itself. -/
theorem callLog_concat_of_wordless (events : List Event) (e : Event)
    (wordless : e.content? = none) :
    callLog (events ++ [e]) = (callLog events).map (Entry.answeredBy e) ++ callLog [e] := by
  induction events with
  | nil => rfl
  | cons x events ih =>
      cases x with
      | toolCall _ call tool =>
          have entry : (⟨.tool, shown call tool (events ++ [e]), some tool, some call⟩ : Entry) =
              Entry.answeredBy e ⟨.tool, shown call tool events, some tool, some call⟩ := by
            rw [shown_concat]
            rfl
          rw [List.cons_append, callLog, callLog, entry, words_concat_of_wordless events e wordless,
            ih, List.map_cons, List.map_append, map_answeredBy_speech, List.cons_append,
            List.append_assoc]
      | _ => exact ih

theorem toldLog_concat_of_wordless (events : List Event) (e : Event)
    (wordless : e.content? = none) :
    toldLog (events ++ [e]) = (toldLog events).map (Entry.answeredBy e) ++ callLog [e] := by
  rw [toldLog, words_concat_of_wordless events e wordless,
    callLog_concat_of_wordless events e wordless, toldLog, List.map_append, map_answeredBy_speech,
    List.append_assoc]

theorem toldLog_concat_of_silent (events : List Event) (e : Event) (wordless : e.content? = none)
    (silent : ∀ call, e.answer? call = none) :
    toldLog (events ++ [e]) = toldLog events ++ callLog [e] := by
  have same : ∀ m ∈ toldLog events, Entry.answeredBy e m = m := by
    intro m _
    have unanswered : m.call.bind e.answer? = none := by
      cases m.call <;> simp [silent]
    rw [Entry.answeredBy, unanswered, Option.getD_none]
  rw [toldLog_concat_of_wordless events e wordless, List.map_congr_left same, List.map_id']

theorem toldLog_concat_result (events : List Event) (id call result : String) (isError : Bool) :
    toldLog (events ++ [.toolResult id call result isError]) =
      answer (toldLog events) call (Agent.resultText result isError) := by
  have each : ∀ m ∈ toldLog events, Entry.answeredBy (.toolResult id call result isError) m =
      if m.call = some call then { m with content := Agent.resultText result isError } else m := by
    rintro ⟨role, content, tool, _ | own⟩ -
    · rfl
    · by_cases same : call = own
      · simp [Entry.answeredBy, Event.answer?, same]
      · simp [Entry.answeredBy, Event.answer?, same, Ne.symm same]
  have calls : callLog [.toolResult id call result isError] = [] := rfl
  rw [toldLog_concat_of_wordless events _ rfl, calls, List.append_nil]
  exact List.map_congr_left each

namespace Profile

theorem receive_log (p : Profile) (events : List Event) (e : Event) (now : p.log = toldLog events) :
    (p.receive e).log = toldLog (events ++ [e]) := by
  cases e with
  | delta id content =>
      rw [toldLog_concat_delta, ← now]
      rfl
  | toolResult id call result isError =>
      rw [toldLog_concat_result, ← now]
      rfl
  | toolCall id call tool =>
      rw [toldLog_concat_of_silent events _ rfl fun _ => rfl, ← now]
      rfl
  | spawn id parent name description task =>
      rw [toldLog_concat_of_silent events _ rfl fun _ => rfl, ← now]
      exact (List.append_nil p.log).symm
  | complete id status result error =>
      rw [toldLog_concat_of_silent events _ rfl fun _ => rfl, ← now]
      exact (List.append_nil p.log).symm

theorem receive_ending (p : Profile) (events : List Event) (e : Event)
    (now : (p.status, p.result, p.error) = toldEnding events) :
    ((p.receive e).status, (p.receive e).result, (p.receive e).error) =
      toldEnding (events ++ [e]) := by
  cases e with
  | complete id status result error => simp [receive, toldEnding, Event.ending?]
  | _ => simpa [receive, toldEnding, Event.ending?] using now

theorem receive_ended (p : Profile) (e : Event) (now : p.ended = p.status.isFinished) :
    (p.receive e).ended = (p.receive e).status.isFinished := by
  cases e with
  | complete id status result error => cases status <;> rfl
  | _ => exact now

theorem foldl_receive_start (name description task : String) (events : List Event) :
    let p := events.foldl receive (start name description task)
    p.log = toldLog events ∧ (p.status, p.result, p.error) = toldEnding events ∧
      p.ended = p.status.isFinished := by
  induction events using List.reverseRecOn with
  | nil => exact ⟨rfl, rfl, rfl⟩
  | append_singleton events e ih =>
      obtain ⟨log, ending, ended⟩ := ih
      rw [List.foldl_append]
      exact ⟨receive_log _ events e log, receive_ending _ events e ending, receive_ended _ e ended⟩

theorem ofEvents_of_not_started (id : String) (events : List Event)
    (unstarted : startedIn events id = false) : ofEvents (about id events) = none := by
  induction events with
  | nil => rfl
  | cons e events ih =>
      obtain ⟨other, rest⟩ : startedIn [e] id = false ∧ startedIn events id = false := by
        rw [← List.singleton_append, startedIn_append, Bool.or_eq_false_iff] at unstarted
        exact unstarted
      by_cases own : e.agent = id
      · have skipped : next none e = none := by
          cases e with
          | spawn k =>
              obtain rfl : k = id := own
              simp [startedIn] at other
          | _ => rfl
        rw [about, List.filter_cons_of_pos (by simpa using own), ofEvents, List.foldl_cons, skipped]
        exact ih rest
      · rw [about, List.filter_cons_of_neg (by simpa using own)]
        exact ih rest

theorem foldl_next_some (p : Profile) (events : List Event) :
    events.foldl next (some p) = some (events.foldl receive p) := by
  induction events generalizing p with
  | nil => rfl
  | cons e events ih => exact ih (p.receive e)

theorem ofEvents_of_started (id : String) (before after : List Event) (parent : Option String)
    (name description task : String) (first : startedIn before id = false) :
    ofEvents (about id (before ++ .spawn id parent name description task :: after)) =
      some ((about id after).foldl receive (start name description task)) := by
  have nothing := ofEvents_of_not_started id before first
  have own : about id (.spawn id parent name description task :: after) =
      .spawn id parent name description task :: about id after :=
    List.filter_cons_of_pos (by simp [Event.agent])
  unfold ofEvents at nothing ⊢
  rw [about_append, List.foldl_append, nothing, own]
  exact foldl_next_some _ _

end Profile

theorem isChain_speech_append (contents : List String) (log : List Entry)
    (chain : log.IsChain fun m n => m.role = .assistant → n.role = .tool)
    (head : ∀ m ∈ log.head?, m.role = .tool) :
    (speech contents ++ log).IsChain fun m n => m.role = .assistant → n.role = .tool := by
  cases contents with
  | nil => exact chain
  | cons => exact List.isChain_cons.mpr ⟨fun m next _ => head m next, chain⟩

theorem role_of_head_callLog (events : List Event) (m : Entry)
    (head : m ∈ (callLog events).head?) : m.role = .tool := by
  induction events with
  | nil => cases head
  | cons e events ih =>
      cases e with
      | toolCall _ call tool =>
          cases head
          rfl
      | _ => exact ih head

theorem isChain_callLog (events : List Event) :
    (callLog events).IsChain fun m n => m.role = .assistant → n.role = .tool := by
  induction events with
  | nil => exact .nil
  | cons e events ih =>
      cases e with
      | toolCall _ call tool =>
          refine List.isChain_cons.mpr ⟨fun _ _ said => (nomatch said), ?_⟩
          exact isChain_speech_append _ _ ih (role_of_head_callLog events)
      | _ => exact ih

theorem isChain_toldLog (events : List Event) :
    (toldLog events).IsChain fun m n => m.role = .assistant → n.role = .tool :=
  isChain_speech_append _ _ (isChain_callLog events) (role_of_head_callLog events)

theorem isFinished_toldEnding_append (events more : List Event)
    (finished : (toldEnding events).1.isFinished = true) :
    (toldEnding (events ++ more)).1.isFinished = true := by
  unfold toldEnding at finished ⊢
  rw [List.filterMap_append, List.getLast?_append]
  cases last : (more.filterMap Event.ending?).getLast? with
  | none => exact finished
  | some ending =>
      obtain ⟨status, result, error⟩ := ending
      cases status <;> rfl

namespace Store

theorem history_cons_of_ne_clear (s : Store) (before : List Event) (op : Operation)
    (rest : List Operation) (other : op ≠ .clear) :
    s.history before (op :: rest) = (s.perform op).history (before ++ s.handed op) rest := by
  rw [history]
  exact other

theorem history_append (s : Store) (before : List Event) (ops more : List Operation) :
    s.history before (ops ++ more) = (s.run ops).history (s.history before ops) more := by
  induction ops generalizing s before with
  | nil => rfl
  | cons op ops ih =>
      by_cases clears : op = .clear
      · rw [clears]
        exact ih s.clear []
      · rw [List.cons_append, history_cons_of_ne_clear s before op _ clears,
          history_cons_of_ne_clear s before op _ clears, ih]
        rfl

/-- Without a clear nothing is forgotten. -/
theorem history_of_no_clear (s : Store) (before : List Event) (ops : List Operation)
    (kept : .clear ∉ ops) : ∃ later, s.history before ops = before ++ later := by
  induction ops generalizing s before with
  | nil => exact ⟨[], (List.append_nil before).symm⟩
  | cons op ops ih =>
      obtain ⟨other, rest⟩ := not_or.mp (List.mem_cons.not.mp kept)
      obtain ⟨later, whole⟩ := ih (s.perform op) (before ++ s.handed op) rest
      refine ⟨s.handed op ++ later, ?_⟩
      rw [history_cons_of_ne_clear s before op ops (Ne.symm other), whole, List.append_assoc]

section Started

variable (s : Store) (ops : List Operation) (before after : List Event) (id : String)
  (parent : Option String) (name description task : String) (empty : s.tree.records = [])
  (split : s.history [] ops = before ++ .spawn id parent name description task :: after)
  (first : startedIn before id = false)

include empty split first

theorem agent_of_started :
    ∃ a, (s.run ops).tree.agent? id = some a ∧
      a.profile = (about id after).foldl Profile.receive (.start name description task) := by
  have shown := profile?_run s ops empty id
  rw [split,
    Profile.ofEvents_of_started id before after parent name description task first] at shown
  exact Option.map_eq_some_iff.mp shown

theorem finished_of_more (more : List Operation) (kept : .clear ∉ more)
    (finished : (toldEnding (about id after)).1.isFinished = true) :
    ∃ b, (s.run (ops ++ more)).tree.agent? id = some b ∧ b.status.isFinished = true := by
  obtain ⟨later, whole⟩ := history_of_no_clear (s.run ops) (s.history [] ops) more kept
  rw [← history_append, split, List.append_assoc, List.cons_append] at whole
  obtain ⟨b, found, shown⟩ := agent_of_started s (ops ++ more) before (after ++ later) id parent
    name description task empty whole first
  have told := (Profile.foldl_receive_start name description task (about id (after ++ later))).2.1
  rw [← shown, about_append] at told
  have status : b.status = (toldEnding (about id after ++ about id later)).1 :=
    congrArg Prod.fst told
  refine ⟨b, found, ?_⟩
  rw [status]
  exact isFinished_toldEnding_append _ _ finished

end Started

/-- Whatever is done to a store that has no agents at first, an agent that it is told to start has
in the end the log and the ending that the events about it since its first start tell. No two
entries of the assistant stand in a row; the agent has a time of completion just if it is finished,
and then it stays finished until the store is cleared. -/
theorem log_as_told (s : Store) (ops : List Operation) (before after : List Event)
    (id : String) (parent : Option String) (name description task : String)
    (empty : s.tree.records = [])
    (split : s.history [] ops = before ++ .spawn id parent name description task :: after)
    (first : startedIn before id = false) :
    let own := about id after
    ∃ a, (s.run ops).tree.agent? id = some a ∧ a.messages.map Message.entry = toldLog own ∧
      (a.messages.IsChain fun m n => m.role = .assistant → n.role = .tool) ∧
      (a.status, a.result, a.error) = toldEnding own ∧
      a.completed.isSome = a.status.isFinished ∧
      ∀ more, .clear ∉ more → a.status.isFinished = true →
        ∃ b, (s.run (ops ++ more)).tree.agent? id = some b ∧ b.status.isFinished = true := by
  intro own
  obtain ⟨a, found, shown⟩ := agent_of_started s ops before after id parent name description task
    empty split first
  obtain ⟨log, ending, ended⟩ := Profile.foldl_receive_start name description task own
  rw [← shown] at log ending ended
  refine ⟨a, found, log, ?_, ending, ended, ?_⟩
  · have chain := isChain_toldLog own
    rw [← log] at chain
    exact (List.isChain_map Message.entry).mp chain
  · intro more kept finished
    have status : a.status = (toldEnding own).1 := congrArg Prod.fst ending
    rw [status] at finished
    exact finished_of_more s ops before after id parent name description task empty split first more
      kept finished

theorem log_as_told_again :
    let s := new false default 0
    let own : List Event := [.delta "a" "x", .toolResult "a" "1" "early" false, .delta "a" "y",
      .toolCall "a" "1" "look", .complete "a" .failed none (some "e"), .toolCall "a" "1" "find",
      .toolResult "a" "1" "no" true, .delta "a" "z", .toolCall "a" "2" "look",
      .complete "a" .succeeded (some "r") none]
    let before : List Event := [.delta "a" "none"]
    let ops : List Operation := (before ++ .spawn "a" none "" "" "" :: own).map .handle
    let more : List Operation := [.handle (.spawn "a" none "" "" ""), .handle (.delta "a" "late")]
    s.tree.records = [] ∧ startedIn before "a" = false ∧ .clear ∉ more ∧
      (∃ a, (s.run ops).tree.agent? "a" = some a ∧
        a.messages.map Message.entry =
          [⟨.assistant, "xy", none, none⟩, ⟨.tool, "Error: no", some "look", some "1"⟩,
            ⟨.tool, "Error: no", some "find", some "1"⟩, ⟨.assistant, "z", none, none⟩,
            ⟨.tool, "Calling look...", some "look", some "2"⟩] ∧
        (a.status, a.result, a.error) = (.succeeded, some "r", none)) ∧
      ∃ b, (s.run (ops ++ more)).tree.agent? "a" = some b ∧ b.status.isFinished = true := by
  intro s own before ops more
  have told : s.history [] ops = before ++ .spawn "a" none "" "" "" :: own := history_handle s [] _
  have kept : .clear ∉ more := by simp [more]
  obtain ⟨a, found, log, -, ending, -, stays⟩ :=
    log_as_told s ops before own "a" none "" "" "" rfl told rfl
  have last : toldEnding (about "a" own) = (.succeeded, some "r", none) := by decide
  rw [last] at ending
  have status : a.status = .succeeded := congrArg Prod.fst ending
  refine ⟨rfl, rfl, kept, ⟨a, found, log.trans (by decide), ending⟩, stays more kept ?_⟩
  rw [status]
  rfl

end Store

end Playback.Agents
