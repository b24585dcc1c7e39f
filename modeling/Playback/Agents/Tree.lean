import Playback.Agents.Agent

namespace Playback.Agents

open Json (Value)

/-- Each id has at most one record. -/
structure Tree where
  records : List Agent
  roots : List String
  version : Nat
  deriving DecidableEq, Repr

inductive Rejection where
  | duplicateSpawn
  | unknownAgent
  | noMatchingCall
  deriving DecidableEq, Repr

def Rejection.reason : Rejection → String
  | duplicateSpawn => "duplicate spawn"
  | unknownAgent => "unknown agent"
  | noMatchingCall => "no matching tool call"

structure Stamp where
  time : Instant
  message : String
  deriving DecidableEq, Repr

namespace Agent

def addDelta (a : Agent) (stamp : Stamp) (content : String) : Agent :=
  let fresh : Message := ⟨stamp.message, .assistant, content, none, none, stamp.time⟩
  match a.messages.getLast? with
  | some last =>
    if last.role = .assistant then
      { a with messages :=
          a.messages.dropLast ++ [{ last with content := last.content ++ content }] }
    else { a with messages := a.messages ++ [fresh] }
  | none => { a with messages := [fresh] }

def placeholder (tool : String) : String := "Calling " ++ tool ++ "..."

def addToolCall (a : Agent) (stamp : Stamp) (call tool : String) : Agent :=
  { a with messages :=
      a.messages ++ [⟨call, .tool, placeholder tool, some tool, some call, stamp.time⟩] }

def resultText (result : String) (isError : Bool) : String :=
  if isError then "Error: " ++ result else result

/-- A result replaces the content of every entry of its call. -/
def addToolResult (a : Agent) (call text : String) : Agent :=
  { a with messages :=
      a.messages.map fun m => if m.call = some call then { m with content := text } else m }

def addCompletion (a : Agent) (stamp : Stamp) (status : Completion)
    (result error : Option String) : Agent :=
  { a with status := .ofCompletion status, result := result, error := error,
           completed := some stamp.time }

def addChild (a : Agent) (child : String) : Agent := { a with children := a.children ++ [child] }

def receive (a : Agent) (stamp : Stamp) : Event → Agent
  | .spawn .. => a
  | .delta _ content => a.addDelta stamp content
  | .toolCall _ call tool => a.addToolCall stamp call tool
  | .toolResult _ call result isError => a.addToolResult call (resultText result isError)
  | .complete _ status result error => a.addCompletion stamp status result error

end Agent

namespace Tree

def empty : Tree := ⟨[], [], 0⟩

instance : Inhabited Tree := ⟨empty⟩

def agent? (t : Tree) (id : String) : Option Agent := t.records.find? (·.id == id)

def contains (t : Tree) (id : String) : Bool := (t.agent? id).isSome

def size (t : Tree) : Nat := t.records.length

def insert (t : Tree) (a : Agent) : Tree :=
  if t.contains a.id then
    { t with records := t.records.map fun b => if b.id = a.id then a else b }
  else { t with records := t.records ++ [a] }

def modify (t : Tree) (id : String) (f : Agent → Agent) : Tree :=
  { t with records := t.records.map fun a => if a.id = id then f a else a }

/-- The tree of agents that are there from the start. Those without a parent are roots; of two with
one id the later counts. -/
def ofAgents (agents : List Agent) : Tree :=
  agents.foldl (fun t a =>
    let t := if a.parent.isNone then { t with roots := t.roots ++ [a.id] } else t
    t.insert a) empty

def rootAgents (t : Tree) : List Agent := t.roots.filterMap t.agent?

def childAgents (t : Tree) (id : String) : List Agent :=
  match t.agent? id with
  | none => []
  | some a => a.children.filterMap t.agent?

/-- Goes up from an agent by at most so many parents to one without a parent, and counts them. -/
def climb (t : Tree) : Nat → Agent → Option (Nat × Agent)
  | fuel, a =>
    match a.parent, fuel with
    | none, _ => some (0, a)
    | some _, 0 => none
    | some p, fuel + 1 => do
      let (n, top) ← t.climb fuel (← t.agent? p)
      return (n + 1, top)

def depth (t : Tree) (id : String) : Option Nat := do
  -- A way up through more agents than there are goes round.
  let (n, top) ← t.climb t.size (← t.agent? id)
  if top.id ∈ t.roots then some n else none

def rejection? (t : Tree) : Event → Option Rejection
  | .spawn id .. => if t.contains id then some .duplicateSpawn else none
  | .toolResult id call .. =>
    match t.agent? id with
    | none => some .unknownAgent
    | some a => if (a.toolMessage? call).isNone then some .noMatchingCall else none
  | e => if t.contains e.agent then none else some .unknownAgent

def namedParent (parent : Option String) : Option String := parent.filter (· ≠ "")

/-- Starts an agent: under its parent if that is there, as a root if it names none. An agent whose
parent is not there stands by itself. -/
def addAgent (t : Tree) (stamp : Stamp) (id : String) (parent : Option String)
    (name description task : String) : Tree :=
  let fresh := { Agent.start id name task stamp.time with description := description }
  match namedParent parent with
  | none => { t with roots := t.roots ++ [id] }.insert fresh
  | some p =>
    if t.contains p then (t.modify p (·.addChild id)).insert { fresh with parent := some p }
    else t.insert fresh

def apply (t : Tree) (stamp : Stamp) (e : Event) : Tree :=
  let next :=
    match e with
    | .spawn id parent name description task => t.addAgent stamp id parent name description task
    | e => t.modify e.agent (·.receive stamp e)
  { next with version := t.version + 1 }

def toValue (t : Tree) : Value :=
  .object [("agents", .object (t.records.map fun a => (a.id, a.toValue))),
    ("root_agent_ids", .array (t.roots.map .string)), ("version", .ofNat t.version)]

end Tree

end Playback.Agents
