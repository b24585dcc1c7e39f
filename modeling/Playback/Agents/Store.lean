import Playback.Agents.Marker
import Playback.Agents.Tracker
import Playback.Agents.Tree
import Playback.Uuid

/-!
The owner of a tree of agents. It takes single events, or text with markers, which may be given
again and again as it grows; it knows which agents are shown expanded, and who listens to changes.
-/

namespace Playback.Agents

structure Store where
  tree : Tree
  /-- The ids shown expanded, each once. -/
  expanded : List String
  autoExpand : Bool
  tracker : Tracker
  listeners : List Nat
  nextListener : Nat
  clock : Instant
  /-- Where the ids of messages are counted from. -/
  seed : Nat
  deriving DecidableEq, Repr

inductive Notice where
  | ignored (e : Event) (why : Rejection)
  | unknownParent (agent parent : String)
  deriving DecidableEq, Repr

structure Call where
  listener : Nat
  tree : Tree
  deriving DecidableEq, Repr

namespace Store

def new (autoExpand : Bool) (clock : Instant) (seed : Nat) : Store where
  tree := .empty
  expanded := []
  autoExpand := autoExpand
  tracker := .empty
  listeners := []
  nextListener := 1
  clock := clock
  seed := seed

def ofAgents (autoExpand : Bool) (clock : Instant) (seed : Nat) (agents : List Agent) : Store :=
  { new autoExpand clock seed with
    tree := .ofAgents agents
    expanded := if autoExpand then (agents.map (·.id)).eraseDups else [] }

def stamp (s : Store) : Stamp := ⟨s.clock, "msg-" ++ Uuid.ofNat (s.seed + s.tree.version)⟩

def isExpanded (s : Store) (id : String) : Bool := id ∈ s.expanded

def expand (s : Store) (id : String) : Store :=
  if id ∈ s.expanded then s else { s with expanded := id :: s.expanded }

def toggle (s : Store) (id : String) : Store :=
  if id ∈ s.expanded then { s with expanded := s.expanded.filter (· ≠ id) } else s.expand id

def expandStarted (s : Store) : Event → Store
  | .spawn id .. => if s.autoExpand then s.expand id else s
  | _ => s

def subscribe (s : Store) : Store × Nat :=
  ({ s with listeners := s.listeners ++ [s.nextListener], nextListener := s.nextListener + 1 },
    s.nextListener)

def unsubscribe (s : Store) (id : Nat) : Store × Bool :=
  ({ s with listeners := s.listeners.filter (· ≠ id) }, id ∈ s.listeners)

def calls (s : Store) : List Call := s.listeners.map (⟨·, s.tree⟩)

def handle (s : Store) (e : Event) : Store :=
  match s.tree.rejection? e with
  | some _ => s
  | none => { s.expandStarted e with tree := s.tree.apply s.stamp e }

def handleAll (s : Store) (events : List Event) : Store := events.foldl handle s

def callsOf (s : Store) (e : Event) : List Call :=
  if (s.tree.rejection? e).isSome then [] else (s.handle e).calls

def noticesOf (s : Store) (e : Event) : List Notice :=
  match s.tree.rejection? e with
  | some why => [.ignored e why]
  | none =>
    match e with
    | .spawn id parent .. =>
      match Tree.namedParent parent with
      | some p => if s.tree.contains p then [] else [.unknownParent id p]
      | none => []
    | _ => []

def callsOfAll (s : Store) : List Event → List Call
  | [] => []
  | e :: rest => s.callsOf e ++ (s.handle e).callsOfAll rest

def noticesOfAll (s : Store) : List Event → List Notice
  | [] => []
  | e :: rest => s.noticesOf e ++ (s.handle e).noticesOfAll rest

/-- Takes what a scan has found, of which a tracker knows the events applied before. -/
def takeParsed (s : Store) (tracker : Tracker) (parsed : Parsed) : Store × Tracker :=
  let (tracker, fresh) := tracker.take parsed.events
  (s.handleAll fresh, tracker)

/-- Takes the whole of a growing text as far as it has come; returns the clean text. -/
def processWith (s : Store) (tracker : Tracker) (text : String) : Store × Tracker × String :=
  let parsed := Marker.parse text
  let (s, tracker) := s.takeParsed tracker parsed
  (s, tracker, parsed.clean)

def process (s : Store) (text : String) : Store × String :=
  let (next, tracker, clean) := s.processWith s.tracker text
  ({ next with tracker := tracker }, clean)

def clear (s : Store) : Store :=
  { s with tree := { Tree.empty with version := s.tree.version + 1 }, expanded := [],
           tracker := .empty }

end Store

end Playback.Agents
