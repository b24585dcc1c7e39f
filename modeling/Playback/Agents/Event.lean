import Playback.Json.Decode
import Playback.Json.Writer

namespace Playback.Agents

open Json (Value Choice Record Decoder Fault)

inductive Kind where
  | spawn
  | delta
  | toolCall
  | toolResult
  | complete
  deriving DecidableEq, Repr

namespace Kind

def name : Kind → String
  | spawn => "sub_agent.spawn"
  | delta => "sub_agent.delta"
  | toolCall => "sub_agent.tool_call"
  | toolResult => "sub_agent.tool_result"
  | complete => "sub_agent.complete"

def choice : Choice Kind :=
  [spawn, delta, toolCall, toolResult, complete].map fun k => (k.name, k)

end Kind

inductive Completion where
  | succeeded
  | failed
  deriving DecidableEq, Repr

namespace Completion

def name : Completion → String
  | succeeded => "succeeded"
  | failed => "failed"

/-- Producers also write `completed` for success. -/
def choice : Choice Completion :=
  [("completed", succeeded), ("succeeded", succeeded), ("failed", failed)]

end Completion

inductive Event where
  | spawn (agent : String) (parent : Option String) (name description task : String)
  | delta (agent content : String)
  | toolCall (agent call tool : String)
  | toolResult (agent call result : String) (isError : Bool)
  | complete (agent : String) (status : Completion) (result error : Option String)
  deriving DecidableEq, Repr

namespace Event

def kind : Event → Kind
  | spawn .. => .spawn
  | delta .. => .delta
  | toolCall .. => .toolCall
  | toolResult .. => .toolResult
  | complete .. => .complete

def agent : Event → String
  | spawn agent .. => agent
  | delta agent _ => agent
  | toolCall agent .. => agent
  | toolResult agent .. => agent
  | complete agent .. => agent

def keyLength : Nat := 50

/-- A name under which repetitions of an event are found. A delta's is its length and how it
begins. -/
def key : Event → String
  | spawn agent .. => "spawn:" ++ agent
  | delta agent content =>
    "delta:" ++ agent ++ ":" ++ toString content.length ++ ":" ++
      String.ofList (content.toList.take keyLength)
  | toolCall agent call _ => "tool_call:" ++ agent ++ ":" ++ call
  | toolResult agent call .. => "tool_result:" ++ agent ++ ":" ++ call
  | complete agent .. => "complete:" ++ agent

def fields : Event → List (String × Value)
  | spawn agent parent name description task =>
    ("agent_id", .string agent) :: Value.field? "parent_id" (parent.map .string) ++
      [("name", .string name), ("description", .string description), ("task", .string task)]
  | delta agent content => [("agent_id", .string agent), ("content", .string content)]
  | toolCall agent call tool =>
    [("agent_id", .string agent), ("tool_call_id", .string call), ("tool_name", .string tool)]
  | toolResult agent call result isError =>
    [("agent_id", .string agent), ("tool_call_id", .string call), ("result", .string result),
      ("is_error", .bool isError)]
  | complete agent status result error =>
    [("agent_id", .string agent), ("status", .string status.name)] ++
      Value.field? "result" (result.map .string) ++ Value.field? "error" (error.map .string)

def toValue (e : Event) : Value := .object ((Json.tagName, .string e.kind.name) :: e.fields)

def write (e : Event) : String := e.toValue.compact

def agentField : Record Value String := .required "agent_id" Value.asString

def optional (name : String) : Record Value (Option String) :=
  .defaulted name (Value.asNullable Value.asString) none

def spawnRecord : Record Value Event :=
  Record.pure spawn
    |>.and agentField
    |>.and (optional "parent_id")
    |>.and (.required "name" Value.asString)
    |>.and (.defaulted "description" Value.asString "")
    |>.and (.defaulted "task" Value.asString "")

def deltaRecord : Record Value Event :=
  Record.pure delta
    |>.and agentField
    |>.and (.required "content" Value.asString)

def toolCallRecord : Record Value Event :=
  Record.pure toolCall
    |>.and agentField
    |>.and (.required "tool_call_id" Value.asString)
    |>.and (.required "tool_name" Value.asString)

def toolResultRecord : Record Value Event :=
  Record.pure toolResult
    |>.and agentField
    |>.and (.required "tool_call_id" Value.asString)
    |>.and (.defaulted "result" Value.asString "")
    |>.and (.defaulted "is_error" Value.asBool false)

def completeRecord : Record Value Event :=
  Record.pure complete
    |>.and agentField
    |>.and (.required "status" Completion.choice.ofValue)
    |>.and (optional "result")
    |>.and (optional "error")

def record : Kind → String × Record Value Event
  | .spawn => ("struct SpawnEvent", spawnRecord)
  | .delta => ("struct DeltaEvent", deltaRecord)
  | .toolCall => ("struct ToolCallEvent", toolCallRecord)
  | .toolResult => ("struct ToolResultEvent", toolResultRecord)
  | .complete => ("struct CompleteEvent", completeRecord)

def decoder : Decoder Event := fun place => do
  let (kind, body) ← Kind.choice.tagged "internally tagged enum SubAgentEvent" place
  let (label, r) := record kind
  r.ofBody label body

def read (text : String) : Except Fault Event := Json.decode decoder text

end Event

end Playback.Agents
