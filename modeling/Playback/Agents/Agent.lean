import Playback.Agents.Event
import Playback.Instant

namespace Playback.Agents

open Json (Value Choice Record Decoder Fault Place)

inductive Status where
  | running
  | succeeded
  | failed
  deriving DecidableEq, Repr

namespace Status

def name : Status → String
  | running => "running"
  | succeeded => "succeeded"
  | failed => "failed"

def choice : Choice Status := [running, succeeded, failed].map fun s => (s.name, s)

def isFinished (s : Status) : Bool := s != running

def ofCompletion : Completion → Status
  | .succeeded => succeeded
  | .failed => failed

end Status

inductive Role where
  | assistant
  | tool
  deriving DecidableEq, Repr

namespace Role

def name : Role → String
  | assistant => "assistant"
  | tool => "tool"

def choice : Choice Role := [assistant, tool].map fun r => (r.name, r)

end Role

structure Message where
  id : String
  role : Role
  content : String
  tool : Option String
  call : Option String
  time : Instant
  deriving DecidableEq, Repr

/-- The record of an agent. It has no parent if it is a root or its parent was never seen; its
children stand in the order in which they were started. -/
structure Agent where
  id : String
  parent : Option String
  name : String
  description : String
  task : String
  status : Status
  messages : List Message
  children : List String
  started : Instant
  completed : Option Instant
  result : Option String
  error : Option String
  deriving DecidableEq, Repr

namespace Agent

def start (id name task : String) (now : Instant) : Agent where
  id := id
  parent := none
  name := name
  description := ""
  task := task
  status := .running
  messages := []
  children := []
  started := now
  completed := none
  result := none
  error := none

def toolMessage? (a : Agent) (call : String) : Option Message :=
  a.messages.find? (·.call == some call)

end Agent

namespace Message

def toValue (m : Message) : Value :=
  .object ([("id", .string m.id), ("role", .string m.role.name), ("content", .string m.content)] ++
    Value.field? "tool_name" (m.tool.map .string) ++
    Value.field? "tool_call_id" (m.call.map .string) ++
    [("timestamp", .string m.time.text)])

end Message

namespace Agent

def toValue (a : Agent) : Value :=
  .object ([("id", .string a.id), ("parent_id", (a.parent.map .string).getD .null),
      ("name", .string a.name), ("description", .string a.description), ("task", .string a.task),
      ("status", .string a.status.name), ("messages", .array (a.messages.map Message.toValue)),
      ("children", .array (a.children.map .string)), ("started_at", .string a.started.text)] ++
    Value.field? "completed_at" (a.completed.map fun t => .string t.text) ++
    Value.field? "result" (a.result.map .string) ++ Value.field? "error" (a.error.map .string))

end Agent

def instantDecoder : Decoder Instant
  | (_, .string s) => do
    let text ← s
    (Instant.read text).mapError fun f => .badInstant f.message
  | (_, d) => d.mismatch "an RFC 3339 formatted date and time string"

def optionalText (name : String) : Record Place (Option String) :=
  .defaulted name (Decoder.nullable Decoder.string) none

namespace Message

def record : Record Place Message :=
  Record.pure Message.mk
    |>.and (.required "id" Decoder.string)
    |>.and (.required "role" Role.choice.decoder)
    |>.and (.required "content" Decoder.string)
    |>.and (optionalText "tool_name")
    |>.and (optionalText "tool_call_id")
    |>.and (.required "timestamp" instantDecoder)

def decoder : Decoder Message := record.decoder "struct SubAgentMessage"

end Message

namespace Agent

/-- The parent may be left out of an object, but not of an array. -/
def record : Record Place Agent :=
  Record.pure Agent.mk
    |>.and (.required "id" Decoder.string)
    |>.and (.field "parent_id" (Decoder.nullable Decoder.string) (some none) none)
    |>.and (.required "name" Decoder.string)
    |>.and (.required "description" Decoder.string)
    |>.and (.required "task" Decoder.string)
    |>.and (.required "status" Status.choice.decoder)
    |>.and (.required "messages" (Decoder.list Message.decoder))
    |>.and (.required "children" (Decoder.list Decoder.string))
    |>.and (.required "started_at" instantDecoder)
    |>.and (.defaulted "completed_at" (Decoder.nullable instantDecoder) none)
    |>.and (optionalText "result")
    |>.and (optionalText "error")

def decoder : Decoder Agent := record.decoder "struct SubAgentState"

def read (text : String) : Except Fault Agent := Json.decode decoder text

def write (a : Agent) : String := a.toValue.compact

end Agent

end Playback.Agents
