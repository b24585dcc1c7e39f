import Playback.Json.Decode
import Playback.Json.Writer

namespace Playback.Stream

open Json (Value Choice Record Decoder Fault Datum)

inductive Event where
  | textStart (id : String)
  | textDelta (id delta : String)
  | textEnd (id : String)
  | reasoningStart (id : String)
  | reasoningDelta (id delta : String)
  | reasoningEnd (id : String)
  | toolInput (call tool : String) (input : Datum)
  | toolOutput (call : String) (output : Datum)
  deriving DecidableEq, Repr

inductive Event.Kind where
  | textStart
  | textDelta
  | textEnd
  | reasoningStart
  | reasoningDelta
  | reasoningEnd
  | toolInput
  | toolOutput
  deriving DecidableEq, Repr

namespace Event

namespace Kind

def name : Kind → String
  | textStart => "text-start"
  | textDelta => "text-delta"
  | textEnd => "text-end"
  | reasoningStart => "reasoning-start"
  | reasoningDelta => "reasoning-delta"
  | reasoningEnd => "reasoning-end"
  | toolInput => "tool-input-available"
  | toolOutput => "tool-output-available"

def choice : Choice Kind :=
  [textStart, textDelta, textEnd, reasoningStart, reasoningDelta, reasoningEnd, toolInput,
    toolOutput].map fun k => (k.name, k)

end Kind

def kind : Event → Kind
  | textStart _ => .textStart
  | textDelta .. => .textDelta
  | textEnd _ => .textEnd
  | reasoningStart _ => .reasoningStart
  | reasoningDelta .. => .reasoningDelta
  | reasoningEnd _ => .reasoningEnd
  | toolInput .. => .toolInput
  | toolOutput .. => .toolOutput

def fields : Event → List (String × Value)
  | textStart id | textEnd id | reasoningStart id | reasoningEnd id => [("id", .string id)]
  | textDelta id delta | reasoningDelta id delta => [("id", .string id), ("delta", .string delta)]
  | toolInput call tool input =>
    [("toolCallId", .string call), ("toolName", .string tool), ("input", input.value)]
  | toolOutput call output => [("toolCallId", .string call), ("output", output.value)]

def toValue (e : Event) : Value := .object ((Json.tagName, .string e.kind.name) :: e.fields)

def write (e : Event) : String := e.toValue.compact

def idRecord (make : String → Event) : Record Value Event :=
  Record.pure make |>.and (.required "id" Value.asString)

def deltaRecord (make : String → String → Event) : Record Value Event :=
  Record.pure make
    |>.and (.required "id" Value.asString)
    |>.and (.required "delta" Value.asString)

def toolInputRecord : Record Value Event :=
  Record.pure toolInput
    |>.and (.required "toolCallId" Value.asString)
    |>.and (.required "toolName" Value.asString)
    |>.and (.required "input" Value.asDatum)

def toolOutputRecord : Record Value Event :=
  Record.pure toolOutput
    |>.and (.required "toolCallId" Value.asString)
    |>.and (.required "output" Value.asDatum)

def record : Kind → String × Record Value Event
  | .textStart => ("struct variant StreamEvent::TextStart", idRecord textStart)
  | .textDelta => ("struct variant StreamEvent::TextDelta", deltaRecord textDelta)
  | .textEnd => ("struct variant StreamEvent::TextEnd", idRecord textEnd)
  | .reasoningStart => ("struct variant StreamEvent::ReasoningStart", idRecord reasoningStart)
  | .reasoningDelta => ("struct variant StreamEvent::ReasoningDelta", deltaRecord reasoningDelta)
  | .reasoningEnd => ("struct variant StreamEvent::ReasoningEnd", idRecord reasoningEnd)
  | .toolInput => ("struct variant StreamEvent::ToolInputAvailable", toolInputRecord)
  | .toolOutput => ("struct variant StreamEvent::ToolOutputAvailable", toolOutputRecord)

def decoder : Decoder Event := fun place => do
  let (kind, body) ← Kind.choice.tagged "internally tagged enum StreamEvent" place
  let (label, r) := record kind
  r.ofBody label body

def read (text : String) : Except Fault Event := Json.decode decoder text

end Event

end Playback.Stream
