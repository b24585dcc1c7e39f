import Playback.Json.Decode
import Playback.Json.Writer

namespace Playback.Thread

open Json (Value Choice Record Decoder Fault Datum Place)

inductive Role where
  | system
  | user
  | assistant
  deriving DecidableEq, Repr

namespace Role

def name : Role → String
  | system => "system"
  | user => "user"
  | assistant => "assistant"

def choice : Choice Role := [system, user, assistant].map fun r => (r.name, r)

end Role

inductive Part where
  | text (text : String)
  | reasoning (text : String)
  | toolCall (call tool : String) (args : Datum) (result : Option Datum)
  | image (image : String)
  deriving DecidableEq, Repr

structure Message where
  role : Role
  content : List Part
  deriving DecidableEq, Repr

namespace Message

def system (text : String) : Message := ⟨.system, [.text text]⟩

def user (text : String) : Message := ⟨.user, [.text text]⟩

def assistant (content : List Part) : Message := ⟨.assistant, content⟩

end Message

inductive Part.Kind where
  | text
  | reasoning
  | toolCall
  | image
  deriving DecidableEq, Repr

namespace Part

namespace Kind

def name : Kind → String
  | text => "text"
  | reasoning => "reasoning"
  | toolCall => "tool-call"
  | image => "image"

def choice : Choice Kind := [text, reasoning, toolCall, image].map fun k => (k.name, k)

end Kind

def toValue : Part → Value
  | text t => .object [(Json.tagName, .string Kind.text.name), ("text", .string t)]
  | reasoning t => .object [(Json.tagName, .string Kind.reasoning.name), ("text", .string t)]
  | toolCall call tool args result =>
    .object ([(Json.tagName, .string Kind.toolCall.name), ("toolCallId", .string call),
      ("toolName", .string tool), ("args", args.value)] ++
      Value.field? "result" (result.map (·.value)))
  | image i => .object [(Json.tagName, .string Kind.image.name), ("image", .string i)]

def stringRecord (name : String) (make : String → Part) : Record Value Part :=
  Record.pure make |>.and (.required name Value.asString)

/-- A result of null is no result. -/
def toolCallRecord : Record Value Part :=
  Record.pure toolCall
    |>.and (.required "toolCallId" Value.asString)
    |>.and (.required "toolName" Value.asString)
    |>.and (.required "args" Value.asDatum)
    |>.and (.defaulted "result" (Value.asNullable Value.asDatum) none)

def record : Kind → String × Record Value Part
  | .text => ("struct variant ThreadPart::Text", stringRecord "text" text)
  | .reasoning => ("struct variant ThreadPart::Reasoning", stringRecord "text" reasoning)
  | .toolCall => ("struct variant ThreadPart::ToolCall", toolCallRecord)
  | .image => ("struct variant ThreadPart::Image", stringRecord "image" image)

def decoder : Decoder Part := fun place => do
  let (kind, body) ← Kind.choice.tagged "internally tagged enum ThreadPart" place
  let (label, r) := record kind
  r.ofBody label body

end Part

namespace Message

def toValue (m : Message) : Value :=
  .object [("role", .string m.role.name), ("content", .array (m.content.map Part.toValue))]

def record : Record Place Message :=
  Record.pure Message.mk
    |>.and (.required "role" Role.choice.decoder)
    |>.and (.required "content" (Decoder.list Part.decoder))

def decoder : Decoder Message := record.decoder "struct ThreadMessage"

end Message

def toValue (thread : List Message) : Value := .array (thread.map Message.toValue)

def read (text : String) : Except Fault (List Message) :=
  Json.decode (Decoder.list Message.decoder) text

def write (thread : List Message) : String := (toValue thread).compact

end Playback.Thread
