import Playback.Json.Decode
import Playback.Json.Writer

namespace Playback

open Json (Value Choice Record Decoder Fault Datum Place)

inductive Cassette.Role where
  | user
  | assistant
  deriving DecidableEq, Repr

/-- A part of a recorded message. A tool call without a result is still open; a result may be
null. -/
inductive Cassette.Part where
  | text (text : String)
  | reasoning (text : String)
  | toolCall (call tool : String) (args : Datum) (result : Option Datum)
  deriving DecidableEq, Repr

structure Cassette.Message where
  role : Cassette.Role
  content : List Cassette.Part
  deriving DecidableEq, Repr

structure Cassette where
  messages : List Cassette.Message
  deriving DecidableEq, Repr

namespace Cassette

namespace Role

def name : Role → String
  | user => "user"
  | assistant => "assistant"

def choice : Choice Role := [user, assistant].map fun r => (r.name, r)

end Role

inductive Part.Kind where
  | text
  | reasoning
  | toolCall
  deriving DecidableEq, Repr

namespace Part.Kind

def name : Kind → String
  | text => "text"
  | reasoning => "reasoning"
  | toolCall => "tool-call"

def choice : Choice Kind := [text, reasoning, toolCall].map fun k => (k.name, k)

end Part.Kind

namespace Part

def kind : Part → Kind
  | text _ => .text
  | reasoning _ => .reasoning
  | toolCall .. => .toolCall

end Part

namespace Message

def userText (m : Message) : String :=
  "\n".intercalate (m.content.filterMap fun
    | .text text => some text
    | _ => none)

end Message

def isEmpty (c : Cassette) : Bool := c.messages.isEmpty

def userMessages (c : Cassette) : List Message := c.messages.filter (·.role = .user)

def userTurns (c : Cassette) : Nat := c.userMessages.length

namespace Part

def toValue : Part → Value
  | text t => .object [(Json.tagName, .string Kind.text.name), ("text", .string t)]
  | reasoning t => .object [(Json.tagName, .string Kind.reasoning.name), ("text", .string t)]
  | toolCall call tool args result =>
    .object ([(Json.tagName, .string Kind.toolCall.name), ("toolCallId", .string call),
      ("toolName", .string tool), ("args", args.value)] ++
      Value.field? "result" (result.map (·.value)))

def write (p : Part) : String := p.toValue.compact

def textRecord (make : String → Part) : Record Value Part :=
  Record.pure make |>.and (.required "text" Value.asString)

/-- A result of null is a result. -/
def toolCallRecord : Record Value Part :=
  Record.pure toolCall
    |>.and (.required "toolCallId" Value.asString)
    |>.and (.required "toolName" Value.asString)
    |>.and (.defaulted "args" Value.asDatum .null)
    |>.and (.defaulted "result" (fun v => some <$> v.asDatum) none)

def record : Kind → String × Record Value Part
  | .text => ("struct variant CassettePart::Text", textRecord text)
  | .reasoning => ("struct variant CassettePart::Reasoning", textRecord reasoning)
  | .toolCall => ("struct variant CassettePart::ToolCall", toolCallRecord)

def decoder : Decoder Part := fun place => do
  let (kind, body) ← Kind.choice.tagged "internally tagged enum CassettePart" place
  let (label, r) := record kind
  r.ofBody label body

end Part

namespace Message

def toValue (m : Message) : Value :=
  .object [("role", .string m.role.name), ("content", .array (m.content.map Part.toValue))]

def record : Record Place Message :=
  Record.pure Message.mk
    |>.and (.required "role" Role.choice.decoder)
    |>.and (.required "content" (Decoder.list Part.decoder))

def decoder : Decoder Message := record.decoder "struct CassetteMessage"

end Message

def toValue (c : Cassette) : Value :=
  .object [("messages", .array (c.messages.map Message.toValue))]

def record : Record Place Cassette :=
  Record.pure Cassette.mk |>.and (.required "messages" (Decoder.list Message.decoder))

def decoder : Decoder Cassette := record.decoder "struct Cassette"

def read (text : String) : Except Fault Cassette := Json.decode decoder text

def write (c : Cassette) : String := c.toValue.compact

def writePretty (c : Cassette) : String := c.toValue.pretty

end Cassette

end Playback
