import Playback.Pacing
import Playback.Toml.Document

namespace Playback

open Toml (Item Fields)

structure Configuration where
  pacing : Pacing
  autoExpand : Bool
  deriving DecidableEq, Repr

namespace Configuration

def standard : Configuration := ⟨.standard, false⟩

def milliseconds : Item → Option Nat
  | .integer n => if 0 ≤ n then some n.toNat else none
  | _ => none

def switch : Item → Option Bool
  | .boolean b => some b
  | _ => none

def setting (read : Item → Option α) (key : String) (fields : Fields) (missing : α) : Option α :=
  match fields.lookup key with
  | none => some missing
  | some item => read item

/-- The fields of a table; a date has none. -/
def fields? : Item → Option Fields
  | .table _ fields | .inline fields => some fields
  | .date _ => some []
  | _ => none

def readPacing (base : Pacing) : Item → Option Pacing
  | .array (typing :: user :: assistant :: tool :: _) => do
    return ⟨← milliseconds typing, ← milliseconds user, ← milliseconds assistant,
      ← milliseconds tool⟩
  | item => do
    let fields ← fields? item
    return ⟨← setting milliseconds "typing_speed_ms" fields base.typing,
      ← setting milliseconds "user_message_delay_ms" fields base.userMessage,
      ← setting milliseconds "assistant_start_delay_ms" fields base.assistantStart,
      ← setting milliseconds "tool_result_delay_ms" fields base.toolResult⟩

def readExpansion (base : Bool) : Item → Option Bool
  | .array (expand :: _) => switch expand
  | item => do setting switch "auto_expand_sub_agents" (← fields? item) base

/-- Lays the settings of a document over the standard ones. -/
def read (text : String) : Option Configuration := do
  let fields ← Toml.read text
  return ⟨← setting (readPacing standard.pacing) "replay" fields standard.pacing,
    ← setting (readExpansion standard.autoExpand) "agents" fields standard.autoExpand⟩

def exampleText : String :=
"# gram-replay configuration
#
# Every key is optional; missing keys keep the built-in default.

[replay]
# Milliseconds per streamed character
# typing_speed_ms = 15

# Milliseconds to wait before each recorded user message
# user_message_delay_ms = 800

# Milliseconds to wait before an assistant turn starts streaming
# assistant_start_delay_ms = 400

# Milliseconds between a tool call and its recorded result
# tool_result_delay_ms = 300

[agents]
# Expand sub-agents in the execution tree as soon as they spawn
# auto_expand_sub_agents = false
"

end Configuration

end Playback
