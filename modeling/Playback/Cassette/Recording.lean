import Playback.Cassette.Basic
import Playback.Thread.Basic

/-!
Capturing a conversation as a cassette. What is never shown is left out: messages of the system,
empty texts, images, and messages in which nothing is left.
-/

namespace Playback.Cassette

def Role.ofThread? : Thread.Role → Option Role
  | .system => none
  | .user => some .user
  | .assistant => some .assistant

def Part.ofThread? : Thread.Part → Option Part
  | .text t => if t = "" then none else some (.text t)
  | .reasoning t => if t = "" then none else some (.reasoning t)
  | .toolCall call tool args result => some (.toolCall call tool args result)
  | .image _ => none

def Message.ofThread? (m : Thread.Message) : Option Message := do
  let role ← Role.ofThread? m.role
  let content := m.content.filterMap Part.ofThread?
  if content.isEmpty then none else some ⟨role, content⟩

def ofThread (thread : List Thread.Message) : Cassette := ⟨thread.filterMap Message.ofThread?⟩

end Playback.Cassette
