namespace Playback

/-- Pauses in milliseconds. -/
structure Pacing where
  typing : Nat
  userMessage : Nat
  assistantStart : Nat
  toolResult : Nat
  deriving DecidableEq, Repr

namespace Pacing

def standard : Pacing := ⟨15, 800, 400, 300⟩

def instant : Pacing := ⟨0, 0, 0, 0⟩

end Pacing

end Playback
