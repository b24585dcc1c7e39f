import Playback.Cassette.Reel

namespace Playback.Chat

open Playback.Stream (Script)

/-- Every message asks for one more turn. -/
class Transport (τ : Type) where
  send : τ → Script × τ

instance : Transport Cassette.Reel where
  send reel := (reel.nextTurn.1.script reel.pacing, reel.nextTurn.2)

instance : Transport (List Script) where
  send
    | [] => ([], [])
    | script :: rest => (script, rest)

end Playback.Chat
