import Playback.Cassette.Turn

namespace Playback.Cassette

structure Reel where
  cassette : Cassette
  pacing : Pacing
  seed : Nat
  cursor : Nat
  deriving DecidableEq, Repr

namespace Reel

def start (cassette : Cassette) (pacing : Pacing) (seed : Nat) : Reel :=
  ⟨cassette, pacing, seed, 0⟩

def isExhausted (r : Reel) : Bool := r.cassette.messages.length ≤ r.cursor

/-- The next turn: behind at most one message of the user, all messages of the assistant up to the
next one of the user. -/
def nextTurn (r : Reel) : Turn × Reel :=
  let ahead := r.cassette.messages.drop r.cursor
  let skipped :=
    match ahead with
    | ⟨.user, _⟩ :: _ => 1
    | _ => 0
  let served := (ahead.drop skipped).takeWhile (·.role = .assistant)
  let begun := r.cursor + skipped
  let before := (r.cassette.messages.take begun).flatMap (·.content)
  (⟨r.seed + before.length, served.flatMap (·.content)⟩, { r with cursor := begun + served.length })

def skip (r : Reel) : Nat → Reel
  | 0 => r
  | n + 1 => r.nextTurn.2.skip n

end Reel

end Playback.Cassette
