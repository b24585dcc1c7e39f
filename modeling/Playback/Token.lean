namespace Playback

structure Token where
  instant : Option Nat
  deriving DecidableEq, Repr

namespace Token

def never : Token := ⟨none⟩

def cancelledFrom (instant : Nat) : Token := ⟨some instant⟩

def isCancelled (t : Token) (now : Nat) : Bool := t.instant.any (· ≤ now)

def cancel (t : Token) (now : Nat) : Token := ⟨some ((t.instant.getD now).min now)⟩

/-- A pause that the token can cut short: the instant at which it is over, or else the one at which
it is cut. A cancelled token cuts even a pause of no length. -/
def pause (t : Token) (now ms : Nat) : Except Nat Nat :=
  match t.instant with
  | none => .ok (now + ms)
  | some c => if c ≤ now + ms then .error (max now c) else .ok (now + ms)

def cutMessage : String := "replay cancelled"

end Token

end Playback
