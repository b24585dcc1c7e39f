import Playback.Cassette.Basic
import Playback.Host.Basic

namespace Playback.Cassette

inductive FileFault where
  | inaccessible (path : String) (why : Trouble)
  | malformed (why : Json.Fault)
  deriving DecidableEq, Repr

def FileFault.message : FileFault → String
  | inaccessible path why => "failed to access cassette file " ++ path ++ ": " ++ why.message
  | malformed why => "invalid cassette JSON: " ++ why.message

variable {m : Type → Type} [Monad m] [Host m]

def load (path : String) : m (Except FileFault Cassette) := do
  match ← Host.content path with
  | .error why => return .error (.inaccessible path why)
  | .ok text => return (read text).mapError .malformed

def save (c : Cassette) (path : String) : m (Except FileFault Unit) := do
  return (← Host.write path c.writePretty).mapError (.inaccessible path)

end Playback.Cassette
