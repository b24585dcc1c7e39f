import Playback.Configuration.Basic
import Playback.Host.Basic

namespace Playback.Configuration

inductive Fault where
  | unreadable (path : String) (why : Trouble)
  | malformed (path : String)
  deriving DecidableEq, Repr

def Fault.message : Fault → String
  | unreadable path why => "failed to read config " ++ path ++ ": " ++ why.message
  | malformed path => "invalid config " ++ path

variable {m : Type → Type} [Monad m] [Host m]

def load (path : String) : m (Except Fault Configuration) := do
  match ← Host.content path with
  | .error why => return .error (.unreadable path why)
  | .ok text =>
    match read text with
    | none => return .error (.malformed path)
    | some c => return .ok c

def pathIn (directory : String) : String := joinPath directory "config.toml"

def writeExample (directory : String) : m (Option String) := do
  match ← Host.makeDirectories directory with
  | .error why => return some ("Failed to create config directory: " ++ why.message)
  | .ok () =>
    match ← Host.write (pathIn directory) exampleText with
    | .error why => return some ("Failed to write default config: " ++ why.message)
    | .ok () => return none

end Playback.Configuration
