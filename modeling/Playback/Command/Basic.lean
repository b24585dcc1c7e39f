import Playback.Agents.Inspection
import Playback.Cassette.File
import Playback.Chat.Conversation
import Playback.Command.Arguments
import Playback.Configuration.File
import Playback.Player

namespace Playback.Command

open Agents (Inspection Marker.warning)
open Chat (Conversation)
open Cassette (Reel)

inductive Failure where
  | trouble (why : Trouble)
  | configuration (why : Configuration.Fault)
  | cassette (path : String) (why : Cassette.FileFault)
  | text (path : String) (why : Trouble)
  | player (why : String)
  deriving DecidableEq, Repr

namespace Failure

def message : Failure → String
  | trouble why => why.message
  | configuration why => why.message
  | cassette path _ => "loading cassette " ++ path
  | text path _ => "reading " ++ path
  | player why => why

def cause : Failure → Option String
  | cassette _ why => some why.message
  | text _ why => some why.message
  | _ => none

end Failure

def dataDirectory (home given : Option String) : String :=
  match given, home with
  | some directory, _ => directory
  | none, some home => joinPath home ".gram-replay"
  | none, none => ".gram-replay"

def logDirectory (directory : String) : String := joinPath directory "logs"

def logPath (directory : String) : String := joinPath (logDirectory directory) "gram-replay.log"

def Delays.pacing (d : Delays) (base : Pacing) : Pacing :=
  if d.instant then .instant
  else ⟨d.typing.getD base.typing, d.user.getD base.userMessage,
    d.assistant.getD base.assistantStart, d.tool.getD base.toolResult⟩

variable {m : Type → Type} [Monad m] [Host m]

/-- Tells a warning to the log, or else where it does not mix with what is printed. -/
def warn (log : Option String) (text : String) : m Unit := do
  let line := (← Host.now).text ++ "  WARN " ++ text
  match log with
  | none => Host.complain line
  | some path =>
    match ← Host.extend path (line ++ "\n") with
    | .ok () => return
    | .error _ => Host.complain line

def openLog (wanted : Bool) (directory : String) : m (Except Failure (Option String)) := do
  if !wanted then return .ok none
  match ← Host.makeDirectories (logDirectory directory) with
  | .error why => return .error (.trouble why)
  | .ok () =>
    match ← Host.extend (logPath directory) "" with
    | .error why => return .error (.trouble why)
    | .ok () => return .ok (some (logPath directory))

/-- The settings of a file that must be there, or else of the data directory; an example is put
there if it has none. -/
def configure (directory : String) (given log : Option String) :
    m (Except Failure Configuration) := do
  match given with
  | some path => return (← Configuration.load path).mapError .configuration
  | none =>
    let path := Configuration.pathIn directory
    if ← Host.isThere path then
      return (← Configuration.load path).mapError .configuration
    else
      match ← Configuration.writeExample directory with
      | some text => warn log text
      | none => pure ()
      return .ok .standard

def printEvents (now : Nat) : List (Nat × Stream.Event) → m Unit
  | [] => return
  | (time, e) :: rest => do
    Host.pause (time - now)
    Host.print (.line e.toValue)
    printEvents (max now time) rest

def playSummary (outcome : Stream.Outcome) (c : Conversation Reel) : Json.Value :=
  .object (("outcome", .string outcome.name) ::
    Json.Value.field? "tree" (c.store.map fun s => s.tree.toValue))

def play (c : Configuration) (log : Option String) (path : String) (delays : Delays) :
    m (Except Failure Unit) := do
  match ← Cassette.load path with
  | .error why => return .error (.cassette path why)
  | .ok cassette =>
    let pacing := delays.pacing c.pacing
    let clock ← Host.now
    let store := Agents.Store.new c.autoExpand clock (← Host.random)
    let reel := Reel.start cassette pacing (← Host.random)
    let report := (Player.start cassette pacing .never).play
      (Conversation.start reel [] (some store) clock .never) 0 none
    let course := report.course
    let (conversation, finish) := course.chat.settle course.now
    printEvents 0 conversation.log
    Host.pause (finish - (conversation.log.getLast?.map (·.1)).getD 0)
    for payload in conversation.dropped do
      warn log (Marker.warning payload)
    match report.ending with
    | .outcome outcome =>
      Host.print (.summary (Json.Datum.ofValue (playSummary outcome conversation)).value)
      return .ok ()
    | .failure why => return .error (.player why.message)
    | .stuck => return .error (.player Chat.Failure.closed.message)

def readText (file : Option String) : m (Except Failure String) := do
  match file with
  | some path => return (← Host.content path).mapError (.text path)
  | none => return (← Host.readInput).mapError .trouble

def parse (c : Configuration) (log : Option String) (file : Option String) :
    m (Except Failure Unit) := do
  match ← readText file with
  | .error why => return .error why
  | .ok text =>
    let found := Inspection.ofText c.autoExpand (← Host.now) (← Host.random) text
    for payload in found.parsed.dropped do
      warn log (Marker.warning payload)
    Host.print (.summary (Json.Datum.ofValue found.toValue).value)
    return .ok ()

def perform (a : Arguments) : m (Except Failure Unit) := do
  let directory := dataDirectory (← Host.home) a.dataDir
  match ← openLog a.logFile directory with
  | .error why => return .error why
  | .ok log =>
    match ← configure directory a.config log with
    | .error why => return .error why
    | .ok c =>
      match a.task with
      | .play cassette delays => play c log cassette delays
      | .parse file => parse c log file

def run (words : List String) : m UInt8 := do
  match Arguments.read words with
  | .error (.help level) =>
    Host.print (.text level.helpText)
    return 0
  | .error .version =>
    Host.print (.text versionText)
    return 0
  | .error (.misuse why) =>
    Host.complain ("error: " ++ why.message)
    return 2
  | .ok a =>
    match ← perform a with
    | .ok () => return 0
    | .error why =>
      Host.complain ("Error: " ++ why.message)
      match why.cause with
      | some cause => Host.complain ("\nCaused by:\n    " ++ cause)
      | none => pure ()
      return 1

end Playback.Command
