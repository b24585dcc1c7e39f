import Playback.Agents.Agent
import Playback.Agents.Event
import Playback.Agents.Inspection
import Playback.Agents.Marker
import Playback.Agents.Store
import Playback.Agents.Tracker
import Playback.Agents.Tree
import Playback.Cassette.Basic
import Playback.Cassette.File
import Playback.Cassette.Recording
import Playback.Cassette.Reel
import Playback.Cassette.Turn
import Playback.Chat.Basic
import Playback.Chat.Conversation
import Playback.Chat.Rehearsal
import Playback.Chat.Transport
import Playback.Command.Arguments
import Playback.Command.Basic
import Playback.Configuration.Basic
import Playback.Configuration.File
import Playback.Decimal.Double
import Playback.Host.Basic
import Playback.Host.World
import Playback.Instant
import Playback.Json.Datum
import Playback.Json.Decode
import Playback.Json.Document
import Playback.Json.Fault
import Playback.Json.Value
import Playback.Json.Writer
import Playback.Main
import Playback.Pacing
import Playback.Player
import Playback.Proofs.Agents.Acceptance
import Playback.Proofs.Agents.Ancestry
import Playback.Proofs.Agents.Change
import Playback.Proofs.Agents.Codec
import Playback.Proofs.Agents.Confusion
import Playback.Proofs.Agents.Delimiter
import Playback.Proofs.Agents.Delivery
import Playback.Proofs.Agents.Document
import Playback.Proofs.Agents.Expansion
import Playback.Proofs.Agents.Footprint
import Playback.Proofs.Agents.Forest
import Playback.Proofs.Agents.Grammar
import Playback.Proofs.Agents.Growth
import Playback.Proofs.Agents.Inspection
import Playback.Proofs.Agents.Listening
import Playback.Proofs.Agents.Log
import Playback.Proofs.Agents.Profile
import Playback.Proofs.Agents.Renewal
import Playback.Proofs.Agents.Repetition
import Playback.Proofs.Agents.Run
import Playback.Proofs.Agents.Scan
import Playback.Proofs.Agents.Seam
import Playback.Proofs.Agents.Tracking
import Playback.Proofs.Agents.Unstamped
import Playback.Proofs.Cassette.Codec
import Playback.Proofs.Cassette.Interruption
import Playback.Proofs.Cassette.Normal
import Playback.Proofs.Cassette.Pace
import Playback.Proofs.Cassette.Partition
import Playback.Proofs.Cassette.Reading
import Playback.Proofs.Cassette.Reassembly
import Playback.Proofs.Cassette.Turn
import Playback.Proofs.Chat.Books
import Playback.Proofs.Chat.Conversation
import Playback.Proofs.Chat.Intake
import Playback.Proofs.Chat.Minutes
import Playback.Proofs.Chat.Session
import Playback.Proofs.Chat.Silence
import Playback.Proofs.Chat.Turns
import Playback.Proofs.Chat.Waiting
import Playback.Proofs.Json.Layout
import Playback.Proofs.Json.Nesting
import Playback.Proofs.Json.Numeral
import Playback.Proofs.Json.Scan
import Playback.Proofs.Player.Cancellation
import Playback.Proofs.Player.Course
import Playback.Proofs.Player.Cut
import Playback.Proofs.Player.Minutes
import Playback.Proofs.Player.Rerecording
import Playback.Proofs.Player.Timetable
import Playback.Proofs.Player.Transcript
import Playback.Proofs.Player.Waiting
import Playback.Proofs.Stream.Interruption
import Playback.Proofs.Stream.Script
import Playback.Proofs.Thread.Assembler
import Playback.Proofs.Thread.Assembly
import Playback.Proofs.Thread.Codec
import Playback.Proofs.Thread.Order
import Playback.Stream.Event
import Playback.Stream.Reading
import Playback.Stream.Script
import Playback.Text.Blank
import Playback.Text.Glyphless
import Playback.Text.Quoted
import Playback.Thread.Assembler
import Playback.Thread.Basic
import Playback.Token
import Playback.Toml.Document
import Playback.Toml.Scalar
import Playback.Toml.Table
import Playback.Uuid
import Playback.Word
