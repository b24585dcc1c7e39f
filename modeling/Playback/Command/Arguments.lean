import Playback.Word

namespace Playback.Command

inductive Flag where
  | config
  | dataDir
  | logFile
  | typingSpeed
  | userDelay
  | assistantDelay
  | toolDelay
  | instant
  | help
  | version
  deriving DecidableEq, Repr

inductive Flag.Value where
  | none
  | path
  | number
  deriving DecidableEq, Repr

namespace Flag

def name : Flag → String
  | config => "config"
  | dataDir => "data-dir"
  | logFile => "log-file"
  | typingSpeed => "typing-speed"
  | userDelay => "user-delay"
  | assistantDelay => "assistant-delay"
  | toolDelay => "tool-delay"
  | instant => "instant"
  | help => "help"
  | version => "version"

def value : Flag → Flag.Value
  | config | dataDir => .path
  | typingSpeed | userDelay | assistantDelay | toolDelay => .number
  | logFile | instant | help | version => .none

def letter? : Flag → Option Char
  | help => some 'h'
  | version => some 'V'
  | _ => none

def delays : List Flag := [typingSpeed, userDelay, assistantDelay, toolDelay]

end Flag

inductive Level where
  | program
  | play
  | parse
  deriving DecidableEq, Repr

namespace Level

def flags : Level → List Flag
  | program => [.config, .dataDir, .logFile, .help, .version]
  | play => [.config, .dataDir, .logFile, .typingSpeed, .userDelay, .assistantDelay, .toolDelay,
      .instant, .help]
  | parse => [.config, .dataDir, .logFile, .help]

def files : Level → Nat
  | program => 0
  | play | parse => 1

def name : Level → String
  | program => "gram-replay"
  | play => "play"
  | parse => "parse"

end Level

inductive Misuse where
  | noCommand
  | unknownCommand (word : String)
  | unexpected (word : String)
  | noValue (flag : Flag)
  | unexpectedValue (flag : Flag)
  | noNumber (flag : Flag) (word : String)
  | repeated (flag : Flag)
  | conflict (flag : Flag)
  | noCassette
  deriving DecidableEq, Repr

def Misuse.message : Misuse → String
  | noCommand => "a command is required: play or parse"
  | unknownCommand word => "unrecognized subcommand '" ++ word ++ "'"
  | unexpected word => "unexpected argument '" ++ word ++ "' found"
  | noValue flag => "a value is required for '--" ++ flag.name ++ "' but none was supplied"
  | unexpectedValue flag => "the argument '--" ++ flag.name ++ "' takes no value"
  | noNumber flag word => "invalid value '" ++ word ++ "' for '--" ++ flag.name ++ "'"
  | repeated flag => "the argument '--" ++ flag.name ++ "' cannot be used multiple times"
  | conflict flag => "the argument '--instant' cannot be used with '--" ++ flag.name ++ "'"
  | noCassette => "a cassette is required"

inductive Stop where
  | help (level : Level)
  | version
  | misuse (why : Misuse)
  deriving DecidableEq, Repr

structure Words where
  flags : List (Flag × String)
  files : List String
  deriving DecidableEq, Repr

namespace Words

def has (w : Words) (flag : Flag) : Bool := (w.flags.lookup flag).isSome

/-- A number of 64 bits; a plus sign may stand before its digits. -/
def number? (word : String) : Option Nat :=
  let digits :=
    match word.toList with
    | '+' :: rest => rest
    | cs => cs
  let n := digits.foldl (fun n c => 10 * n + (c.toNat - 48)) 0
  if digits.isEmpty || !digits.all Char.isDigit || Word.bound ≤ n then none else some n

def addFlag (w : Words) (level : Level) (flag : Flag) (value : String) : Except Stop Words :=
  if flag = .help then .error (.help level)
  else if flag = .version then .error .version
  else if w.has flag then .error (.misuse (.repeated flag))
  else
    let taken := { w with flags := (flag, value) :: w.flags }
    match flag.value with
    | .none => .ok taken
    | .path => if value = "" then .error (.misuse (.noValue flag)) else .ok taken
    | .number =>
      if (number? value).isSome then .ok taken else .error (.misuse (.noNumber flag value))

def addFile (w : Words) (level : Level) (word : String) : Except Stop Words :=
  if level.files ≤ w.files.length then .error (.misuse (.unexpected word))
  else if word = "" then .error (.misuse .noCassette)
  else .ok { w with files := w.files ++ [word] }

end Words

inductive Shape where
  | plain
  | escape
  | long (name : String) (value : Option String)
  | short (letter : Char)
  deriving DecidableEq, Repr

def Shape.ofWord (word : String) : Shape :=
  match word.toList with
  | ['-', '-'] => .escape
  | '-' :: '-' :: cs =>
    let name := String.ofList (cs.takeWhile (· ≠ '='))
    match cs.dropWhile (· ≠ '=') with
    | [] => .long name none
    | _ :: value => .long name (some (String.ofList value))
  | '-' :: c :: _ => .short c
  | _ => .plain

def readLevel (level : Level) (onlyFiles : Bool) (w : Words) :
    List String → Except Stop (Words × List String)
  | [] => .ok (w, [])
  | word :: rest =>
    if onlyFiles then do readLevel level true (← w.addFile level word) rest
    else
      match Shape.ofWord word with
      | .plain =>
        if level = .program then .ok (w, word :: rest)
        else do readLevel level false (← w.addFile level word) rest
      | .escape => readLevel level true w rest
      | .short c =>
        match level.flags.find? (·.letter? = some c) with
        | none => .error (.misuse (.unexpected word))
        | some flag => do readLevel level false (← w.addFlag level flag "") rest
      | .long name value =>
        match level.flags.find? (·.name = name), value with
        | none, _ => .error (.misuse (.unexpected word))
        | some flag, some value =>
          if flag.value = .none then .error (.misuse (.unexpectedValue flag))
          else do readLevel level false (← w.addFlag level flag value) rest
        | some flag, none =>
          if flag.value = .none then do readLevel level false (← w.addFlag level flag "") rest
          else
            match rest with
            | [] => .error (.misuse (.noValue flag))
            | value :: rest =>
              if Shape.ofWord value = .plain then do
                readLevel level false (← w.addFlag level flag value) rest
              else .error (.misuse (.noValue flag))

structure Delays where
  typing : Option Nat
  user : Option Nat
  assistant : Option Nat
  tool : Option Nat
  instant : Bool
  deriving DecidableEq, Repr

inductive Task where
  | play (cassette : String) (delays : Delays)
  | parse (file : Option String)
  deriving DecidableEq, Repr

structure Arguments where
  config : Option String
  dataDir : Option String
  logFile : Bool
  task : Task
  deriving DecidableEq, Repr

namespace Arguments

def playTask (w : Words) : Except Stop Task :=
  let number := fun flag => (w.flags.lookup flag).bind Words.number?
  match w.files with
  | [] => .error (.misuse .noCassette)
  | cassette :: _ =>
    match Flag.delays.find? w.has with
    | some flag =>
      if w.has .instant then .error (.misuse (.conflict flag))
      else
        .ok (.play cassette ⟨number .typingSpeed, number .userDelay, number .assistantDelay,
          number .toolDelay, false⟩)
    | none => .ok (.play cassette ⟨none, none, none, none, w.has .instant⟩)

/-- What is said after the command counts more than what is said before. -/
def ofWords (before after : Words) (task : Task) : Arguments where
  config := after.flags.lookup .config <|> before.flags.lookup .config
  dataDir := after.flags.lookup .dataDir <|> before.flags.lookup .dataDir
  logFile := after.has .logFile || before.has .logFile
  task := task

def topics : List (List String × Level) :=
  [([], .program), (["play"], .play), (["parse"], .parse), (["help"], .program)]

def read (words : List String) : Except Stop Arguments := do
  let none : Words := ⟨[], []⟩
  let (before, rest) ← readLevel .program false none words
  match rest with
  | [] => throw (.misuse .noCommand)
  | "play" :: rest => do
    let (after, _) ← readLevel .play false none rest
    return ofWords before after (← playTask after)
  | "parse" :: rest => do
    let (after, _) ← readLevel .parse false none rest
    return ofWords before after (.parse after.files.head?)
  | "help" :: topic =>
    match topics.lookup topic with
    | some level => throw (.help level)
    | Option.none => throw (.misuse (.unknownCommand (topic.getLast?.getD "")))
  | word :: _ => throw (.misuse (.unknownCommand word))

end Arguments

def Flag.about : Flag → String
  | config => "Config file (default: ~/.gram-replay/config.toml)"
  | dataDir => "Data directory (default: ~/.gram-replay)"
  | logFile => "Write logs to the data directory instead of stderr"
  | typingSpeed => "Milliseconds per streamed character"
  | userDelay => "Milliseconds before each user message"
  | assistantDelay => "Milliseconds before each assistant turn"
  | toolDelay => "Milliseconds between a tool call and its result"
  | instant => "Disable all pacing"
  | help => "Print help"
  | version => "Print version"

def Flag.usage (f : Flag) : String :=
  let value := match f.value with
    | .none => ""
    | .path => " <PATH>"
    | .number => " <MS>"
  "      --" ++ f.name ++ value ++ "\n          " ++ f.about ++ "\n"

def Level.about : Level → String
  | program => "Replay chat cassettes and inspect sub-agent trees"
  | play => "Replay a cassette, printing stream events as JSON lines"
  | parse => "Extract sub-agent markers from text and print the resulting tree"

def Level.usage : Level → String
  | program => "Usage: gram-replay [OPTIONS] <COMMAND>\n\nCommands:\n  play   " ++
      play.about ++ "\n  parse  " ++ parse.about ++ "\n"
  | play => "Usage: gram-replay play [OPTIONS] <CASSETTE>\n"
  | parse => "Usage: gram-replay parse [OPTIONS] [FILE]\n"

def Level.helpText (l : Level) : String :=
  l.about ++ "\n\n" ++ l.usage ++ "\nOptions:\n" ++ String.join (l.flags.map Flag.usage)

def versionText : String := "gram-replay 0.1.0\n"

end Playback.Command
