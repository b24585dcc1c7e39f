import Playback.Agents.Event

/-!
Events embedded in streamed text. A marker is an opening delimiter, the JSON text of an event and
the next closing delimiter. Text arrives in pieces and may be cut anywhere, so a scan always sees
all of the text so far and holds back an end that may still become a marker.
-/

namespace Playback.Agents

open Json (Fault)

namespace Marker

def opening : List Char :=
  ['<', '!', '-', '-', 'G', 'R', 'A', 'M', '_', 'A', 'G', 'E', 'N', 'T', ':']

def closing : List Char := ['-', '-', '>']

def after? (piece text : List Char) : Option (List Char) :=
  match piece, text with
  | [], rest => some rest
  | _ :: _, [] => none
  | p :: piece, c :: text => if p = c then after? piece text else none

def split? (piece : List Char) : List Char → Option (List Char × List Char)
  | [] => (after? piece []).map ([], ·)
  | c :: text =>
    match after? piece (c :: text) with
    | some rest => some ([], rest)
    | none => (split? piece text).map fun (before, rest) => (c :: before, rest)

def splitLast? (piece : List Char) : List Char → Option (List Char × List Char)
  | [] => (after? piece []).map fun _ => ([], [])
  | c :: text =>
    match splitLast? piece text with
    | some (before, found) => some (c :: before, found)
    | none => (after? piece (c :: text)).map fun _ => ([], c :: text)

structure Piece where
  before : List Char
  payload : List Char
  deriving DecidableEq, Repr

def next? (text : List Char) : Option (Piece × List Char) :=
  match split? opening text with
  | none => none
  | some (before, rest) =>
    (split? closing rest).map fun (payload, rest) => (⟨before, payload⟩, rest)

def pieces : Nat → List Char → List Piece × List Char
  | 0, text => ([], text)
  | fuel + 1, text =>
    match next? text with
    | none => ([], text)
    | some (piece, rest) =>
      let (more, last) := pieces fuel rest
      (piece :: more, last)

def begins (text piece : List Char) : Bool := (after? text piece).isSome

/-- The longest end of the text that is a beginning of the piece, and the text before it. -/
def splitBeginning (piece : List Char) : List Char → List Char × List Char
  | [] => ([], [])
  | c :: text =>
    if begins (c :: text) piece then ([], c :: text)
    else
      let (before, found) := splitBeginning piece text
      (c :: before, found)

/-- Cuts text without markers before an end that may still become one: before the last opening
delimiter unless a closing one follows, or else before the beginning of an opening delimiter. -/
def holdBack (text : List Char) : List Char × List Char :=
  match splitLast? opening text with
  | some (before, found) =>
    match split? closing found with
    | none => (before, found)
    | some _ => splitBeginning opening text
  | none => splitBeginning opening text

end Marker

structure Parsed where
  clean : String
  events : List Event
  dropped : List String
  trailing : String
  deriving DecidableEq, Repr

namespace Marker

def decode (payload : List Char) : Event ⊕ String :=
  let text := String.ofList payload
  match Event.read text with
  | .ok e => .inl e
  | .error _ => .inr text

def warning (payload : String) : String :=
  match Event.read payload with
  | .ok _ => ""
  | .error f => "Failed to parse agent event: " ++ f.message ++ ". Payload: " ++ payload

def parse (text : String) : Parsed :=
  let chars := text.toList
  -- A marker takes up text, so there are fewer of them than characters.
  let (found, last) := pieces chars.length chars
  let payloads := found.map fun piece => decode piece.payload
  let (clean, trailing) := holdBack (found.flatMap (·.before) ++ last)
  { clean := String.ofList clean
    events := payloads.filterMap fun
      | .inl e => some e
      | .inr _ => none
    dropped := payloads.filterMap fun
      | .inl _ => none
      | .inr text => some text
    trailing := String.ofList trailing }

/-- Characters of a closing delimiter, and those that mark-up gives a meaning, are escaped in a
payload. -/
def escape : Char → List Char
  | '<' => ['\\', 'u', '0', '0', '3', 'c']
  | '>' => ['\\', 'u', '0', '0', '3', 'e']
  | '&' => ['\\', 'u', '0', '0', '2', '6']
  | c => [c]

def encode (e : Event) : String :=
  String.ofList (opening ++ e.toValue.write.flatMap escape ++ closing)

end Marker

end Playback.Agents
