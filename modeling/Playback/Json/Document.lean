import Playback.Json.Fault
import Playback.Word

/-!
A JSON text as it is read from the left. Where the text is malformed the document breaks off, with
the fault at the place where it stands: a reader meets a fault only when it gets there, so that of
two faults in one text the first one counts. Readers differ: one that wants a value is stricter than
one that skips it.
-/

namespace Playback.Json

/-- The faults that different readers report at one place: one that wants the value there, one that
skips it, and one that only looks at its first character. -/
structure Break where
  wanted : Fault
  skipped : Fault
  glanced : Fault
  deriving DecidableEq, Repr

def Break.same (fault : Fault) : Break := ⟨fault, fault, fault⟩

mutual

/-- Strings and numbers may have faults of their own, which a reader that skips them passes over. -/
inductive Doc where
  | null
  | bool (b : Bool)
  | number (n : Except Fault Number)
  | string (s : Except Fault String)
  | array (items : Items)
  | object (members : Members)
  | broken (b : Break)

inductive Items where
  | closed
  | broken (b : Break)
  | cons (item : Doc) (rest : Items)

inductive Members where
  | closed
  | broken (b : Break)
  | oddKey (found : Doc)
  | keyOnly (key : Except Fault String) (fault : Fault)
  | cons (key : Except Fault String) (value : Doc) (rest : Members)

end

instance : Inhabited Doc := ⟨.null⟩

def isBlank (c : Char) : Bool := c == ' ' || c == '\n' || c == '\t' || c == '\r'

def skipBlanks (cs : List Char) : List Char := cs.dropWhile isBlank

def hexValue (c : Char) : Option Nat :=
  let n := c.toNat
  if 48 ≤ n ∧ n ≤ 57 then some (n - 48)
  else if 97 ≤ n ∧ n ≤ 102 then some (n - 87)
  else if 65 ≤ n ∧ n ≤ 70 then some (n - 55)
  else none

def hexUnit (a b c d : Char) : Option Nat := do
  return 4096 * (← hexValue a) + 256 * (← hexValue b) + 16 * (← hexValue c) + (← hexValue d)

def isLead (n : Nat) : Bool := 0xD800 ≤ n && n ≤ 0xDBFF

def isTrail (n : Nat) : Bool := 0xDC00 ≤ n && n ≤ 0xDFFF

def pairChar (lead trail : Nat) : Char :=
  Char.ofNat (0x10000 + 0x400 * (lead - 0xD800) + (trail - 0xDC00))

def shortEscape : Char → Option Char
  | '"' => some '"'
  | '\\' => some '\\'
  | '/' => some '/'
  | 'b' => some '\x08'
  | 'f' => some '\x0c'
  | 'n' => some '\n'
  | 'r' => some '\r'
  | 't' => some '\t'
  | _ => none

/-- The characters read so far, last first; a fault that only a skipping reader passes; and a
leading surrogate that waits for the trailing one. -/
structure StringState where
  read : List Char
  fault : Option Fault
  lead : Option Nat

namespace StringState

def start : StringState := ⟨[], none, none⟩

def mark (s : StringState) (fault : Fault) : StringState :=
  { s with fault := s.fault.or (some fault), lead := none }

def settle (s : StringState) : StringState :=
  match s.lead with
  | none => s
  | some _ => s.mark .unfinishedSurrogate

def push (s : StringState) (c : Char) : StringState := { s with read := c :: s.read }

def unit (s : StringState) (n : Nat) : StringState :=
  match s.lead with
  | some lead =>
    if isTrail n then { s with read := pairChar lead n :: s.read, lead := none }
    else s.mark .loneSurrogate
  | none =>
    if isTrail n then s.mark .loneSurrogate
    else if isLead n then { s with lead := some n }
    else s.push (Char.ofNat n)

def stop (s : StringState) (fault : Fault) : Break :=
  let wanted := s.fault.getD fault
  ⟨wanted, fault, wanted⟩

def text (s : StringState) : Except Fault String :=
  match s.fault with
  | none => .ok (String.ofList s.read.reverse)
  | some fault => .error fault

end StringState

/-- Four bytes at least have to follow the letter of an escaped unit. -/
def hexFault (cs : List Char) : Fault :=
  if (String.ofList cs).utf8ByteSize < 4 then .endInString else .badEscape

def scanString (s : StringState) :
    List Char → Except Break (Except Fault String × List Char)
  | [] => .error (s.stop .endInString)
  | '"' :: rest => .ok (s.settle.text, rest)
  | ['\\'] => .error (s.stop .endInString)
  | '\\' :: 'u' :: a :: b :: c :: d :: rest =>
    match hexUnit a b c d with
    | some n => scanString (s.unit n) rest
    | none => .error (s.stop .badEscape)
  | '\\' :: 'u' :: rest => .error (s.stop (hexFault rest))
  | '\\' :: c :: rest =>
    match shortEscape c with
    | some e => scanString (s.settle.push e) rest
    | none => .error (s.settle.stop .badEscape)
  | c :: rest =>
    if c.toNat < 0x20 then .error (s.settle.stop .controlInString)
    else scanString (s.settle.push c) rest

def digitValue (c : Char) : Nat := c.toNat - 48

def gather (significand : Nat) : List Char → Nat × Nat
  | [] => (significand, 0)
  | c :: cs =>
    let next := 10 * significand + digitValue c
    if next < Word.bound then
      let (s, n) := gather next cs
      (s, n + 1)
    else (significand, 0)

def ofDigits (cs : List Char) : Nat := cs.foldl (fun n c => 10 * n + digitValue c) 0

structure Numeral where
  negative : Bool
  whole : List Char
  fraction : Option (List Char)
  exponent : Option Int

namespace Numeral

def real (n : Numeral) (significand : Nat) (exponent : Int) : Except Fault Number :=
  match Double.ofDecimal significand exponent with
  | some x => .ok (.real (if n.negative then x.neg else x))
  | none => .error .numberOutOfRange

/-- Whole numbers without point and exponent that fit 64 bits are kept exactly. Of all others the
digits count that fit a significand of 64 bits. Negative zero is no whole number. -/
def value (n : Numeral) : Except Fault Number :=
  let (significand, used) := gather 0 n.whole
  let dropped := n.whole.length - used
  match n.fraction, n.exponent with
  | none, none =>
    if dropped ≠ 0 then n.real significand dropped
    else if !n.negative then .ok (.integer significand)
    else if significand = 0 ∨ Word.half < significand then n.real significand 0
    else .ok (.integer (-significand))
  | fraction, exponent =>
    let (significand, places) := gather significand (fraction.getD [])
    n.real significand (dropped - places + exponent.getD 0)

end Numeral

def digitBreak (rest : List Char) : Break :=
  ⟨if rest.isEmpty then .endInValue else .badNumber, .badNumber, .valueExpected⟩

def scanExponent (cs : List Char) : Except Break (Option Int × List Char) :=
  match cs with
  | c :: rest =>
    if c == 'e' || c == 'E' then
      let (negative, rest) :=
        match rest with
        | '+' :: rest => (false, rest)
        | '-' :: rest => (true, rest)
        | rest => (false, rest)
      let (digits, rest) := rest.span Char.isDigit
      if digits.isEmpty then .error (digitBreak rest)
      else
        let n : Int := ofDigits digits
        .ok (some (if negative then -n else n), rest)
    else .ok (none, cs)
  | [] => .ok (none, cs)

def scanFraction (cs : List Char) : Except Break (Option (List Char) × List Char) :=
  match cs with
  | '.' :: rest =>
    let (digits, rest) := rest.span Char.isDigit
    if digits.isEmpty then .error (digitBreak rest) else .ok (some digits, rest)
  | _ => .ok (none, cs)

def scanNumber (negative : Bool) (cs : List Char) :
    Except Break (Except Fault Number × List Char) := do
  let (whole, rest) := cs.span Char.isDigit
  match whole with
  | [] => throw (digitBreak rest)
  | '0' :: _ :: _ => throw ⟨.badNumber, .badNumber, .valueExpected⟩
  | _ =>
    let (fraction, rest) ← scanFraction rest
    let (exponent, rest) ← scanExponent rest
    return (Numeral.value ⟨negative, whole, fraction, exponent⟩, rest)

def scanWord (value : Doc) : List Char → List Char → Doc × Option (List Char)
  | [], rest => (value, some rest)
  | _ :: _, [] => (.broken ⟨.endInValue, .endInValue, .valueExpected⟩, none)
  | w :: word, c :: rest =>
    if c = w then scanWord value word rest
    else (.broken ⟨.wordExpected, .wordExpected, .valueExpected⟩, none)

mutual

def scanValue : Nat → List Char → Doc × Option (List Char)
  | 0, _ => (.broken (.same .endInValue), none)
  | fuel + 1, cs =>
    match skipBlanks cs with
    | [] => (.broken (.same .endInValue), none)
    | 'n' :: rest => scanWord .null ['u', 'l', 'l'] rest
    | 't' :: rest => scanWord (.bool true) ['r', 'u', 'e'] rest
    | 'f' :: rest => scanWord (.bool false) ['a', 'l', 's', 'e'] rest
    | '"' :: rest =>
      match scanString .start rest with
      | .ok (s, rest) => (.string s, some rest)
      | .error b => (.broken b, none)
    | '[' :: rest =>
      let (items, rest) := scanItems fuel true rest
      (.array items, rest)
    | '{' :: rest =>
      let (members, rest) := scanMembers fuel true rest
      (.object members, rest)
    | c :: rest =>
      if c == '-' || c.isDigit then
        match scanNumber (c == '-') (if c == '-' then rest else c :: rest) with
        | .ok (n, rest) => (.number n, some rest)
        | .error b => (.broken b, none)
      else (.broken (.same .valueExpected), none)

def scanItems : Nat → Bool → List Char → Items × Option (List Char)
  | 0, _, _ => (.broken (.same .endInList), none)
  | fuel + 1, first, cs =>
    match skipBlanks cs with
    | [] => (.broken (.same .endInList), none)
    | ']' :: rest => (.closed, some rest)
    | c :: rest =>
      if first then scanItem fuel (c :: rest)
      else if c = ',' then
        match skipBlanks rest with
        | [] => (.broken (.same .endInValue), none)
        | ']' :: _ => (.broken ⟨.trailingComma, .valueExpected, .trailingComma⟩, none)
        | next => scanItem fuel next
      else (.broken (.same .listSeparatorExpected), none)

def scanItem : Nat → List Char → Items × Option (List Char)
  | 0, _ => (.broken (.same .endInList), none)
  | fuel + 1, cs =>
    match scanValue fuel cs with
    | (item, none) => (.cons item .closed, none)
    | (item, some rest) =>
      let (items, rest) := scanItems fuel false rest
      (.cons item items, rest)

def scanMembers : Nat → Bool → List Char → Members × Option (List Char)
  | 0, _, _ => (.broken (.same .endInObject), none)
  | fuel + 1, first, cs =>
    match skipBlanks cs with
    | [] => (.broken (.same .endInObject), none)
    | '}' :: rest => (.closed, some rest)
    | '"' :: rest =>
      if first then scanMember fuel rest else (.broken (.same .fieldSeparatorExpected), none)
    | c :: rest =>
      if first then (.oddKey (scanValue fuel (c :: rest)).1, none)
      else if c = ',' then
        match skipBlanks rest with
        | [] => (.broken ⟨.endInValue, .endInObject, .endInValue⟩, none)
        | '}' :: _ => (.broken ⟨.trailingComma, .keyNotString, .trailingComma⟩, none)
        | '"' :: next => scanMember fuel next
        | _ => (.broken (.same .keyNotString), none)
      else (.broken (.same .fieldSeparatorExpected), none)

def scanMember : Nat → List Char → Members × Option (List Char)
  | 0, _ => (.broken (.same .endInObject), none)
  | fuel + 1, cs =>
    match scanString .start cs with
    | .error b => (.broken b, none)
    | .ok (key, rest) =>
      match skipBlanks rest with
      | [] => (.keyOnly key .endInObject, none)
      | ':' :: rest =>
        match scanValue fuel rest with
        | (value, none) => (.cons key value .closed, none)
        | (value, some rest) =>
          let (members, rest) := scanMembers fuel false rest
          (.cons key value members, rest)
      | _ => (.keyOnly key .colonExpected, none)

end

-- At most three calls lead from one character to the next.
def scanFuel (cs : List Char) : Nat := 3 * cs.length + 3

def Doc.scan (cs : List Char) : Doc × Option (List Char) := scanValue (scanFuel cs) cs

end Playback.Json
