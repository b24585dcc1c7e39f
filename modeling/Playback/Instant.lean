import Playback.Text.Blank

namespace Playback

/-- Whole seconds since the start of 1970, and nanoseconds. In a leap second the nanoseconds go on
from one thousand million. -/
structure Instant where
  seconds : Int
  nanos : Nat
  deriving DecidableEq, Repr

namespace Instant

def secondsPerDay : Int := 86400
def nanosPerSecond : Nat := 1000000000

instance : Inhabited Instant := ⟨⟨0, 0⟩⟩

def plusMillis (t : Instant) (ms : Nat) : Instant :=
  let nanos := t.nanos + ms % 1000 * 1000000
  ⟨t.seconds + ms / 1000 + nanos / nanosPerSecond, nanos % nanosPerSecond⟩

structure Date where
  year : Int
  month : Nat
  day : Nat
  deriving DecidableEq, Repr

def isLeap (year : Int) : Bool := year % 4 = 0 && (year % 100 ≠ 0 || year % 400 = 0)

def monthLength (year : Int) : Nat → Nat
  | 2 => if isLeap year then 29 else 28
  | 4 | 6 | 9 | 11 => 30
  | _ => 31

/-- Days from the start of 1970 to a date. Years are counted from March, so that a leap day is the
last of its year. -/
def Date.days (d : Date) : Int :=
  let year := if d.month ≤ 2 then d.year - 1 else d.year
  let era := year / 400
  let yearOfEra := year % 400
  let month : Int := (d.month + 9) % 12
  let dayOfYear := (153 * month + 2) / 5 + d.day - 1
  let dayOfEra := yearOfEra * 365 + yearOfEra / 4 - yearOfEra / 100 + dayOfYear
  era * 146097 + dayOfEra - 719468

def Date.ofDays (days : Int) : Date :=
  let shifted := days + 719468
  let era := shifted / 146097
  let dayOfEra := shifted % 146097
  let yearOfEra := (dayOfEra - dayOfEra / 1460 + dayOfEra / 36524 - dayOfEra / 146096) / 365
  let dayOfYear := dayOfEra - (365 * yearOfEra + yearOfEra / 4 - yearOfEra / 100)
  let month := (5 * dayOfYear + 2) / 153
  let day := dayOfYear - (153 * month + 2) / 5 + 1
  let month := if month < 10 then month + 3 else month - 9
  let year := yearOfEra + era * 400
  ⟨if month ≤ 2 then year + 1 else year, month.toNat, day.toNat⟩

def leastYear : Int := -262143
def greatestYear : Int := 262142

def Date.isValid (d : Date) : Bool :=
  leastYear ≤ d.year && d.year ≤ greatestYear && 1 ≤ d.day && d.day ≤ monthLength d.year d.month

def padded (width n : Nat) : List Char :=
  let digits := Nat.toDigits 10 n
  List.replicate (width - digits.length) '0' ++ digits

def yearText (year : Int) : List Char :=
  if 0 ≤ year ∧ year ≤ 9999 then padded 4 year.natAbs
  else (if year < 0 then '-' else '+') :: padded 4 year.natAbs

def fractionText (nanos : Nat) : List Char :=
  if nanos = 0 then []
  else if nanos % 1000000 = 0 then '.' :: padded 3 (nanos / 1000000)
  else if nanos % 1000 = 0 then '.' :: padded 6 (nanos / 1000)
  else '.' :: padded 9 nanos

def text (t : Instant) : String :=
  let date := Date.ofDays (t.seconds / secondsPerDay)
  let time := (t.seconds % secondsPerDay).toNat
  let leap := t.nanos / nanosPerSecond
  String.ofList (yearText date.year ++ '-' :: padded 2 date.month ++ '-' :: padded 2 date.day ++
    'T' :: padded 2 (time / 3600) ++ ':' :: padded 2 (time / 60 % 60) ++
    ':' :: padded 2 (time % 60 + leap) ++ fractionText (t.nanos % nanosPerSecond) ++ ['Z'])

inductive Fault where
  | outOfRange
  | impossible
  | badCharacter
  | tooShort
  | tooLong
  deriving DecidableEq, Repr

def Fault.message : Fault → String
  | outOfRange => "input is out of range"
  | impossible => "no possible date and time matching input"
  | badCharacter => "input contains invalid characters"
  | tooShort => "premature end of input"
  | tooLong => "trailing input"

abbrev Reader (α : Type) := List Char → Except Fault (α × List Char)

def digitValue (c : Char) : Nat := c.toNat - 48

def digits (width : Nat) : Reader Nat := fun cs =>
  match cs with
  | [] => .error .tooShort
  | _ =>
    let taken := (cs.take width).takeWhile Char.isDigit
    if taken.isEmpty then .error .badCharacter
    else .ok (taken.foldl (fun n c => 10 * n + digitValue c) 0, cs.drop taken.length)

def numeral (least greatest : Nat) : Reader Nat := fun cs => do
  let (n, rest) ← digits 2 (Text.trimStart cs)
  if least ≤ n ∧ n ≤ greatest then return (n, rest) else throw .outOfRange

def yearBound : Int := 2147483648

def year : Reader Int := fun cs => do
  let cs := Text.trimStart cs
  let (n, rest) ←
    match cs with
    | '-' :: rest => do
      let (n, rest) ← digits rest.length rest
      pure (-(n : Int), rest)
    | '+' :: rest => do
      let (n, rest) ← digits rest.length rest
      pure ((n : Int), rest)
    | cs => do
      let (n, rest) ← digits 4 cs
      pure ((n : Int), rest)
  if -yearBound ≤ n ∧ n < yearBound then return (n, rest) else throw .outOfRange

def separator (c : Char) : Reader Unit := fun cs =>
  match Text.trimStart cs with
  | [] => .error .tooShort
  | d :: rest => if d = c then .ok ((), rest) else .error .badCharacter

def fraction : Reader Nat := fun cs =>
  match cs with
  | '.' :: rest => do
    let (n, after) ← digits 9 rest
    let places := rest.length - after.length
    return (n * Nat.pow 10 (9 - places), after.dropWhile Char.isDigit)
  | cs => .ok (0, cs)

def pair : Reader (Nat × Nat) := fun cs =>
  match cs with
  | [] => .error .tooShort
  | [c] => .error (if c.utf8Size = 1 then .tooShort else .badCharacter)
  | a :: b :: rest =>
    if a.isDigit && b.isDigit then .ok ((digitValue a, digitValue b), rest)
    else .error .badCharacter

/-- The seconds of an offset; between its hours and minutes colons and blanks may stand. -/
def offset : Reader Int := fun cs =>
  match cs with
  | [] => .error .tooShort
  | sign :: rest =>
    if sign = 'Z' ∨ sign = 'z' then .ok (0, rest)
    else if sign = '+' ∨ sign = '-' ∨ sign = '−' then do
      let ((a, b), rest) ← pair rest
      let ((c, d), rest) ← pair (rest.dropWhile fun c => c = ':' || Text.isBlank c)
      if 6 ≤ c then throw .outOfRange
      let seconds : Int := (10 * a + b) * 3600 + (10 * c + d) * 60
      return (if sign = '+' then seconds else -seconds, rest)
    else .error .badCharacter

def zone : Reader Int := fun cs =>
  match cs with
  | u :: t :: c :: rest =>
    if u.toUpper = 'U' ∧ t.toUpper = 'T' ∧ c.toUpper = 'C' then .ok (0, rest) else offset cs
  | cs => offset cs

def read (text : String) : Except Fault Instant := do
  let (year, cs) ← year text.toList
  let (_, cs) ← separator '-' cs
  let (month, cs) ← numeral 1 12 cs
  let (_, cs) ← separator '-' cs
  let (day, cs) ← numeral 1 31 cs
  let cs ←
    match cs with
    | [] => throw .tooShort
    | c :: rest => if c = 'T' ∨ c = 't' ∨ c = ' ' then pure rest else throw .badCharacter
  let (hour, cs) ← numeral 0 23 cs
  let (_, cs) ← separator ':' cs
  let (minute, cs) ← numeral 0 59 cs
  let (_, cs) ← separator ':' cs
  let (second, cs) ← numeral 0 60 cs
  let (nanos, cs) ← fraction cs
  let (offset, cs) ← zone (Text.trimStart cs)
  if !(Text.trimStart cs).isEmpty then throw .tooLong
  let date : Date := ⟨year, month, day⟩
  if !date.isValid then throw .outOfRange
  if secondsPerDay ≤ offset.natAbs then throw .outOfRange
  let leap := second / 60
  let time : Int := hour * 3600 + minute * 60 + (second - leap : Nat)
  let seconds := date.days * secondsPerDay + time - offset
  let first := (Date.mk leastYear 1 1).days * secondsPerDay
  let last := (Date.mk greatestYear 12 31).days * secondsPerDay + secondsPerDay
  if seconds < first ∨ last ≤ seconds then throw .impossible
  return ⟨seconds, nanos + leap * nanosPerSecond⟩

end Instant

end Playback
