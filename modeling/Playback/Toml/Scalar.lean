import Playback.Decimal.Double
import Playback.Toml.Table
import Playback.Word

namespace Playback.Toml

abbrev Scanner (α : Type) := List Char → Option (α × List Char)

def isBlank (c : Char) : Bool := c = ' ' || c = '\t'

def isPlain (c : Char) : Bool := c = '\t' || (0x20 ≤ c.toNat && c.toNat ≠ 0x7f)

def skipBlanks (cs : List Char) : List Char := cs.dropWhile isBlank

def lineBreak? : List Char → Option (List Char)
  | '\n' :: rest => some rest
  | '\r' :: '\n' :: rest => some rest
  | _ => none

def endLine (cs : List Char) : Option (List Char) :=
  let cs :=
    match skipBlanks cs with
    | '#' :: rest => rest.dropWhile isPlain
    | cs => cs
  if cs.isEmpty then some [] else lineBreak? cs

def skipGap (inComment : Bool) : List Char → Option (List Char)
  | [] => if inComment then none else some []
  | '\n' :: rest => skipGap false rest
  | '\r' :: '\n' :: rest => skipGap false rest
  | c :: rest =>
    if inComment then if isPlain c then skipGap true rest else none
    else if isBlank c then skipGap false rest
    else if c = '#' then skipGap true rest
    else if c = '\r' then none
    else some (c :: rest)

def hexValue? (c : Char) : Option Nat :=
  if '0' ≤ c ∧ c ≤ '9' then some (c.toNat - 48)
  else if 'a' ≤ c ∧ c ≤ 'f' then some (c.toNat - 87)
  else if 'A' ≤ c ∧ c ≤ 'F' then some (c.toNat - 55)
  else none

def charOfHex (digits : List Char) : Option Char := do
  let values ← digits.mapM hexValue?
  let code := values.foldl (fun n d => 16 * n + d) 0
  if code.isValidChar then some (Char.ofNat code) else none

def escape? : Char → Option Char
  | 'b' => some '\x08'
  | 't' => some '\t'
  | 'n' => some '\n'
  | 'f' => some '\x0c'
  | 'r' => some '\r'
  | '"' => some '"'
  | '\\' => some '\\'
  | _ => none

def more (c : Char) (r : List Char × List Char) : List Char × List Char := (c :: r.1, r.2)

def basicText : Scanner (List Char)
  | [] => none
  | '"' :: rest => some ([], rest)
  | '\\' :: 'u' :: a :: b :: c :: d :: rest => do
    return more (← charOfHex [a, b, c, d]) (← basicText rest)
  | '\\' :: 'U' :: a :: b :: c :: d :: e :: f :: g :: h :: rest => do
    return more (← charOfHex [a, b, c, d, e, f, g, h]) (← basicText rest)
  | '\\' :: c :: rest => do return more (← escape? c) (← basicText rest)
  | c :: rest => if isPlain c && c ≠ '\\' then (basicText rest).map (more c) else none

def endsLine (cs : List Char) : Bool := (lineBreak? (skipBlanks cs)).isSome

/-- A text of several lines behind its opening quotes. One or two quotes are part of it, also right
before the closing ones. A backslash at the end of a line hides the blanks and line breaks that
follow; `skipping` says that they are being passed over. -/
def basicLines (skipping : Bool) : Scanner (List Char)
  | [] => none
  | '"' :: '"' :: '"' :: '"' :: '"' :: rest => some (['"', '"'], rest)
  | '"' :: '"' :: '"' :: '"' :: rest => some (['"'], rest)
  | '"' :: '"' :: '"' :: rest => some ([], rest)
  | '\\' :: 'u' :: a :: b :: c :: d :: rest => do
    return more (← charOfHex [a, b, c, d]) (← basicLines false rest)
  | '\\' :: 'U' :: a :: b :: c :: d :: e :: f :: g :: h :: rest => do
    return more (← charOfHex [a, b, c, d, e, f, g, h]) (← basicLines false rest)
  | '\r' :: '\n' :: rest =>
    if skipping then basicLines true rest else (basicLines false rest).map (more '\n')
  | '\\' :: c :: rest =>
    match escape? c with
    | some e => (basicLines false rest).map (more e)
    | none => if endsLine (c :: rest) then basicLines true (c :: rest) else none
  | c :: rest =>
    if skipping && (isBlank c || c = '\n') then basicLines true rest
    else if (isPlain c && c ≠ '\\') || c = '\n' then (basicLines false rest).map (more c)
    else none

def literalText : Scanner (List Char)
  | [] => none
  | '\'' :: rest => some ([], rest)
  | c :: rest => if isPlain c then (literalText rest).map (more c) else none

def literalLines : Scanner (List Char)
  | [] => none
  | '\'' :: '\'' :: '\'' :: '\'' :: '\'' :: rest => some (['\'', '\''], rest)
  | '\'' :: '\'' :: '\'' :: '\'' :: rest => some (['\''], rest)
  | '\'' :: '\'' :: '\'' :: rest => some ([], rest)
  | '\r' :: '\n' :: rest => (literalLines rest).map (more '\n')
  | c :: rest => if isPlain c || c = '\n' then (literalLines rest).map (more c) else none

def skipBreak (cs : List Char) : List Char := (lineBreak? cs).getD cs

def text? : Scanner (List Char)
  | '"' :: '"' :: '"' :: rest => basicLines false (skipBreak rest)
  | '"' :: rest => basicText rest
  | '\'' :: '\'' :: '\'' :: rest => literalLines (skipBreak rest)
  | '\'' :: rest => literalText rest
  | _ => none

def moreDigits (isDigit : Char → Bool) : Scanner (List Char)
  | [] => some ([], [])
  | '_' :: [] => none
  | '_' :: c :: rest => if isDigit c then (moreDigits isDigit rest).map (more c) else none
  | c :: rest => if isDigit c then (moreDigits isDigit rest).map (more c) else some ([], c :: rest)

def digits (isDigit : Char → Bool) : Scanner (List Char)
  | [] => none
  | c :: rest => if isDigit c then (moreDigits isDigit rest).map (more c) else none

def numeral (base : Nat) (digits : List Char) : Nat :=
  digits.foldl (fun n c => base * n + (hexValue? c).getD 0) 0

def integerItem (n : Int) : Option Item :=
  if -Word.half ≤ n ∧ n < Word.half then some (.integer n) else none

def basedInteger (base : Nat) (isDigit : Char → Bool) (cs : List Char) :
    Option (Item × List Char) := do
  let (ds, rest) ← digits isDigit cs
  return (← integerItem (numeral base ds), rest)

def sign : List Char → Bool × List Char
  | '-' :: rest => (true, rest)
  | '+' :: rest => (false, rest)
  | cs => (false, cs)

def wholeDigits : Scanner (List Char)
  | '0' :: rest => some (['0'], rest)
  | cs => digits Char.isDigit cs

def fractionDigits : Scanner (Option (List Char))
  | '.' :: rest => (digits Char.isDigit rest).map fun (ds, rest) => (some ds, rest)
  | cs => some (none, cs)

def exponent : Scanner (Option Int)
  | c :: rest =>
    if c = 'e' ∨ c = 'E' then do
      let (negative, rest) := sign rest
      let (ds, rest) ← digits Char.isDigit rest
      let n : Int := numeral 10 ds
      return (some (if negative then -n else n), rest)
    else some (none, c :: rest)
  | [] => some (none, [])

def isFinite (digits : List Char) (e : Int) : Bool :=
  let n := numeral 10 digits
  let magnitude := e + (Nat.toDigits 10 n).length
  if n = 0 ∨ magnitude < 300 then true
  else if 320 < magnitude then false
  else (Double.ofRatio (Double.shiftDecimal n e) (Double.shiftDecimal 1 (-e))).isSome

def passed (cs rest : List Char) : String := String.ofList (cs.take (cs.length - rest.length))

/-- A decimal number. A positive one is refused if it is too great for a double. -/
def decimal (cs : List Char) : Option (Item × List Char) := do
  let (negative, unsigned) := sign cs
  let (whole, rest) ← wholeDigits unsigned
  let (fraction, rest) ← fractionDigits rest
  let (power, rest) ← exponent rest
  match fraction, power with
  | none, none =>
    let n : Int := numeral 10 whole
    return (← integerItem (if negative then -n else n), rest)
  | _, _ =>
    let places := fraction.getD []
    if negative || isFinite (whole ++ places) (power.getD 0 - places.length) then
      return (.real (passed cs rest), rest)
    else none

def infinite? : List Char → Option (List Char)
  | 'i' :: 'n' :: 'f' :: rest => some rest
  | 'n' :: 'a' :: 'n' :: rest => some rest
  | _ => none

def isOctal (c : Char) : Bool := '0' ≤ c && c ≤ '7'

def isBinary (c : Char) : Bool := c = '0' || c = '1'

def number (cs : List Char) : Option (Item × List Char) :=
  match cs with
  | '0' :: 'x' :: rest => basedInteger 16 (fun c => (hexValue? c).isSome) rest
  | '0' :: 'o' :: rest => basedInteger 8 isOctal rest
  | '0' :: 'b' :: rest => basedInteger 2 isBinary rest
  | cs =>
    match infinite? (sign cs).2 with
    | some rest => some (.real (passed cs rest), rest)
    | none => decimal cs

def pair (least greatest : Nat) : Scanner Nat
  | a :: b :: rest =>
    let n := numeral 10 [a, b]
    if a.isDigit && b.isDigit && least ≤ n && n ≤ greatest then some (n, rest) else none
  | _ => none

def mark (c : Char) : List Char → Option (List Char)
  | d :: rest => if d = c then some rest else none
  | [] => none

def monthLength (year : Nat) : Nat → Nat
  | 2 => if year % 4 = 0 ∧ (year % 100 ≠ 0 ∨ year % 400 = 0) then 29 else 28
  | 4 | 6 | 9 | 11 => 30
  | _ => 31

def day (cs : List Char) : Option (List Char) := do
  let (century, cs) ← pair 0 99 cs
  let (year, cs) ← pair 0 99 cs
  let cs ← mark '-' cs
  let (month, cs) ← pair 1 12 cs
  let cs ← mark '-' cs
  let (_, cs) ← pair 1 (monthLength (100 * century + year) month) cs
  return cs

def timeOfDay (cs : List Char) : Option (List Char) := do
  let (_, cs) ← pair 0 23 cs
  let cs ← mark ':' cs
  let (_, cs) ← pair 0 59 cs
  let cs ← mark ':' cs
  let (_, cs) ← pair 0 60 cs
  match cs with
  | '.' :: c :: rest => if c.isDigit then some (rest.dropWhile Char.isDigit) else none
  | '.' :: [] => none
  | cs => some cs

def offset : List Char → Option (List Char)
  | [] => some []
  | c :: rest =>
    if c = 'Z' ∨ c = 'z' then some rest
    else if c = '+' ∨ c = '-' then do
      let (_, rest) ← pair 0 23 rest
      let rest ← mark ':' rest
      let (_, rest) ← pair 0 59 rest
      return rest
    else some (c :: rest)

def startsTime (cs : List Char) : Bool :=
  match pair 0 23 cs with
  | some (_, ':' :: _) => true
  | _ => false

def startsDay (cs : List Char) : Bool :=
  (cs.take 4).length = 4 && (cs.take 4).all Char.isDigit && (cs.drop 4).head? = some '-'

def date (cs : List Char) : Option (Item × List Char) := do
  let rest ←
    if startsDay cs then do
      let rest ← day cs
      match rest with
      | c :: time =>
        if (c = 'T' ∨ c = 't' ∨ c = ' ') ∧ startsTime time then timeOfDay time >>= offset
        else some rest
      | [] => some []
    else timeOfDay cs
  return (.date (passed cs rest), rest)

def scalar (cs : List Char) : Option (Item × List Char) :=
  match cs with
  | [] => none
  | 't' :: 'r' :: 'u' :: 'e' :: rest => some (.boolean true, rest)
  | 'f' :: 'a' :: 'l' :: 's' :: 'e' :: rest => some (.boolean false, rest)
  | c :: _ =>
    if c = '"' ∨ c = '\'' then (text? cs).map fun (s, rest) => (.text (String.ofList s), rest)
    else if startsDay cs || startsTime cs then date cs
    else number cs

end Playback.Toml
