/-!
Double-precision numbers as exact values: rounding to the nearest, arithmetic on decimal text, and
the shortest decimal text that reads back.
-/

namespace Playback

/-- The finite number `mantissa * 2 ^ exponent`, negated when `negative` is set. The mantissa has at
most 53 bits, and exactly 53 unless the exponent is the least one. -/
structure Double where
  negative : Bool
  mantissa : Nat
  exponent : Int
  deriving DecidableEq, Repr

namespace Double

def leastExponent : Int := -1074
def greatestExponent : Int := 971

def fullMantissa : Nat := 4503599627370496

def shift (n : Nat) (e : Int) : Nat := n * Nat.pow 2 e.toNat

def shiftDecimal (n : Nat) (e : Int) : Nat := n * Nat.pow 10 e.toNat

def roundDiv (num den : Nat) : Nat :=
  let quotient := num / den
  let twice := 2 * (num % den)
  if twice < den then quotient
  else if den < twice then quotient + 1
  else quotient + quotient % 2

def binaryExponent (num den : Nat) : Int :=
  let guess : Int := num.log2 - den.log2
  if shift den guess ≤ shift num (-guess) then guess else guess - 1

def magnitude (num den : Nat) : Option (Nat × Int) :=
  if num = 0 then some (0, leastExponent)
  else
    let exponent := max (binaryExponent num den - 52) leastExponent
    let mantissa := roundDiv (shift num (-exponent)) (shift den exponent)
    let (mantissa, exponent) :=
      if mantissa = 2 * fullMantissa then (fullMantissa, exponent + 1) else (mantissa, exponent)
    if greatestExponent < exponent then none else some (mantissa, exponent)

def isZero (x : Double) : Bool := x.mantissa == 0

def neg (x : Double) : Double := { x with negative := !x.negative }

def zero : Double := ⟨false, 0, leastExponent⟩

def ofRatio (num den : Nat) : Option Double :=
  (magnitude num den).map fun (m, e) => ⟨false, m, e⟩

def mul (x y : Double) : Option Double :=
  let e := x.exponent + y.exponent
  ofRatio (shift (x.mantissa * y.mantissa) e) (shift 1 (-e))

def div (x y : Double) : Option Double :=
  let e := x.exponent - y.exponent
  ofRatio (shift x.mantissa e) (shift y.mantissa (-e))

def greatestPower : Nat := 308

def powerOfTen (n : Nat) : Option Double := ofRatio (Nat.pow 10 n) 1

def scaleDown : Nat → Double → Int → Option Double
  | 0, x, _ => some x
  | fuel + 1, x, exponent =>
    if x.isZero then some x
    else if exponent < -(greatestPower : Int) then do
      scaleDown fuel (← div x (← powerOfTen greatestPower)) (exponent + greatestPower)
    else do div x (← powerOfTen (-exponent).toNat)

/-- The value of `significand * 10 ^ exponent` as a reader computes it that rounds the significand
first and the product or quotient with the power of ten after it. None beyond the range. -/
def ofDecimal (significand : Nat) (exponent : Int) : Option Double := do
  let x ← ofRatio significand 1
  -- After two divisions by the greatest power nothing but zero is left.
  if exponent < 0 then scaleDown 4 x exponent
  else if exponent ≤ greatestPower then mul x (← powerOfTen exponent.toNat)
  else if x.isZero then some x
  else none

def decimalExponent (num den : Nat) : Int :=
  let guess : Int := (Nat.toDigits 10 num).length - (Nat.toDigits 10 den).length
  if shiftDecimal den guess ≤ shiftDecimal num (-guess) then guess else guess - 1

/-- The interval of numbers that round to a double, in units of `2 ^ (exponent - 2)`: its lower end,
the double itself, its upper end, and whether the ends belong to it. -/
structure Interval where
  lower : Nat
  middle : Nat
  upper : Nat
  closed : Bool

def interval (x : Double) : Interval :=
  -- Below a power of two doubles lie half as far apart as above it.
  let gap := if x.mantissa = fullMantissa ∧ leastExponent < x.exponent then 1 else 2
  ⟨4 * x.mantissa - gap, 4 * x.mantissa, 4 * x.mantissa + 2, x.mantissa % 2 == 0⟩

def Interval.contains (i : Interval) (num den : Nat) : Bool :=
  if i.closed then i.lower * den ≤ num ∧ num ≤ i.upper * den
  else i.lower * den < num ∧ num < i.upper * den

structure Digits where
  digits : Nat
  exponent : Int
  deriving DecidableEq, Repr

/-- The neighbours of a double on the grid of multiples of `10 ^ place` that read back as the
double; of two the nearer, and of two equally near the even one. -/
def onGrid (x : Double) (place : Int) : Option Digits :=
  let i := x.interval
  let unit := x.exponent - 2
  let num := shiftDecimal (shift 1 unit) (-place)
  let den := shiftDecimal (shift 1 (-unit)) place
  let below := i.middle * num / den
  let reads := fun d => i.contains (d * den) num
  let choice : Option Nat :=
    match reads below, reads (below + 1) with
    | true, true =>
      let twice := 2 * (i.middle * num % den)
      if twice < den then some below
      else if den < twice then some (below + 1)
      else some (below + below % 2)
    | true, false => some below
    | false, true => some (below + 1)
    | false, false => none
  choice.map (⟨·, place⟩)

def Digits.trim : Nat → Digits → Digits
  | 0, d => d
  | fuel + 1, d =>
    if d.digits % 10 = 0 ∧ d.digits ≠ 0 then trim fuel ⟨d.digits / 10, d.exponent + 1⟩ else d

def shortest (x : Double) : Digits :=
  if x.isZero then ⟨0, 0⟩
  else
    let unit := x.exponent - 2
    let top := decimalExponent (shift (4 * x.mantissa) unit) (shift 1 (-unit))
    -- Seventeen digits tell any two doubles apart.
    let grids := (List.range 17).map fun (n : Nat) => top - n
    ((grids.findSome? x.onGrid).getD ⟨0, 0⟩).trim 17

def zeros (n : Int) : List Char := List.replicate n.toNat '0'

def exponentText (e : Int) : List Char :=
  'e' :: (if e < 0 then '-' else '+') :: Nat.toDigits 10 e.natAbs

/-- Whole numbers below `10 ^ 16` have `.0`, numbers from `10 ^ -5` on are written with a point, and
all others with an exponent. -/
def Digits.text (d : Digits) : List Char :=
  let digits := Nat.toDigits 10 d.digits
  let point : Int := digits.length + d.exponent
  if 0 ≤ d.exponent ∧ point ≤ 16 then digits ++ zeros d.exponent ++ ['.', '0']
  else if 0 < point ∧ point ≤ 16 then digits.take point.toNat ++ '.' :: digits.drop point.toNat
  else if -5 < point ∧ point ≤ 0 then '0' :: '.' :: zeros (-point) ++ digits
  else
    match digits with
    | first :: second :: rest => first :: '.' :: second :: rest ++ exponentText (point - 1)
    | _ => digits ++ exponentText (point - 1)

def text (x : Double) : List Char :=
  (if x.negative then ['-'] else []) ++ x.shortest.text

end Double

end Playback
