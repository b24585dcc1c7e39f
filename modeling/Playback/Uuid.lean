namespace Playback.Uuid

def hexDigits : Nat → Nat → List Char
  | 0, _ => []
  | width + 1, n => hexDigits width (n / 16) ++ [Nat.digitChar (n % 16)]

def hexPadded (width n : Nat) : List Char :=
  let digits := Nat.toDigits 16 n
  List.replicate (width - digits.length) '0' ++ digits

/-- The identifier whose free bits are those of a number. Of a number with more than 122 bits the
first group grows, so that no two numbers share an identifier. -/
def ofNat (n : Nat) : String :=
  let last := n % Nat.pow 2 48
  let fourth := n / Nat.pow 2 48 % Nat.pow 2 14 + 0x8000
  let third := n / Nat.pow 2 62 % Nat.pow 2 12 + 0x4000
  let second := n / Nat.pow 2 74 % Nat.pow 2 16
  let first := n / Nat.pow 2 90
  String.ofList (hexPadded 8 first ++ '-' :: hexDigits 4 second ++ '-' :: hexDigits 4 third ++
    '-' :: hexDigits 4 fourth ++ '-' :: hexDigits 12 last)

end Playback.Uuid
