import Playback.Json.Value

namespace Playback.Json

def escapeChar (c : Char) : List Char :=
  if c = '"' then ['\\', '"']
  else if c = '\\' then ['\\', '\\']
  else if c = '\x08' then ['\\', 'b']
  else if c = '\t' then ['\\', 't']
  else if c = '\n' then ['\\', 'n']
  else if c = '\x0c' then ['\\', 'f']
  else if c = '\r' then ['\\', 'r']
  else if c.toNat < 0x20 then
    ['\\', 'u', '0', '0', Nat.digitChar (c.toNat / 16), Nat.digitChar (c.toNat % 16)]
  else [c]

def writeString (s : String) : List Char :=
  '"' :: s.toList.flatMap escapeChar ++ ['"']

def writeInt (n : Int) : List Char :=
  if n < 0 then '-' :: Nat.toDigits 10 n.natAbs else Nat.toDigits 10 n.natAbs

namespace Number

def write : Number → List Char
  | .integer n => writeInt n
  | .real x => x.text

end Number

namespace Value

mutual

def write : Value → List Char
  | .null => ['n', 'u', 'l', 'l']
  | .bool true => ['t', 'r', 'u', 'e']
  | .bool false => ['f', 'a', 'l', 's', 'e']
  | .number n => n.write
  | .string s => writeString s
  | .array [] => ['[', ']']
  | .array (x :: xs) => '[' :: (write x ++ writeItems xs)
  | .object [] => ['{', '}']
  | .object ((k, v) :: rest) => '{' :: (writeString k ++ ':' :: (write v ++ writeFields rest))

def writeItems : List Value → List Char
  | [] => [']']
  | x :: xs => ',' :: (write x ++ writeItems xs)

def writeFields : List (String × Value) → List Char
  | [] => ['}']
  | (k, v) :: rest => ',' :: (writeString k ++ ':' :: (write v ++ writeFields rest))

end

def newline (depth : Nat) : List Char := '\n' :: List.replicate (2 * depth) ' '

mutual

def writeIndented (depth : Nat) : Value → List Char
  | .null => ['n', 'u', 'l', 'l']
  | .bool true => ['t', 'r', 'u', 'e']
  | .bool false => ['f', 'a', 'l', 's', 'e']
  | .number n => n.write
  | .string s => writeString s
  | .array [] => ['[', ']']
  | .array (x :: xs) =>
    '[' :: (newline (depth + 1) ++ writeIndented (depth + 1) x ++ writeItemsIndented depth xs)
  | .object [] => ['{', '}']
  | .object ((k, v) :: rest) =>
    '{' :: (newline (depth + 1) ++ writeString k ++ ':' :: ' ' ::
      (writeIndented (depth + 1) v ++ writeFieldsIndented depth rest))

def writeItemsIndented (depth : Nat) : List Value → List Char
  | [] => newline depth ++ [']']
  | x :: xs =>
    ',' :: (newline (depth + 1) ++ writeIndented (depth + 1) x ++ writeItemsIndented depth xs)

def writeFieldsIndented (depth : Nat) : List (String × Value) → List Char
  | [] => newline depth ++ ['}']
  | (k, v) :: rest =>
    ',' :: (newline (depth + 1) ++ writeString k ++ ':' :: ' ' ::
      (writeIndented (depth + 1) v ++ writeFieldsIndented depth rest))

end

def compact (v : Value) : String := String.ofList v.write

def pretty (v : Value) : String := String.ofList (v.writeIndented 0)

end Value

end Playback.Json
