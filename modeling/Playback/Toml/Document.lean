import Playback.Toml.Scalar

namespace Playback.Toml

def isBare (c : Char) : Bool := c.isAlphanum || c = '-' || c = '_'

def simpleKey (cs : List Char) : Option (String × List Char) :=
  match cs with
  | '"' :: rest => (basicText rest).map fun (s, rest) => (String.ofList s, rest)
  | '\'' :: rest => (literalText rest).map fun (s, rest) => (String.ofList s, rest)
  | cs =>
    let bare := cs.takeWhile isBare
    if bare.isEmpty then none else some (String.ofList bare, cs.dropWhile isBare)

def keys : Nat → Scanner (List String)
  | 0, _ => none
  | fuel + 1, cs => do
    let (key, rest) ← simpleKey (skipBlanks cs)
    match skipBlanks rest with
    | '.' :: rest => do
      let (path, rest) ← keys fuel rest
      return (key :: path, rest)
    | rest => return ([key], rest)

def depthLimit : Nat := 80

def keyPath (cs : List Char) : Option ((List String × String) × List Char) := do
  let (path, rest) ← keys (cs.length + 1) cs
  if depthLimit ≤ path.length then none
  else do return ((path.dropLast, ← path.getLast?), rest)

mutual

def value (depth : Nat) : Nat → List Char → Option (Item × List Char)
  | 0, _ => none
  | fuel + 1, cs =>
    match cs with
    | '[' :: rest =>
      if depthLimit ≤ depth + 1 then none
      else (items (depth + 1) fuel rest).map fun (l, rest) => (.array l, rest)
    | '{' :: rest =>
      if depthLimit ≤ depth + 1 then none
      else
        match skipBlanks rest with
        | '}' :: rest => some (.inline [], rest)
        | rest => (members (depth + 1) fuel [] rest).map fun (l, rest) => (.inline l, rest)
    | cs => scalar cs

def items (depth : Nat) : Nat → List Char → Option (List Item × List Char)
  | 0, _ => none
  | fuel + 1, cs => do
    match ← skipGap false cs with
    | ']' :: rest => return ([], rest)
    | cs => do
      let (item, cs) ← value depth fuel cs
      match ← skipGap false cs with
      | ']' :: rest => return ([item], rest)
      | ',' :: rest => do
        let (l, rest) ← items depth fuel rest
        return (item :: l, rest)
      | _ => none

def members (depth : Nat) : Nat → Fields → List Char → Option (Fields × List Char)
  | 0, _, _ => none
  | fuel + 1, fields, cs => do
    let ((path, key), cs) ← keyPath cs
    let cs ← mark '=' cs
    let (item, cs) ← value depth fuel (skipBlanks cs)
    let fields ← fields.assign path key item .header
    match skipBlanks cs with
    | '}' :: rest => return (fields, rest)
    | ',' :: rest => members depth fuel fields rest
    | _ => none

end

def assignment (cs : List Char) : Option (Line × List Char) := do
  let ((path, key), cs) ← keyPath cs
  let cs ← mark '=' cs
  let (item, cs) ← value 0 (2 * cs.length + 2) (skipBlanks cs)
  return (.assign path key item, ← endLine cs)

def header (cs : List Char) : Option (Line × List Char) := do
  let ((path, key), cs) ← keyPath cs
  let cs ← mark ']' cs
  return (.header path key, ← endLine cs)

def row (cs : List Char) : Option (Line × List Char) := do
  let ((path, key), cs) ← keyPath cs
  let cs ← mark ']' cs
  let cs ← mark ']' cs
  return (.row path key, ← endLine cs)

def lines : Nat → List Char → Option (List Line)
  | 0, _ => none
  | fuel + 1, cs => do
    match skipBlanks cs with
    | [] => return []
    | '#' :: _ => lines fuel (← endLine cs)
    | '\n' :: rest => lines fuel rest
    | '\r' :: rest => lines fuel (← lineBreak? ('\r' :: rest))
    | '[' :: '[' :: rest => do
      let (line, rest) ← row rest
      return line :: (← lines fuel rest)
    | '[' :: rest => do
      let (line, rest) ← header rest
      return line :: (← lines fuel rest)
    | cs => do
      let (line, rest) ← assignment cs
      return line :: (← lines fuel rest)

/-- Reads a document; a byte order mark may stand at its start. -/
def read (text : String) : Option Fields := do
  let cs :=
    match text.toList with
    | '\uFEFF' :: rest => rest
    | cs => cs
  assemble (← lines (cs.length + 1) cs)

end Playback.Toml
