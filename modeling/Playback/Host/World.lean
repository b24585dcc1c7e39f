import Playback.Host.Basic

namespace Playback

structure World where
  files : List (List String × ByteArray)
  directories : List (List String)
  place : List String
  home : Option String
  input : String
  printed : List Output
  complaints : List String
  clock : Instant
  seed : Nat

namespace World

def isFile (w : World) (p : List String) : Bool := w.files.any (·.1 = p)

def isDirectory (w : World) (p : List String) : Bool :=
  p.isPrefixOf w.place || w.directories.any p.isPrefixOf ||
    w.files.any fun (name, _) => p.isPrefixOf name && p ≠ name

def isPresent (w : World) (p : List String) : Bool := w.isFile p || w.isDirectory p

def longestName : Nat := 255

def longestPath : Nat := 4095

def steps (path : String) : List String := (path.toList.splitOn '/').map String.ofList

def namesOf (path : String) : Except Trouble (List String) :=
  if '\x00' ∈ path.toList then .error .zeroInName
  else if path = "" then .error .missing
  else if longestPath < path.utf8ByteSize then .error .nameTooLong
  else .ok (steps path)

def start (w : World) (path : String) : List String := if path.startsWith "/" then [] else w.place

/-- Goes from a directory to a name in it, under which nothing need be. -/
def step (w : World) (here : List String) (name : String) : Except Trouble (List String) :=
  if w.isFile here then .error .notDirectory
  else if !w.isDirectory here then .error .missing
  else if name = "" ∨ name = "." then .ok here
  else if name = ".." then .ok here.dropLast
  else if longestName < name.utf8ByteSize then .error .nameTooLong
  else .ok (here ++ [name])

/-- Walks along names; under the last nothing need be, all before must be directories. -/
def walk (w : World) (here names : List String) : Except Trouble (List String) :=
  names.foldlM w.step here

def find (w : World) (path : String) : Except Trouble (List String) := do
  let p ← w.walk (w.start path) (← namesOf path)
  if w.isPresent p then return p else throw .missing

/-- Where a file is or can be made. A path that ends with a slash is no file's. -/
def findFile (w : World) (path : String) : Except Trouble (List String) := do
  let names ← namesOf path
  if path.endsWith "/" then
    let above := (names.reverse.dropWhile (· = "")).drop 1
    -- What is wrong on the way is told first.
    let _ ← w.walk (w.start path) (above.reverse ++ [""])
    throw .isDirectory
  else
    let p ← w.walk (w.start path) names
    if w.isDirectory p then throw .isDirectory else return p

def content (w : World) (path : String) : Except Trouble String := do
  let p ← w.find path
  match w.files.lookup p with
  | none => throw .isDirectory
  | some bytes =>
    match String.fromUTF8? bytes with
    | none => throw .notText
    | some text => return text

def changeFile (w : World) (path : String) (f : ByteArray → ByteArray) : Except Trouble World := do
  let p ← w.findFile path
  if w.isFile p then
    return { w with files := w.files.map fun (name, bytes) =>
      (name, if name = p then f bytes else bytes) }
  else return { w with files := w.files ++ [(p, f .empty)] }

def makeDirectory (w : World) (here names : List String) : Except Trouble World := do
  let p ← w.walk here names
  if w.isPresent p then throw .alreadyThere
  else return { w with directories := p :: w.directories }

def ensureDirectory (w : World) (here names : List String) : Except Trouble Unit × World :=
  match w.makeDirectory here names with
  | .ok w => (.ok (), w)
  | .error why =>
    match w.walk here names with
    | .ok p => (if w.isDirectory p then .ok () else .error why, w)
    | .error _ => (.error why, w)

/-- Makes a directory, whose names stand last name first, and before it those on the way to it that
are missing. What was made stays when the rest fails. -/
def ensureAll (w : World) (here : List String) : List String → Except Trouble Unit × World
  | [] => (.ok (), w)
  | name :: above =>
    let names := (name :: above).reverse
    match w.makeDirectory here names with
    | .error .missing =>
      match w.ensureAll here above with
      | (.ok (), w) => w.ensureDirectory here names
      | (.error why, w) => (.error why, w)
    | _ => w.ensureDirectory here names

def makeDirectories (w : World) (path : String) : Except Trouble Unit × World :=
  match namesOf path with
  | .error why => (.error why, w)
  | .ok names =>
    w.ensureAll (w.start path) (names.filter fun name => name ≠ "" && name ≠ ".").reverse

def changed (r : World → Except Trouble World) : StateM World (Except Trouble Unit) := fun w =>
  match r w with
  | .ok w => (.ok (), w)
  | .error t => (.error t, w)

end World

instance : Host (StateM World) where
  home := return (← get).home
  content path := return (← get).content path
  isThere path := return (World.find (← get) path).isOk
  makeDirectories path := modifyGet fun w => w.makeDirectories path
  write path text := World.changed fun w => w.changeFile path fun _ => text.toUTF8
  extend path text := World.changed fun w => w.changeFile path (· ++ text.toUTF8)
  readInput := return .ok (← get).input
  print output := modify fun w => { w with printed := w.printed ++ [output] }
  complain line := modify fun w => { w with complaints := w.complaints ++ [line] }
  now := return (← get).clock
  random := modifyGet fun w => (w.seed, { w with seed := w.seed + 1 })
  pause ms := modify fun w => { w with clock := w.clock.plusMillis ms }

end Playback
