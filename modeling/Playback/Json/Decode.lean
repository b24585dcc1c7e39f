import Playback.Json.Datum
import Playback.Json.Document

/-!
Typed readers of documents. A record is read from an object, whose unknown keys are skipped, or from
an array of its fields in order; a choice from a name, or from an object with the name as its only
key. A tagged record names its variant under `type`, or in front of its fields; all its fields are
read before any of them is looked at.
-/

namespace Playback.Json

/-- A place in a document, with its room: what stands there nests less than so many levels. -/
abbrev Place := Nat × Doc

abbrev Decoder (α : Type) := Place → Except Fault α

def nestingLimit : Nat := 128

def enter : Nat → Except Fault Nat
  | 0 | 1 => .error .tooDeep
  | room + 2 => .ok (room + 1)

namespace Doc

def found : Doc → Except Fault Found
  | .null => .ok .null
  | .bool b => .ok (.bool b)
  | .number n => n.map .number
  | .string s => s.map .string
  | .array _ => .ok .sequence
  | .object _ => .ok .map
  | .broken b => .error b.wanted

def mismatch (d : Doc) (wanted : String) : Except Fault α := do
  throw (.wrongType (← d.found) wanted)

end Doc

mutual

def Doc.skip : Doc → Except Fault Unit
  | .array items => items.skip
  | .object members => members.skip
  | .broken b => .error b.skipped
  | .null | .bool _ | .number _ | .string _ => .ok ()

def Items.skip : Items → Except Fault Unit
  | .closed => .ok ()
  | .broken b => .error b.skipped
  | .cons item rest => do
    item.skip
    rest.skip

def Members.skip : Members → Except Fault Unit
  | .closed => .ok ()
  | .broken b => .error b.skipped
  | .oddKey _ => .error .keyNotString
  | .keyOnly _ fault => .error fault
  | .cons _ value rest => do
    value.skip
    rest.skip

end

mutual

def Doc.value (room : Nat) : Doc → Except Fault Value
  | .null => .ok .null
  | .bool b => .ok (.bool b)
  | .number n => n.map .number
  | .string s => s.map .string
  | .array items => do
    let room ← enter room
    return .array (← items.values room)
  | .object members => do
    let room ← enter room
    return .object (← members.fields room)
  | .broken b => .error b.wanted

def Items.values (room : Nat) : Items → Except Fault (List Value)
  | .closed => .ok []
  | .broken b => .error b.wanted
  | .cons item rest => do
    let v ← item.value room
    return v :: (← rest.values room)

def Members.fields (room : Nat) : Members → Except Fault (List (String × Value))
  | .closed => .ok []
  | .broken b => .error b.wanted
  | .oddKey _ => .error .keyNotString
  | .keyOnly key fault => do
    let _ ← key
    throw fault
  | .cons key value rest => do
    let k ← key
    let v ← value.value room
    return (k, v) :: (← rest.fields room)

end

namespace Decoder

def string : Decoder String
  | (_, .string s) => s
  | (_, d) => d.mismatch "a string"

def nullable (item : Decoder α) : Decoder (Option α)
  | (_, .null) => .ok none
  | place => some <$> item place

def items (item : Decoder α) (room : Nat) : Items → Except Fault (List α)
  | .closed => .ok []
  | .broken b => .error b.wanted
  | .cons d rest => do
    let a ← item (room, d)
    return a :: (← items item room rest)

def list (item : Decoder α) : Decoder (List α)
  | (room, .array ds) => do items item (← enter room) ds
  | (_, d) => d.mismatch "a sequence"

end Decoder

abbrev Choice (α : Type) := List (String × α)

namespace Choice

def find (choice : Choice α) (name : String) : Except Fault α :=
  match choice.lookup name with
  | some a => .ok a
  | none => .error (.unknownVariant name (choice.map (·.1)))

def name (choice : Choice α) : Doc → Except Fault α
  | .string s => do choice.find (← s)
  | d => d.mismatch "variant identifier"

def single (a : α) : Members → Except Fault α
  | .closed => .ok a
  | .broken b => .error (if b.wanted = .endInObject then .endInObject else .valueExpected)
  | _ => .error .valueExpected

def ofMembers (choice : Choice α) : Members → Except Fault α
  | .closed => .error .valueExpected
  | .broken b => .error b.wanted
  | .oddKey _ => .error .keyNotString
  | .keyOnly key fault => do
    let _ ← choice.find (← key)
    throw fault
  | .cons key value rest => do
    let a ← choice.find (← key)
    match value with
    | .null => single a rest
    | d => d.mismatch "unit"

def decoder (choice : Choice α) : Decoder α
  | (_, .string s) => do choice.find (← s)
  | (room, .object members) => do
    let _ ← enter room
    choice.ofMembers members
  | (_, .broken b) => .error b.glanced
  | (_, _) => .error .valueExpected

def ofValue (choice : Choice α) : Value → Except Fault α
  | .string s => choice.find s
  | .object [(key, value)] => do
    let a ← choice.find key
    match value with
    | .null | .object [] => return a
    | v => throw (.wrongType v.found "unit")
  | .object _ => .error .manyKeys
  | v => .error (.wrongType v.found "string or map")

end Choice

namespace Value

def asString : Value → Except Fault String
  | .string s => .ok s
  | v => .error (.wrongType v.found "a string")

def asBool : Value → Except Fault Bool
  | .bool b => .ok b
  | v => .error (.wrongType v.found "a boolean")

def asNullable (item : Value → Except Fault α) : Value → Except Fault (Option α)
  | .null => .ok none
  | v => some <$> item v

def asDatum (v : Value) : Except Fault Datum := .ok (.ofValue v)

end Value

/-- A record whose fields are read from sources of type `ι`. The slots hold what has been read of an
object so far; `file` gives the reader for a key, none for unknown keys, and refuses a key that has
been read. `inOrder` reads the fields of an array one after another and counts them. -/
structure Record (ι α : Type) where
  Slots : Type
  empty : Slots
  file : Slots → String → Option (Except Fault (ι → Except Fault Slots))
  finish : Slots → Except Fault α
  size : Nat
  inOrder : (wanted : String) → Nat → List (Except Fault ι) →
    Except Fault (α × List (Except Fault ι))

namespace Record

def pure (a : α) : Record ι α where
  Slots := Unit
  empty := ()
  file _ _ := none
  finish _ := .ok a
  size := 0
  inOrder _ _ items := .ok (a, items)

/-- One field: `absent` is its value in an object without its key, `short` its value in an array
that ends before it. -/
def field (name : String) (read : ι → Except Fault α) (absent short : Option α) : Record ι α where
  Slots := Option α
  empty := none
  file slot key :=
    if key = name then
      some (if slot.isSome then .error (.duplicateField name) else .ok fun i => some <$> read i)
    else none
  finish
    | some a => .ok a
    | none =>
      match absent with
      | some a => .ok a
      | none => .error (.missingField name)
  size := 1
  inOrder wanted index items :=
    match items with
    | [] =>
      match short with
      | some a => .ok (a, [])
      | none => .error (.wrongLength index wanted)
    | item :: rest => do
      let a ← read (← item)
      return (a, rest)

def required (name : String) (read : ι → Except Fault α) : Record ι α := field name read none none

def defaulted (name : String) (read : ι → Except Fault α) (a : α) : Record ι α :=
  field name read (some a) (some a)

def and (r : Record ι (α → β)) (s : Record ι α) : Record ι β where
  Slots := r.Slots × s.Slots
  empty := (r.empty, s.empty)
  file slots key :=
    match r.file slots.1 key with
    | some step => some (step.map fun read i => (·, slots.2) <$> read i)
    | none =>
      match s.file slots.2 key with
      | some step => some (step.map fun read i => (slots.1, ·) <$> read i)
      | none => none
  finish slots := do
    let f ← r.finish slots.1
    return f (← s.finish slots.2)
  size := r.size + s.size
  inOrder wanted index items := do
    let (f, items) ← r.inOrder wanted index items
    let (a, items) ← s.inOrder wanted (index + r.size) items
    return (f a, items)

def elements (n : Nat) : String := toString n ++ if n = 1 then " element" else " elements"

def ofFields (r : Record Value α) (slots : r.Slots) :
    List (String × Value) → Except Fault α
  | [] => r.finish slots
  | (key, value) :: rest =>
    match r.file slots key with
    | none => r.ofFields slots rest
    | some step => do r.ofFields (← (← step) value) rest

def ofItems (r : Record Value α) (label : String) (items : List Value) : Except Fault α := do
  let (a, rest) ← r.inOrder (label ++ " with " ++ elements r.size) 0 (items.map .ok)
  if rest.isEmpty then return a
  else throw (.wrongLength (r.size + rest.length) (elements r.size ++ " in sequence"))

def ofMembers (r : Record Place α) (room : Nat) (slots : r.Slots) : Members → Except Fault α
  | .closed => r.finish slots
  | .broken b => .error b.wanted
  | .oddKey _ => .error .keyNotString
  | .keyOnly key fault => do
    match r.file slots (← key) with
    | some step => do
      let _ ← step
      throw fault
    | none => throw fault
  | .cons key value rest => do
    match r.file slots (← key) with
    | none => do
      value.skip
      r.ofMembers room slots rest
    | some step => do r.ofMembers room (← (← step) (room, value)) rest

def places (room : Nat) : Items → List (Except Fault Place)
  | .closed => []
  | .broken b => [.error b.wanted]
  | .cons d rest => .ok (room, d) :: places room rest

def surplus : List (Except Fault Place) → Except Fault Unit
  | [] => .ok ()
  | .error .endInList :: _ => .error .endInList
  | .error .trailingComma :: _ => .error .trailingComma
  | _ :: _ => .error .trailingText

def decoder (r : Record Place α) (label : String) : Decoder α
  | (room, .object members) => do r.ofMembers (← enter room) r.empty members
  | (room, .array items) => do
    let (a, rest) ←
      r.inOrder (label ++ " with " ++ elements r.size) 0 (places (← enter room) items)
    surplus rest
    return a
  | (_, d) => d.mismatch label

end Record

inductive Body where
  | fields (entries : List (String × Value))
  | items (values : List Value)

def Record.ofBody (r : Record Value α) (label : String) : Body → Except Fault α
  | .fields entries => r.ofFields r.empty entries
  | .items values => r.ofItems label values

def tagName : String := "type"

def Members.tagged (choice : Choice τ) (room : Nat) (tag : Option τ)
    (entries : List (String × Value)) : Members → Except Fault (τ × Body)
  | .closed =>
    match tag with
    | some t => .ok (t, .fields entries.reverse)
    | none => .error (.missingField tagName)
  | .broken b => .error b.wanted
  | .oddKey _ => .error .keyNotString
  | .keyOnly key fault => do
    if (← key) = tagName ∧ tag.isSome then throw (.duplicateField tagName) else throw fault
  | .cons key value rest => do
    let k ← key
    if k = tagName then
      if tag.isSome then throw (.duplicateField tagName)
      else rest.tagged choice room (some (← choice.name value)) entries
    else do
      let v ← value.value room
      rest.tagged choice room tag ((k, v) :: entries)

def Choice.tagged (choice : Choice τ) (label : String) : Decoder (τ × Body)
  | (room, .object members) => do members.tagged choice (← enter room) none []
  | (room, .array items) => do
    let room ← enter room
    match items with
    | .closed => throw (.missingField tagName)
    | .broken b => throw b.wanted
    | .cons d rest => do
      let tag ← choice.name d
      return (tag, .items (← rest.values room))
  | (_, d) => d.mismatch label

def Decoder.value : Decoder Value := fun (room, doc) => doc.value room

def decode (decoder : Decoder α) (text : String) : Except Fault α := do
  let (doc, rest) := Doc.scan text.toList
  let a ← decoder (nestingLimit, doc)
  match rest with
  | none => throw .endInValue
  | some rest => if (skipBlanks rest).isEmpty then return a else throw .trailingText

end Playback.Json
