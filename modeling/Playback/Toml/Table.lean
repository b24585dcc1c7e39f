/-!
Tables of a TOML document, and the rules by which its lines may add to them: a key is given a value
once, a table gets one header, and keys with dots do not reach into a table that has a header.
-/

namespace Playback.Toml

inductive Origin where
  | header
  | implied
  | dotted
  deriving DecidableEq, Repr

inductive Item where
  | text (s : String)
  | integer (n : Int)
  | real (written : String)
  | boolean (b : Bool)
  | date (written : String)
  | array (items : List Item)
  | inline (fields : List (String × Item))
  | table (origin : Origin) (fields : List (String × Item))
  | tables (rows : List (List (String × Item)))
  deriving Repr

abbrev Fields := List (String × Item)

namespace Fields

def put (key : String) (item : Item) (fields : Fields) : Fields :=
  fields.map fun (k, v) => (k, if k = key then item else v)

/-- Changes the table that a path leads to, by keys with dots or by a header. Tables that are
missing on the way are made; in a list of tables the way goes through the last. -/
def change (dots : Bool) (f : Origin → Fields → Option Fields) (origin : Origin) (fields : Fields) :
    List String → Option Fields
  | [] => f origin fields
  | key :: rest =>
    match fields.lookup key with
    | none => do
      let made : Origin := if dots then .dotted else .implied
      let inner ← change dots f made [] rest
      return fields ++ [(key, .table made inner)]
    | some (.table o inner) =>
      if dots ∧ o = .header then none
      else do return put key (.table o (← change dots f o inner rest)) fields
    | some (.tables rows) =>
      match rows.getLast? with
      | none => none
      | some row => do
        let row ← change dots f .header row rest
        return put key (.tables (rows.dropLast ++ [row])) fields
    | some _ => none

/-- Gives a new key a value. The table must have come about by dots exactly if dots led to it. -/
def add (dots : Bool) (key : String) (item : Item) (origin : Origin) (fields : Fields) :
    Option Fields :=
  if dots = (origin = .dotted : Bool) ∧ (fields.lookup key).isNone then
    some (fields ++ [(key, item)])
  else none

def assign (path : List String) (key : String) (item : Item) (origin : Origin) (fields : Fields) :
    Option Fields :=
  change true (add (!path.isEmpty) key item) origin fields path

def openTable (key : String) (_ : Origin) (fields : Fields) : Option Fields :=
  match fields.lookup key with
  | none => some (fields ++ [(key, .table .header [])])
  | some (.table .implied inner) => some (put key (.table .header inner) fields)
  | some _ => none

def openRow (key : String) (_ : Origin) (fields : Fields) : Option Fields :=
  match fields.lookup key with
  | none => some (fields ++ [(key, .tables [[]])])
  | some (.tables rows) => some (put key (.tables (rows ++ [[]])) fields)
  | some _ => none

end Fields

inductive Line where
  | assign (path : List String) (key : String) (item : Item)
  | header (path : List String) (key : String)
  | row (path : List String) (key : String)
  deriving Repr

structure Assembly where
  fields : Fields
  current : List String

namespace Assembly

def take (a : Assembly) : Line → Option Assembly
  | .assign path key item => do
    let fields ← a.fields.change false (fun origin inner => inner.assign path key item origin)
      .header a.current
    return { a with fields := fields }
  | .header path key => do
    return ⟨← a.fields.change false (Fields.openTable key) .header path, path ++ [key]⟩
  | .row path key => do
    return ⟨← a.fields.change false (Fields.openRow key) .header path, path ++ [key]⟩

end Assembly

def assemble (lines : List Line) : Option Fields := do
  let a ← lines.foldlM Assembly.take ⟨[], []⟩
  return a.fields

end Playback.Toml
