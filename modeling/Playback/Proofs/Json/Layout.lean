import Playback.Proofs.Json.Numeral
import Playback.Proofs.Json.Scan

/-!
Layouts of a written value, which say where blanks stand in it. In every layout the text is read
back as the value's document, if its numbers are whole and nothing carries on the last of them.
-/

namespace Playback.Json

/-- The blanks before an item, a field or a closing bracket at a depth, and those behind a colon. -/
structure Layout where
  line : Nat → List Char
  gap : List Char

namespace Layout

structure IsProper (l : Layout) : Prop where
  line : ∀ depth, ∀ c ∈ l.line depth, isBlank c = true
  gap : ∀ c ∈ l.gap, isBlank c = true

def compact : Layout := ⟨fun _ => [], []⟩

def indented : Layout := ⟨Value.newline, [' ']⟩

theorem isProper_compact : compact.IsProper := ⟨by simp [compact], by simp [compact]⟩

theorem isProper_indented : indented.IsProper where
  line depth c member := by
    rcases List.mem_cons.mp member with rfl | space
    · rfl
    · rw [List.eq_of_mem_replicate space]
      rfl
  gap := by simp [indented, isBlank]

mutual

def write (l : Layout) (depth : Nat) : Value → List Char
  | .null => ['n', 'u', 'l', 'l']
  | .bool true => ['t', 'r', 'u', 'e']
  | .bool false => ['f', 'a', 'l', 's', 'e']
  | .number n => n.write
  | .string s => writeString s
  | .array [] => ['[', ']']
  | .array (x :: xs) =>
    '[' :: (l.line (depth + 1) ++ (l.write (depth + 1) x ++ l.writeItems depth xs))
  | .object [] => ['{', '}']
  | .object ((k, v) :: rest) =>
    '{' :: (l.line (depth + 1) ++ (writeString k ++ ':' ::
      (l.gap ++ (l.write (depth + 1) v ++ l.writeFields depth rest))))

def writeItems (l : Layout) (depth : Nat) : List Value → List Char
  | [] => l.line depth ++ [']']
  | x :: xs => ',' :: (l.line (depth + 1) ++ (l.write (depth + 1) x ++ l.writeItems depth xs))

def writeFields (l : Layout) (depth : Nat) : List (String × Value) → List Char
  | [] => l.line depth ++ ['}']
  | (k, v) :: rest =>
    ',' :: (l.line (depth + 1) ++ (writeString k ++ ':' ::
      (l.gap ++ (l.write (depth + 1) v ++ l.writeFields depth rest))))

end

mutual

theorem write_compact (depth : Nat) : (v : Value) → compact.write depth v = v.write
  | .null | .bool true | .bool false | .number _ | .string _ | .array [] | .object [] => rfl
  | .array (x :: xs) => by
    rw [write, Value.write, write_compact (depth + 1) x, writeItems_compact depth xs]
    rfl
  | .object ((k, v) :: rest) => by
    rw [write, Value.write, write_compact (depth + 1) v, writeFields_compact depth rest]
    rfl

theorem writeItems_compact (depth : Nat) :
    (items : List Value) → compact.writeItems depth items = Value.writeItems items
  | [] => rfl
  | x :: xs => by
    rw [writeItems, Value.writeItems, write_compact (depth + 1) x, writeItems_compact depth xs]
    rfl

theorem writeFields_compact (depth : Nat) :
    (fields : List (String × Value)) → compact.writeFields depth fields = Value.writeFields fields
  | [] => rfl
  | (k, v) :: rest => by
    rw [writeFields, Value.writeFields, write_compact (depth + 1) v, writeFields_compact depth rest]
    rfl

end

mutual

theorem write_indented (depth : Nat) : (v : Value) → indented.write depth v = v.writeIndented depth
  | .null | .bool true | .bool false | .number _ | .string _ | .array [] | .object [] => rfl
  | .array (x :: xs) => by
    rw [write, Value.writeIndented, write_indented (depth + 1) x, writeItems_indented depth xs,
      List.append_assoc]
    rfl
  | .object ((k, v) :: rest) => by
    rw [write, Value.writeIndented, write_indented (depth + 1) v, writeFields_indented depth rest,
      List.append_assoc]
    rfl

theorem writeItems_indented (depth : Nat) : (items : List Value) →
    indented.writeItems depth items = Value.writeItemsIndented depth items
  | [] => rfl
  | x :: xs => by
    rw [writeItems, Value.writeItemsIndented, write_indented (depth + 1) x,
      writeItems_indented depth xs, List.append_assoc]
    rfl

theorem writeFields_indented (depth : Nat) : (fields : List (String × Value)) →
    indented.writeFields depth fields = Value.writeFieldsIndented depth fields
  | [] => rfl
  | (k, v) :: rest => by
    rw [writeFields, Value.writeFieldsIndented, write_indented (depth + 1) v,
      writeFields_indented depth rest, List.append_assoc]
    rfl

end

end Layout

theorem skipBlanks_append (blanks text : List Char) (all : ∀ c ∈ blanks, isBlank c = true) :
    skipBlanks (blanks ++ text) = skipBlanks text :=
  List.dropWhile_append_of_pos all

def Opens (text : List Char) : Prop :=
  ∃ c rest, text = c :: rest ∧ isBlank c = false ∧ c ≠ ']'

section Steps

variable (fuel : Nat) (blanks text rest : List Char) (all : ∀ c ∈ blanks, isBlank c = true)

include all

theorem scanValue_blanks : scanValue fuel (blanks ++ text) = scanValue fuel text := by
  cases fuel with
  | zero => rfl
  | succ fuel => rw [scanValue, scanValue, skipBlanks_append blanks text all]

theorem scanItems_first (opens : Opens text) :
    scanItems (fuel + 1) true (blanks ++ text) = scanItem fuel text := by
  obtain ⟨c, tail, rfl, shown, other⟩ := opens
  rw [scanItems, skipBlanks_append blanks _ all, skipBlanks_cons c tail shown]
  simp

theorem scanItems_next (opens : Opens text) :
    scanItems (fuel + 1) false (',' :: (blanks ++ text)) = scanItem fuel text := by
  obtain ⟨c, tail, rfl, shown, other⟩ := opens
  rw [scanItems, skipBlanks_cons ',' _ rfl]
  simp [skipBlanks_append blanks _ all, skipBlanks_cons c tail shown, other]

theorem scanItems_closed (first : Bool) :
    scanItems (fuel + 1) first (blanks ++ ']' :: rest) = (.closed, some rest) := by
  rw [scanItems, skipBlanks_append blanks _ all, skipBlanks_cons ']' rest rfl]
  rfl

theorem scanMembers_first :
    scanMembers (fuel + 1) true (blanks ++ '"' :: text) = scanMember fuel text := by
  rw [scanMembers, skipBlanks_append blanks _ all, skipBlanks_cons '"' text rfl]
  rfl

theorem scanMembers_next :
    scanMembers (fuel + 1) false (',' :: (blanks ++ '"' :: text)) = scanMember fuel text := by
  rw [scanMembers, skipBlanks_cons ',' _ rfl]
  simp [skipBlanks_append blanks _ all, skipBlanks_cons '"' text rfl]

theorem scanMembers_closed (first : Bool) :
    scanMembers (fuel + 1) first (blanks ++ '}' :: rest) = (.closed, some rest) := by
  rw [scanMembers, skipBlanks_append blanks _ all, skipBlanks_cons '}' rest rfl]
  rfl

omit all in
theorem scanValue_array (items : Items) (read : scanItems fuel true text = (items, some rest)) :
    scanValue (fuel + 1) ('[' :: text) = (.array items, some rest) := by
  rw [scanValue, skipBlanks_cons '[' text rfl]
  simp [read]

omit all in
theorem scanValue_object (members : Members)
    (read : scanMembers fuel true text = (members, some rest)) :
    scanValue (fuel + 1) ('{' :: text) = (.object members, some rest) := by
  rw [scanValue, skipBlanks_cons '{' text rfl]
  simp [read]

omit all in
theorem scanItem_of (behind : List Char) (item : Doc) (items : Items)
    (first : scanValue fuel text = (item, some behind))
    (others : scanItems fuel false behind = (items, some rest)) :
    scanItem (fuel + 1) text = (.cons item items, some rest) := by
  simp [scanItem, first, others]

theorem scanMember_of (behind key : List Char) (name : String) (value : Doc) (members : Members)
    (named : ∀ rest, scanString .start (key ++ rest) = .ok (.ok name, rest))
    (first : scanValue fuel text = (value, some behind))
    (others : scanMembers fuel false behind = (members, some rest)) :
    scanMember (fuel + 1) (key ++ ':' :: (blanks ++ text)) =
      (.cons (.ok name) value members, some rest) := by
  have after := (scanValue_blanks fuel blanks text all).trans first
  rw [scanMember, named]
  simp [skipBlanks_cons ':' _ rfl, after, others]

end Steps

mutual

/-- Are all numbers in the value whole and of 64 bits? -/
def Value.isWhole : Value → Bool
  | .null | .bool _ | .string _ => true
  | .number (.integer n) => -(Word.half : Int) ≤ n && n < Word.bound
  | .number (.real _) => false
  | .array items => Value.itemsWhole items
  | .object fields => Value.fieldsWhole fields

def Value.itemsWhole : List Value → Bool
  | [] => true
  | x :: xs => x.isWhole && Value.itemsWhole xs

def Value.fieldsWhole : List (String × Value) → Bool
  | [] => true
  | (_, v) :: rest => v.isWhole && Value.fieldsWhole rest

end

theorem itemsWhole_of_forall (items : List Value) (all : ∀ v ∈ items, v.isWhole = true) :
    Value.itemsWhole items = true := by
  induction items with
  | nil => rfl
  | cons x xs ih =>
      obtain ⟨first, others⟩ := List.forall_mem_cons.mp all
      rw [Value.itemsWhole, first, ih others]
      rfl

theorem fieldsWhole_of_forall (fields : List (String × Value))
    (all : ∀ field ∈ fields, field.2.isWhole = true) : Value.fieldsWhole fields = true := by
  induction fields with
  | nil => rfl
  | cons field fields ih =>
      obtain ⟨first, others⟩ := List.forall_mem_cons.mp all
      rw [Value.fieldsWhole, first, ih others]
      rfl

theorem writeString_eq_cons (s : String) :
    ∃ text, writeString s = '"' :: text ∧
      ∀ rest, scanString .start (text ++ rest) = .ok (.ok s, rest) := by
  have plain : IsEscape (fun c => [c]) := by
    refine ⟨fun _ _ => rfl, fun c read rest => ?_⟩
    rw [List.flatMap_singleton']
    exact scanString_escapeChar c read rest
  obtain ⟨text, shape, read⟩ := scanString_writeString plain s
  rw [List.flatMap_singleton'] at shape
  exact ⟨text, shape, read⟩

theorem opens_writeInt (n : Int) : Opens (writeInt n) := by
  unfold writeInt
  split
  · exact ⟨'-', _, rfl, rfl, by decide⟩
  · obtain ⟨c, cs, digits, digit⟩ := toDigits_eq_cons n.natAbs
    refine ⟨c, cs, digits, isBlank_of_isDigit c digit, ?_⟩
    rintro rfl
    revert digit
    decide

theorem stops_cons (c : Char) (rest : List Char) (digit : c.isDigit = false) (point : c ≠ '.')
    (lower : c ≠ 'e') (upper : c ≠ 'E') : Stops (c :: rest) := by
  intro d first
  obtain rfl := Option.some.inj first
  exact ⟨digit, point, lower, upper⟩

theorem stops_append (blanks text : List Char) (all : ∀ c ∈ blanks, isBlank c = true)
    (stops : Stops text) : Stops (blanks ++ text) := by
  cases blanks with
  | nil => exact stops
  | cons c blanks =>
      have blank := all c List.mem_cons_self
      have other : c.isDigit = false ∧ c ≠ '.' ∧ c ≠ 'e' ∧ c ≠ 'E' := by
        simp only [isBlank, Bool.or_eq_true, beq_iff_eq] at blank
        rcases blank with ((rfl | rfl) | rfl) | rfl <;> decide
      exact stops_cons c _ other.1 other.2.1 other.2.2.1 other.2.2.2

namespace Layout

variable (l : Layout) (proper : l.IsProper)

theorem opens_write (depth : Nat) (v : Value) (whole : v.isWhole = true) (rest : List Char) :
    Opens (l.write depth v ++ rest) := by
  have bracket (c : Char) (text : List Char) (shown : isBlank c = false) (other : c ≠ ']') :
      Opens (c :: text) := ⟨c, text, rfl, shown, other⟩
  rcases v with _ | b | n | s | items | fields
  · exact bracket 'n' _ rfl (by decide)
  · cases b with
    | true => exact bracket 't' _ rfl (by decide)
    | false => exact bracket 'f' _ rfl (by decide)
  · rcases n with n | x
    · obtain ⟨c, text, written, shown, other⟩ := opens_writeInt n
      rw [write, Number.write, written]
      exact bracket c _ shown other
    · contradiction
  · exact bracket '"' _ rfl (by decide)
  · cases items <;> exact bracket '[' _ rfl (by decide)
  · cases fields <;> exact bracket '{' _ rfl (by decide)

theorem length_write_pos (depth : Nat) (v : Value) (whole : v.isWhole = true) :
    0 < (l.write depth v).length := by
  obtain ⟨c, rest, shape, -⟩ := l.opens_write depth v whole []
  rw [List.append_nil] at shape
  rw [shape]
  exact Nat.succ_pos rest.length

theorem length_writeItems_pos (depth : Nat) (items : List Value) :
    0 < (l.writeItems depth items).length := by
  cases items <;> simp [writeItems]

theorem length_writeFields_pos (depth : Nat) (fields : List (String × Value)) :
    0 < (l.writeFields depth fields).length := by
  cases fields <;> simp [writeFields]

include proper

theorem stops_writeItems (depth : Nat) (items : List Value) (rest : List Char) :
    Stops (l.writeItems depth items ++ rest) := by
  cases items with
  | nil =>
      rw [writeItems, List.append_assoc]
      exact stops_append _ _ (proper.line depth)
        (stops_cons ']' rest rfl (by decide) (by decide) (by decide))
  | cons x xs => exact stops_cons ',' _ rfl (by decide) (by decide) (by decide)

theorem stops_writeFields (depth : Nat) (fields : List (String × Value)) (rest : List Char) :
    Stops (l.writeFields depth fields ++ rest) := by
  cases fields with
  | nil =>
      rw [writeFields, List.append_assoc]
      exact stops_append _ _ (proper.line depth)
        (stops_cons '}' rest rfl (by decide) (by decide) (by decide))
  | cons field fields => exact stops_cons ',' _ rfl (by decide) (by decide) (by decide)

mutual

/-- A written value is read as its document. Two calls a character are enough. -/
theorem scanValue_write (depth : Nat) : (v : Value) → v.isWhole = true →
    ∀ (fuel : Nat) (rest : List Char), 2 * (l.write depth v).length ≤ fuel → Stops rest →
      scanValue fuel (l.write depth v ++ rest) = (v.doc, some rest)
  | .null, _, fuel, rest, enough, _ => by
    obtain ⟨fuel, rfl⟩ : ∃ n, fuel = n + 1 := ⟨fuel - 1, by simp [write] at enough; omega⟩
    rfl
  | .bool true, _, fuel, rest, enough, _ => by
    obtain ⟨fuel, rfl⟩ : ∃ n, fuel = n + 1 := ⟨fuel - 1, by simp [write] at enough; omega⟩
    rfl
  | .bool false, _, fuel, rest, enough, _ => by
    obtain ⟨fuel, rfl⟩ : ∃ n, fuel = n + 1 := ⟨fuel - 1, by simp [write] at enough; omega⟩
    rfl
  | .number (.integer n), whole, fuel, rest, enough, stops => by
    have length := l.length_write_pos depth (.number (.integer n)) whole
    obtain ⟨fuel, rfl⟩ : ∃ n, fuel = n + 1 := ⟨fuel - 1, by omega⟩
    simp only [Value.isWhole, Bool.and_eq_true, decide_eq_true_eq] at whole
    exact scanValue_writeInt n whole.1 whole.2 fuel rest stops
  | .number (.real _), whole, _, _, _, _ => by contradiction
  | .string s, _, fuel, rest, enough, _ => by
    obtain ⟨text, shape, read⟩ := writeString_eq_cons s
    rw [write, shape] at enough ⊢
    obtain ⟨fuel, rfl⟩ : ∃ n, fuel = n + 1 := ⟨fuel - 1, by simp at enough; omega⟩
    rw [List.cons_append, scanValue, skipBlanks_cons '"' _ rfl]
    simp [read, Value.doc]
  | .array [], _, fuel, rest, enough, _ => by
    obtain ⟨fuel, rfl⟩ : ∃ n, fuel = n + 2 := ⟨fuel - 2, by simp [write] at enough; omega⟩
    rfl
  | .array (x :: xs), whole, fuel, rest, enough, _ => by
    simp only [Value.isWhole, Value.itemsWhole, Bool.and_eq_true] at whole
    have first := l.length_write_pos (depth + 1) x whole.1
    have last := l.length_writeItems_pos depth xs
    simp only [write, List.length_cons, List.length_append] at enough
    -- three calls lead from the bracket to the first item
    obtain ⟨fuel, rfl⟩ : ∃ n, fuel = n + 3 := ⟨fuel - 3, by omega⟩
    have item := scanValue_write (depth + 1) x whole.1 fuel (l.writeItems depth xs ++ rest)
      (by omega) (l.stops_writeItems proper depth xs rest)
    have others := scanItems_writeItems depth xs whole.2 fuel rest (by omega)
    rw [write, List.cons_append, List.append_assoc, List.append_assoc]
    apply scanValue_array
    rw [scanItems_first _ _ _ (proper.line (depth + 1)) (l.opens_write (depth + 1) x whole.1 _)]
    exact scanItem_of _ _ _ _ _ _ item others
  | .object [], _, fuel, rest, enough, _ => by
    obtain ⟨fuel, rfl⟩ : ∃ n, fuel = n + 2 := ⟨fuel - 2, by simp [write] at enough; omega⟩
    rfl
  | .object ((k, v) :: fields), whole, fuel, rest, enough, _ => by
    simp only [Value.isWhole, Value.fieldsWhole, Bool.and_eq_true] at whole
    obtain ⟨key, shape, named⟩ := writeString_eq_cons k
    have last := l.length_writeFields_pos depth fields
    simp only [write, shape, List.length_cons, List.length_append] at enough
    obtain ⟨fuel, rfl⟩ : ∃ n, fuel = n + 3 := ⟨fuel - 3, by omega⟩
    have value := scanValue_write (depth + 1) v whole.1 fuel (l.writeFields depth fields ++ rest)
      (by omega) (l.stops_writeFields proper depth fields rest)
    have others := scanMembers_writeFields depth fields whole.2 fuel rest (by omega)
    rw [write, shape]
    simp only [List.cons_append, List.append_assoc]
    apply scanValue_object
    rw [scanMembers_first _ _ _ (proper.line (depth + 1))]
    exact scanMember_of _ _ _ _ proper.gap _ _ _ _ _ named value others

theorem scanItems_writeItems (depth : Nat) : (items : List Value) → Value.itemsWhole items = true →
    ∀ (fuel : Nat) (rest : List Char), 2 * (l.writeItems depth items).length ≤ fuel →
      scanItems fuel false (l.writeItems depth items ++ rest) = (Value.items items, some rest)
  | [], _, fuel, rest, enough => by
    obtain ⟨fuel, rfl⟩ : ∃ n, fuel = n + 1 := ⟨fuel - 1, by simp [writeItems] at enough; omega⟩
    rw [writeItems, List.append_assoc]
    exact scanItems_closed fuel _ rest (proper.line depth) false
  | x :: xs, whole, fuel, rest, enough => by
    simp only [Value.itemsWhole, Bool.and_eq_true] at whole
    simp only [writeItems, List.length_cons, List.length_append] at enough
    obtain ⟨fuel, rfl⟩ : ∃ n, fuel = n + 2 := ⟨fuel - 2, by omega⟩
    have item := scanValue_write (depth + 1) x whole.1 fuel (l.writeItems depth xs ++ rest)
      (by omega) (l.stops_writeItems proper depth xs rest)
    have others := scanItems_writeItems depth xs whole.2 fuel rest (by omega)
    rw [writeItems, List.cons_append, List.append_assoc, List.append_assoc,
      scanItems_next _ _ _ (proper.line (depth + 1)) (l.opens_write (depth + 1) x whole.1 _)]
    exact scanItem_of _ _ _ _ _ _ item others

theorem scanMembers_writeFields (depth : Nat) : (fields : List (String × Value)) →
    Value.fieldsWhole fields = true →
    ∀ (fuel : Nat) (rest : List Char), 2 * (l.writeFields depth fields).length ≤ fuel →
      scanMembers fuel false (l.writeFields depth fields ++ rest) =
        (Value.members fields, some rest)
  | [], _, fuel, rest, enough => by
    obtain ⟨fuel, rfl⟩ : ∃ n, fuel = n + 1 := ⟨fuel - 1, by simp [writeFields] at enough; omega⟩
    rw [writeFields, List.append_assoc]
    exact scanMembers_closed fuel _ rest (proper.line depth) false
  | (k, v) :: fields, whole, fuel, rest, enough => by
    simp only [Value.fieldsWhole, Bool.and_eq_true] at whole
    obtain ⟨key, shape, named⟩ := writeString_eq_cons k
    simp only [writeFields, shape, List.length_cons, List.length_append] at enough
    obtain ⟨fuel, rfl⟩ : ∃ n, fuel = n + 2 := ⟨fuel - 2, by omega⟩
    have value := scanValue_write (depth + 1) v whole.1 fuel (l.writeFields depth fields ++ rest)
      (by omega) (l.stops_writeFields proper depth fields rest)
    have others := scanMembers_writeFields depth fields whole.2 fuel rest (by omega)
    rw [writeFields, shape]
    simp only [List.cons_append, List.append_assoc]
    rw [scanMembers_next _ _ _ (proper.line (depth + 1))]
    exact scanMember_of _ _ _ _ proper.gap _ _ _ _ _ named value others

end

theorem decode_write (decoder : Decoder α) (a : α) (v : Value) (whole : v.isWhole = true)
    (decoded : decoder (nestingLimit, v.doc) = .ok a) :
    decode decoder (String.ofList (l.write 0 v)) = .ok a := by
  have scanned : Doc.scan (l.write 0 v) = (v.doc, some []) := by
    have enough : 2 * (l.write 0 v).length ≤ scanFuel (l.write 0 v) := by
      unfold scanFuel
      omega
    have all := l.scanValue_write proper 0 v whole _ [] enough (fun c none => by cases none)
    rwa [List.append_nil] at all
  exact decode_of_scan decoder a _ v.doc scanned decoded

end Layout

theorem decode_compact_pretty (decoder : Decoder α) (a : α) (v : Value) (whole : v.isWhole = true)
    (decoded : decoder (nestingLimit, v.doc) = .ok a) :
    decode decoder v.compact = .ok a ∧ decode decoder v.pretty = .ok a := by
  have line := Layout.compact.decode_write Layout.isProper_compact decoder a v whole decoded
  have lines := Layout.indented.decode_write Layout.isProper_indented decoder a v whole decoded
  rw [Layout.write_compact] at line
  rw [Layout.write_indented] at lines
  exact ⟨line, lines⟩

end Playback.Json
