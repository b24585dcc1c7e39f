import Playback.Json.Decode
import Playback.Json.Writer
import Mathlib.Tactic.SplitIfs

namespace Playback.Json

theorem hexValue_digitChar : ∀ n < 16, hexValue (Nat.digitChar n) = some n := by decide

theorem hexUnit_control (n : Nat) (small : n < 32) :
    hexUnit '0' '0' (Nat.digitChar (n / 16)) (Nat.digitChar (n % 16)) = some n := by
  have high := hexValue_digitChar (n / 16) (by omega)
  have low := hexValue_digitChar (n % 16) (by omega)
  have zero : hexValue '0' = some 0 := rfl
  simp only [hexUnit, high, low, zero, Option.pure_def, Option.bind_eq_bind, Option.bind_some,
    Option.some.injEq]
  omega

theorem scanString_plain (read rest : List Char) (c : Char) (quote : c ≠ '"') (slash : c ≠ '\\')
    (printed : ¬ c.toNat < 0x20) :
    scanString ⟨read, none, none⟩ (c :: rest) = scanString ⟨c :: read, none, none⟩ rest := by
  rw [scanString]
  · rw [if_neg printed]
    rfl
  all_goals simp_all

theorem scanString_unit (read rest : List Char) (a b c d : Char) (n : Nat)
    (value : hexUnit a b c d = some n) (lead : isLead n = false) (trail : isTrail n = false) :
    scanString ⟨read, none, none⟩ ('\\' :: 'u' :: a :: b :: c :: d :: rest) =
      scanString ⟨Char.ofNat n :: read, none, none⟩ rest := by
  rw [scanString, value]
  simp only [StringState.unit, lead, trail, StringState.push, Bool.false_eq_true, if_false]

theorem scanString_control (read rest : List Char) (c : Char) (control : c.toNat < 0x20) :
    scanString ⟨read, none, none⟩ (['\\', 'u', '0', '0', Nat.digitChar (c.toNat / 16),
      Nat.digitChar (c.toNat % 16)] ++ rest) = scanString ⟨c :: read, none, none⟩ rest := by
  have lead : isLead c.toNat = false := by simp [isLead]; omega
  have trail : isTrail c.toNat = false := by simp [isTrail]; omega
  have unit := scanString_unit read rest _ _ _ _ c.toNat (hexUnit_control _ control) lead trail
  rwa [Char.ofNat_toNat] at unit

theorem scanString_escapeChar (c : Char) (read rest : List Char) :
    scanString ⟨read, none, none⟩ (escapeChar c ++ rest) =
      scanString ⟨c :: read, none, none⟩ rest := by
  unfold escapeChar
  split_ifs with quote slash back tab line page turn control
  · subst quote; rfl
  · subst slash; rfl
  · subst back; rfl
  · subst tab; rfl
  · subst line; rfl
  · subst page; rfl
  · subst turn; rfl
  · exact scanString_control read rest c control
  · exact scanString_plain read rest c quote slash control

def marks : List Char := ['"', '{', '}', ':', ',', 't', 'r', 'u', 'e', 'f', 'a', 'l', 's']

/-- A second escape of a written text: it keeps what stands outside strings, and what it makes of a
written character is still read as that character. -/
structure IsEscape (escape : Char → List Char) : Prop where
  kept : ∀ c ∈ marks, escape c = [c]
  read : ∀ (c : Char) (read rest : List Char),
    scanString ⟨read, none, none⟩ ((escapeChar c).flatMap escape ++ rest) =
      scanString ⟨c :: read, none, none⟩ rest

mutual

def Value.doc : Value → Doc
  | .null => .null
  | .bool b => .bool b
  | .number n => .number (.ok n)
  | .string s => .string (.ok s)
  | .array items => .array (Value.items items)
  | .object fields => .object (Value.members fields)

def Value.items : List Value → Items
  | [] => .closed
  | x :: xs => .cons x.doc (Value.items xs)

def Value.members : List (String × Value) → Members
  | [] => .closed
  | (key, value) :: rest => .cons (.ok key) value.doc (Value.members rest)

end

/-- Whatever text follows, the text is read as the document. -/
def Reads (text : List Char) (doc : Doc) : Prop :=
  ∀ (fuel : Nat) (rest : List Char), text.length ≤ fuel →
    scanValue fuel (text ++ rest) = (doc, some rest)

def ReadsMembers (text : List Char) (members : Members) : Prop :=
  ∀ (fuel : Nat) (rest : List Char), text.length ≤ fuel →
    scanMembers fuel false (text ++ rest) = (members, some rest)

section Escape

variable {escape : Char → List Char} (sound : IsEscape escape)

include sound

theorem scanString_escaped (cs read rest : List Char) :
    scanString ⟨read, none, none⟩ ((cs.flatMap escapeChar).flatMap escape ++ '"' :: rest) =
      .ok (.ok (String.ofList (read.reverse ++ cs)), rest) := by
  induction cs generalizing read with
  | nil => simp [scanString, StringState.settle, StringState.text]
  | cons c cs ih =>
      have step := sound.read c read ((cs.flatMap escapeChar).flatMap escape ++ '"' :: rest)
      rw [List.flatMap_cons, List.flatMap_append, List.append_assoc, step, ih]
      simp

theorem scanString_writeString (s : String) :
    ∃ text, (writeString s).flatMap escape = '"' :: text ∧
      ∀ rest, scanString .start (text ++ rest) = .ok (.ok s, rest) := by
  have quote := sound.kept '"' (by decide)
  refine ⟨(s.toList.flatMap escapeChar).flatMap escape ++ ['"'], ?_, ?_⟩
  · simp [writeString, quote]
  · intro rest
    have all := scanString_escaped sound s.toList [] rest
    simpa [StringState.start] using all

theorem reads_string (s : String) :
    Reads ((Value.string s).write.flatMap escape) (.string (.ok s)) := by
  intro fuel rest enough
  obtain ⟨text, shape, read⟩ := scanString_writeString sound s
  rw [Value.write, shape] at enough ⊢
  cases fuel with
  | zero => simp at enough
  | succ fuel =>
      rw [List.cons_append, scanValue]
      simp only [skipBlanks, isBlank, List.dropWhile_cons, Char.reduceBEq, Bool.or_self,
        Bool.false_eq_true, if_false, read]

theorem flatMap_marks (word : List Char) (all : ∀ c ∈ word, c ∈ marks) :
    word.flatMap escape = word := by
  induction word with
  | nil => rfl
  | cons c word ih =>
      obtain ⟨mark, others⟩ := List.forall_mem_cons.mp all
      rw [List.flatMap_cons, sound.kept c mark, ih others, List.singleton_append]

theorem reads_bool (b : Bool) : Reads ((Value.bool b).write.flatMap escape) (.bool b) := by
  intro fuel rest enough
  have kept : (Value.bool b).write.flatMap escape = (Value.bool b).write := by
    apply flatMap_marks sound
    cases b <;> simp [Value.write, marks]
  rw [kept] at enough ⊢
  cases fuel with
  | zero => cases b <;> simp [Value.write] at enough
  | succ fuel => cases b <;> rfl

theorem readsMembers_closed : ReadsMembers ((Value.writeFields []).flatMap escape) .closed := by
  intro fuel rest enough
  have brace := sound.kept '}' (by decide)
  cases fuel with
  | zero => simp [Value.writeFields, brace] at enough
  | succ fuel => simp [Value.writeFields, brace, scanMembers, skipBlanks, isBlank]

theorem scanMember_field (key : String) (value : Value) (fields : List (String × Value))
    (first : Reads (value.write.flatMap escape) value.doc)
    (others : ReadsMembers ((Value.writeFields fields).flatMap escape) (Value.members fields)) :
    ∃ text, (writeString key ++ ':' :: (value.write ++ Value.writeFields fields)).flatMap escape =
        '"' :: text ∧
      ∀ fuel rest, text.length ≤ fuel →
        scanMember fuel (text ++ rest) = (Value.members ((key, value) :: fields), some rest) := by
  have colon := sound.kept ':' (by decide)
  have whole :
      (writeString key ++ ':' :: (value.write ++ Value.writeFields fields)).flatMap escape =
        (writeString key).flatMap escape ++ ':' :: (value.write.flatMap escape ++
          (Value.writeFields fields).flatMap escape) := by
    simp [colon]
  obtain ⟨text, shape, keyRead⟩ := scanString_writeString sound key
  refine ⟨text ++ ':' :: (value.write.flatMap escape ++ (Value.writeFields fields).flatMap escape),
    by simp [whole, shape], ?_⟩
  intro fuel rest enough
  simp only [List.length_append, List.length_cons] at enough
  cases fuel with
  | zero => omega
  | succ fuel =>
      have valueRead := first fuel ((Value.writeFields fields).flatMap escape ++ rest) (by omega)
      have othersRead := others fuel rest (by omega)
      simp only [List.append_assoc, List.cons_append, scanMember, keyRead]
      simp [skipBlanks, isBlank, valueRead, othersRead, Value.members]

theorem readsMembers_fields (fields : List (String × Value))
    (all : ∀ field ∈ fields, Reads (field.2.write.flatMap escape) field.2.doc) :
    ReadsMembers ((Value.writeFields fields).flatMap escape) (Value.members fields) := by
  induction fields with
  | nil => exact readsMembers_closed sound
  | cons field fields ih =>
      obtain ⟨key, value⟩ := field
      obtain ⟨first, others⟩ := List.forall_mem_cons.mp all
      obtain ⟨text, shape, read⟩ := scanMember_field sound key value fields first (ih others)
      intro fuel rest enough
      rw [Value.writeFields, List.flatMap_cons, sound.kept ',' (by decide), shape] at enough ⊢
      simp only [List.cons_append, List.nil_append, List.length_cons] at enough ⊢
      cases fuel with
      | zero => omega
      | succ fuel =>
          have member := read fuel rest (by omega)
          simp [scanMembers, skipBlanks, isBlank, member]

theorem reads_object (fields : List (String × Value))
    (all : ∀ field ∈ fields, Reads (field.2.write.flatMap escape) field.2.doc) :
    Reads ((Value.object fields).write.flatMap escape) (Value.object fields).doc := by
  have opened := sound.kept '{' (by decide)
  intro fuel rest enough
  cases fields with
  | nil =>
      have kept : (Value.object []).write.flatMap escape = ['{', '}'] :=
        flatMap_marks sound _ (by simp [Value.write, marks])
      rw [kept] at enough ⊢
      obtain ⟨fuel, rfl⟩ : ∃ n, fuel = n + 2 := ⟨fuel - 2, by simp at enough; omega⟩
      rfl
  | cons field fields =>
      obtain ⟨key, value⟩ := field
      obtain ⟨first, others⟩ := List.forall_mem_cons.mp all
      obtain ⟨text, shape, read⟩ := scanMember_field sound key value fields first
        (readsMembers_fields sound fields others)
      rw [Value.write, List.flatMap_cons, opened, shape] at enough ⊢
      simp only [List.cons_append, List.nil_append, List.length_cons] at enough ⊢
      obtain ⟨fuel, rfl⟩ : ∃ n, fuel = n + 2 := ⟨fuel - 2, by omega⟩
      have member := read fuel rest (by omega)
      simp [scanValue, scanMembers, skipBlanks, isBlank, member, Value.doc]

end Escape

theorem decode_of_scan (decoder : Decoder α) (a : α) (text : List Char) (doc : Doc)
    (scanned : Doc.scan text = (doc, some [])) (decoded : decoder (nestingLimit, doc) = .ok a) :
    decode decoder (String.ofList text) = .ok a := by
  simp [decode, scanned, decoded, skipBlanks, bind, Except.bind, pure, Except.pure]

theorem decode_of_reads (decoder : Decoder α) (a : α) (text : List Char) (doc : Doc)
    (reads : Reads text doc) (decoded : decoder (nestingLimit, doc) = .ok a) :
    decode decoder (String.ofList text) = .ok a := by
  have scanned : Doc.scan text = (doc, some []) := by
    have all := reads (scanFuel text) [] (by unfold scanFuel; omega)
    rwa [List.append_nil] at all
  exact decode_of_scan decoder a text doc scanned decoded

theorem tagged_members (choice : Choice τ) (room : Nat) (tag : τ)
    (entries fields : List (String × Value)) (untagged : ∀ field ∈ fields, field.1 ≠ tagName)
    (read : ∀ field ∈ fields, field.2.doc.value room = .ok field.2) :
    (Value.members fields).tagged choice room (some tag) entries =
      .ok (tag, .fields (entries.reverse ++ fields)) := by
  induction fields generalizing entries with
  | nil => simp [Value.members, Members.tagged]
  | cons field fields ih =>
      obtain ⟨key, value⟩ := field
      obtain ⟨other, others⟩ := List.forall_mem_cons.mp untagged
      obtain ⟨first, rest⟩ := List.forall_mem_cons.mp read
      have next := ih ((key, value) :: entries) others rest
      rw [List.reverse_cons, List.append_assoc, List.singleton_append] at next
      simp only [Value.members, Members.tagged, bind, Except.bind, if_neg other, first, next]

theorem tagged_object (choice : Choice τ) (label name : String) (room : Nat) (tag : τ)
    (fields : List (String × Value)) (found : choice.find name = .ok tag)
    (untagged : ∀ field ∈ fields, field.1 ≠ tagName)
    (read : ∀ field ∈ fields, field.2.doc.value (room + 1) = .ok field.2) :
    choice.tagged label (room + 2, (Value.object ((tagName, .string name) :: fields)).doc) =
      .ok (tag, .fields fields) := by
  have others := tagged_members choice (room + 1) tag [] fields untagged read
  simp only [Value.doc, Choice.tagged, Value.members, Members.tagged, bind, Except.bind, enter,
    if_true, Option.isSome_none, Bool.false_eq_true, if_false, Choice.name, found]
  exact others

theorem Record.decoder_object (r : Record Place α) (label : String) (room : Nat)
    (fields : List (String × Value)) :
    r.decoder label (room + 2, (Value.object fields).doc) =
      r.ofMembers (room + 1) r.empty (Value.members fields) := rfl

theorem Record.ofMembers_field (r : Record Place α) (room : Nat) (slots next : r.Slots)
    (key : String) (value : Value) (rest : List (String × Value))
    (read : Place → Except Fault r.Slots) (filed : r.file slots key = some (.ok read))
    (done : read (room, value.doc) = .ok next) :
    r.ofMembers room slots (Value.members ((key, value) :: rest)) =
      r.ofMembers room next (Value.members rest) := by
  simp only [Value.members, Record.ofMembers, bind, Except.bind, filed, done]

theorem Record.decoder_pair (make : α → β → γ) (label first second : String)
    (apart : second ≠ first) (one : Decoder α) (two : Decoder β) (room : Nat) (v w : Value) (a : α)
    (b : β) (readOne : one (room + 1, v.doc) = .ok a) (readTwo : two (room + 1, w.doc) = .ok b) :
    (Record.pure make |>.and (.required first one) |>.and (.required second two)).decoder label
      (room + 2, (Value.object [(first, v), (second, w)]).doc) = .ok (make a b) := by
  rw [Record.decoder_object]
  simp only [Value.members, Record.ofMembers, Record.and, Record.pure, Record.required,
    Record.field, bind, Except.bind, if_true, if_neg apart, Option.isSome_none,
    Bool.false_eq_true, if_false, Except.map, readOne, readTwo, Functor.map]
  rfl

theorem Decoder.list_doc_map (item : Decoder β) (write : α → Value) (meant : α → β) (room : Nat)
    (xs : List α) (each : ∀ x ∈ xs, item (room + 1, (write x).doc) = .ok (meant x)) :
    Decoder.list item (room + 2, (Value.array (xs.map write)).doc) = .ok (xs.map meant) := by
  have all : Decoder.items item (room + 1) (Value.items (xs.map write)) = .ok (xs.map meant) := by
    induction xs with
    | nil => rfl
    | cons x xs ih =>
        obtain ⟨first, others⟩ := List.forall_mem_cons.mp each
        have rest := ih others
        simp only [List.map_cons, Value.items, Decoder.items, bind, Except.bind, first, rest]
        rfl
  exact all

theorem Decoder.list_doc (item : Decoder α) (write : α → Value) (room : Nat) (xs : List α)
    (each : ∀ x ∈ xs, item (room + 1, (write x).doc) = .ok x) :
    Decoder.list item (room + 2, (Value.array (xs.map write)).doc) = .ok xs := by
  have read := Decoder.list_doc_map item write id room xs each
  rwa [List.map_id] at read

end Playback.Json
