import Playback.Cassette.Recording
import Playback.Proofs.Json.Nesting
import Playback.Thread.Basic

namespace Playback

namespace Thread

open Json (Value Datum Decoder)

namespace Role

theorem find_name (r : Role) : choice.find r.name = .ok r := by cases r <;> rfl

end Role

namespace Part

def kind : Part → Kind
  | text _ => .text
  | reasoning _ => .reasoning
  | toolCall .. => .toolCall
  | image _ => .image

def data : Part → List Datum
  | text _ | reasoning _ | image _ => []
  | toolCall _ _ args result => args :: result.toList

def fields : Part → List (String × Value)
  | text t | reasoning t => [("text", .string t)]
  | toolCall call tool args result =>
    [("toolCallId", .string call), ("toolName", .string tool), ("args", args.value)] ++
      Value.field? "result" (result.map (·.value))
  | image i => [("image", .string i)]

def HasNullResult : Part → Prop
  | toolCall _ _ _ result => result = some .null
  | _ => False

instance : DecidablePred HasNullResult
  | toolCall _ _ _ result => inferInstanceAs (Decidable (result = some .null))
  | text _ | reasoning _ | image _ => isFalse id

def withoutNull : Part → Part
  | toolCall call tool args result => .toolCall call tool args (result.filter (· ≠ .null))
  | p => p

theorem withoutNull_eq_iff (p : Part) : p.withoutNull = p ↔ ¬ p.HasNullResult := by
  cases p with
  | toolCall call tool args result => cases result <;> simp [withoutNull, HasNullResult]
  | _ => simp [withoutNull, HasNullResult]

theorem toValue_eq (p : Part) :
    p.toValue = .object ((Json.tagName, .string p.kind.name) :: p.fields) := by
  cases p <;> rfl

theorem Kind.find_name (kind : Kind) : Kind.choice.find kind.name = .ok kind := by
  cases kind <;> rfl

theorem isPlain_fields (p : Part) : Json.IsPlain p.data p.fields := by
  cases p with
  | toolCall call tool args result =>
      cases result <;> simp [Json.IsPlain, fields, data, Value.field?, Json.tagName]
  | _ => simp [Json.IsPlain, fields, Json.tagName]

theorem asNullable_value (d : Datum) :
    Value.asNullable Value.asDatum d.value = .ok ((some d).filter (· ≠ .null)) := by
  have same := Datum.ofValue_value d
  by_cases null : d = .null
  · subst null
    rfl
  · have other : d.value ≠ .null := fun value => null (Datum.ext value)
    have kept : (some d).filter (· ≠ .null) = some d := by simp [null]
    rw [kept]
    unfold Value.asNullable
    split
    · contradiction
    · rw [Value.asDatum, same]
      rfl

theorem ofFields_fields (p : Part) :
    (record p.kind).2.ofFields (record p.kind).2.empty p.fields = .ok p.withoutNull := by
  cases p with
  | text t | reasoning t | image i => rfl
  | toolCall call tool args result =>
      cases result with
      | none =>
          have read : toolCallRecord.ofFields toolCallRecord.empty
              (toolCall call tool args none).fields =
              .ok (.toolCall call tool (.ofValue args.value) none) := rfl
          rw [Datum.ofValue_value] at read
          exact read
      | some output =>
          have result := asNullable_value output
          have read : toolCallRecord.ofFields toolCallRecord.empty
              (toolCall call tool args (some output)).fields =
              .ok (.toolCall call tool (.ofValue args.value)
                ((some output).filter (· ≠ .null))) := by
            -- The result is the last field, and the one that has to be looked at.
            change Except.bind (Except.bind (Except.bind
              (Value.asNullable _ output.value) _) _) _ = _
            rw [result]
            rfl
          rw [Datum.ofValue_value] at read
          exact read

theorem decoder_doc (p : Part) (room : Nat) (fits : ∀ d ∈ p.data, d.Fits room) :
    decoder (room + 2, p.toValue.doc) = .ok p.withoutNull := by
  have tagged := Json.tagged_plain p.data p.fields p.isPlain_fields room fits Kind.choice
    "internally tagged enum ThreadPart" p.kind.name p.kind (Kind.find_name p.kind)
  rw [toValue_eq]
  simp only [decoder, bind, Except.bind, tagged]
  exact p.ofFields_fields

theorem isWhole_toValue (p : Part) (levels : Nat) (fits : ∀ d ∈ p.data, d.Fits levels) :
    p.toValue.isWhole = true := by
  rw [toValue_eq]
  exact Json.isWhole_tagged_plain p.data p.fields p.isPlain_fields levels fits p.kind.name

end Part

namespace Message

def withoutNull (m : Message) : Message := { m with content := m.content.map Part.withoutNull }

theorem isWhole_toValue (m : Message) (levels : Nat)
    (fits : ∀ p ∈ m.content, ∀ d ∈ p.data, d.Fits levels) : m.toValue.isWhole = true := by
  rw [toValue]
  exact Json.isWhole_object_pair "role" m.role.name "content" Part.toValue m.content
    fun p member => p.isWhole_toValue levels (fits p member)

theorem decoder_doc (m : Message) (room : Nat)
    (fits : ∀ p ∈ m.content, ∀ d ∈ p.data, d.Fits room) :
    decoder (room + 4, m.toValue.doc) = .ok m.withoutNull := by
  have role : Role.choice.decoder (room + 3, (Value.string m.role.name).doc) = .ok m.role :=
    Role.find_name m.role
  have content : Decoder.list Part.decoder
      (room + 3, (Value.array (m.content.map Part.toValue)).doc) =
      .ok (m.content.map Part.withoutNull) :=
    Decoder.list_doc_map Part.decoder Part.toValue Part.withoutNull (room + 1) m.content
      fun p member => p.decoder_doc room (fits p member)
  exact Json.Record.decoder_pair Message.mk "struct ThreadMessage" "role" "content" (by decide)
    _ _ (room + 2) _ _ m.role _ role content

end Message

def Fits (thread : List Message) (levels : Nat) : Prop :=
  ∀ m ∈ thread, ∀ p ∈ m.content, ∀ d ∈ p.data, d.Fits levels

instance (thread : List Message) (levels : Nat) : Decidable (Fits thread levels) :=
  inferInstanceAs (Decidable (∀ m ∈ thread, ∀ p ∈ m.content, ∀ d ∈ p.data, d.Fits levels))

/-- Either layout of a conversation is read back without its nulls. The 123 levels are those that a
text may have inside a part. -/
theorem read_write_withoutNull (thread : List Message) (fits : Fits thread 123) :
    read (write thread) = .ok (thread.map Message.withoutNull) ∧
      read (toValue thread).pretty = .ok (thread.map Message.withoutNull) := by
  have whole : (toValue thread).isWhole = true :=
    Json.isWhole_array_map Message.toValue thread
      fun m member => m.isWhole_toValue 123 (fits m member)
  have decoded : Decoder.list Message.decoder (Json.nestingLimit, (toValue thread).doc) =
      .ok (thread.map Message.withoutNull) :=
    Decoder.list_doc_map Message.decoder Message.toValue Message.withoutNull 126 thread
      fun m member => m.decoder_doc 123 (fits m member)
  exact Json.decode_compact_pretty (Decoder.list Message.decoder) _ _ whole decoded

theorem map_eq_self_iff {α : Type} (f : α → α) (xs : List α) :
    xs.map f = xs ↔ ∀ x ∈ xs, f x = x := by
  have same := List.map_inj_left (l := xs) (f := f) (g := id)
  rwa [List.map_id] at same

theorem filterMap_eq_iff {α β : Type} (f g : α → Option β) (xs : List α)
    (alike : ∀ x, (f x).isSome = (g x).isSome) :
    xs.filterMap f = xs.filterMap g ↔ ∀ x ∈ xs, f x = g x := by
  induction xs with
  | nil => simp
  | cons x xs ih =>
      have both := alike x
      rw [List.forall_mem_cons, ← ih, List.filterMap_cons, List.filterMap_cons]
      cases hf : f x <;> cases hg : g x <;> simp [hf, hg] at both ⊢

theorem Message.withoutNull_eq_iff (m : Message) :
    m.withoutNull = m ↔ ∀ p ∈ m.content, ¬ p.HasNullResult := by
  obtain ⟨role, content⟩ := m
  simp only [withoutNull, Message.mk.injEq, true_and, map_eq_self_iff, Part.withoutNull_eq_iff]

theorem withoutNull_eq_iff (thread : List Message) :
    thread.map Message.withoutNull = thread ↔
      ∀ m ∈ thread, ∀ p ∈ m.content, ¬ p.HasNullResult := by
  simp only [map_eq_self_iff, Message.withoutNull_eq_iff]

end Thread

namespace Cassette

open Thread (Message)

theorem Part.ofThread?_withoutNull (p : Thread.Part) :
    (ofThread? p.withoutNull).isSome = (ofThread? p).isSome ∧
      (ofThread? p.withoutNull = ofThread? p ↔ ¬ p.HasNullResult) := by
  cases p with
  | toolCall call tool args result =>
      cases result <;> simp [ofThread?, Thread.Part.withoutNull, Thread.Part.HasNullResult]
  | _ => simp [Thread.Part.withoutNull, Thread.Part.HasNullResult]

theorem Message.ofThread?_withoutNull (m : Thread.Message) :
    (ofThread? m.withoutNull).isSome = (ofThread? m).isSome ∧
      (ofThread? m.withoutNull = ofThread? m ↔
        (m.role ≠ .system → ∀ p ∈ m.content, ¬ p.HasNullResult)) := by
  have alike (p : Thread.Part) := (Part.ofThread?_withoutNull p).1
  have same := Thread.filterMap_eq_iff _ Part.ofThread? m.content alike
  simp only [Part.ofThread?_withoutNull] at same
  have empty : (m.content.filterMap fun p => Part.ofThread? p.withoutNull).isEmpty =
      (m.content.filterMap Part.ofThread?).isEmpty := by
    rw [Bool.eq_iff_iff, List.isEmpty_iff, List.isEmpty_iff, List.filterMap_eq_nil_iff,
      List.filterMap_eq_nil_iff]
    simp only [← Option.not_isSome_iff_eq_none, alike]
  have kept : m.withoutNull.content.filterMap Part.ofThread? =
      m.content.filterMap fun p => Part.ofThread? p.withoutNull := List.filterMap_map
  have recorded (n : Thread.Message) (role : Role) (known : Role.ofThread? n.role = some role) :
      ofThread? n = if (n.content.filterMap Part.ofThread?).isEmpty then none
        else some ⟨role, n.content.filterMap Part.ofThread?⟩ := by
    unfold ofThread?
    rw [known]
    rfl
  cases known : Role.ofThread? m.role with
  | none =>
      have isSystem : m.role = .system := by
        cases role : m.role <;> simp [role, Role.ofThread?] at known ⊢
      have nothing (n : Thread.Message) (hidden : n.role = .system) : ofThread? n = none := by
        unfold ofThread?
        rw [hidden]
        rfl
      simp [nothing m isSystem, nothing m.withoutNull isSystem, isSystem]
  | some role =>
      have shown : m.role ≠ .system := by
        intro hidden
        rw [hidden] at known
        cases known
      rw [recorded m role known, recorded m.withoutNull role known, kept, empty, ← same]
      split
      · rename_i none
        have nothing := List.isEmpty_iff.mp none
        rw [List.isEmpty_iff.mp (empty.trans none), nothing]
        simp
      · simp [shown]

theorem ofThread_withoutNull_iff (thread : List Thread.Message) :
    ofThread (thread.map Thread.Message.withoutNull) = ofThread thread ↔
      ∀ m ∈ thread, m.role ≠ .system → ∀ p ∈ m.content, ¬ p.HasNullResult := by
  have same := Thread.filterMap_eq_iff _ Message.ofThread? thread
    fun m => (Message.ofThread?_withoutNull m).1
  simp only [Message.ofThread?_withoutNull] at same
  rw [← same, ofThread, ofThread, Cassette.mk.injEq, List.filterMap_map]
  rfl

end Cassette

namespace Thread

/-- A conversation is read back from either layout of its JSON text as it is but for the results of
null, of which none is left. So it is read back exactly just if it has none, and is recorded as
before just if it has none outside of what the system says, which is not recorded. -/
theorem read_write_eq_iff_no_null (thread : List Message) (fits : Fits thread 123) :
    let again := thread.map Message.withoutNull
    read (write thread) = .ok again ∧ read (toValue thread).pretty = .ok again ∧
      (again = thread ↔ ∀ m ∈ thread, ∀ p ∈ m.content, ¬ p.HasNullResult) ∧
      (Cassette.ofThread again = Cassette.ofThread thread ↔
        ∀ m ∈ thread, m.role ≠ .system → ∀ p ∈ m.content, ¬ p.HasNullResult) := by
  obtain ⟨line, lines⟩ := read_write_withoutNull thread fits
  exact ⟨line, lines, withoutNull_eq_iff thread, Cassette.ofThread_withoutNull_iff thread⟩

section Sample

def called (role : Role) (result : Json.Datum) : Message :=
  ⟨role, [.image "i",
    .toolCall "1" "look" ⟨.array [.number (.integer (-5))], by decide⟩ (some result)]⟩

theorem read_write_null_of_system :
    let thread := [called .system .null, called .assistant ⟨.string "\n", rfl⟩]
    Fits thread 123 ∧ read (write thread) = .ok (thread.map Message.withoutNull) ∧
      thread.map Message.withoutNull ≠ thread ∧
      Cassette.ofThread (thread.map Message.withoutNull) = Cassette.ofThread thread := by
  intro thread
  have fits : Fits thread 123 := by decide
  obtain ⟨read, -, same, recorded⟩ := read_write_eq_iff_no_null thread fits
  exact ⟨fits, read, fun all => absurd (same.mp all) (by decide), recorded.mpr (by decide)⟩

theorem read_write_not_always_exact :
    ¬ (∀ thread : List Message, Fits thread 123 → read (write thread) = .ok thread) ∧
      ¬ ∀ thread again : List Message, Fits thread 123 → read (write thread) = .ok again →
        Cassette.ofThread again = Cassette.ofThread thread := by
  let thread := [called .assistant .null]
  have fits : Fits thread 123 := by decide
  have read := (read_write_withoutNull thread fits).1
  constructor
  · intro always
    have same := read.symm.trans (always thread fits)
    exact absurd (Except.ok.inj same) (by decide)
  · intro always
    exact absurd (always thread _ fits read) (by decide)

end Sample

end Thread

end Playback
