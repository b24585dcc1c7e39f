import Playback.Cassette.Basic
import Playback.Proofs.Json.Nesting

namespace Playback.Cassette

open Json (Value Datum Decoder)

namespace Role

theorem find_name (r : Role) : choice.find r.name = .ok r := by cases r <;> rfl

end Role

namespace Part

def data : Part → List Datum
  | text _ | reasoning _ => []
  | toolCall _ _ args result => args :: result.toList

def fields : Part → List (String × Value)
  | text t | reasoning t => [("text", .string t)]
  | toolCall call tool args result =>
    [("toolCallId", .string call), ("toolName", .string tool), ("args", args.value)] ++
      Value.field? "result" (result.map (·.value))

theorem toValue_eq (p : Part) :
    p.toValue = .object ((Json.tagName, .string p.kind.name) :: p.fields) := by
  cases p <;> rfl

theorem Kind.find_name (kind : Kind) : Kind.choice.find kind.name = .ok kind := by
  cases kind <;> rfl

theorem isPlain_fields (p : Part) : Json.IsPlain p.data p.fields := by
  cases p with
  | text t | reasoning t => simp [Json.IsPlain, fields, Json.tagName]
  | toolCall call tool args result =>
      cases result <;> simp [Json.IsPlain, fields, data, Value.field?, Json.tagName]

theorem ofFields_fields (p : Part) :
    (record p.kind).2.ofFields (record p.kind).2.empty p.fields = .ok p := by
  cases p with
  | text t | reasoning t => rfl
  | toolCall call tool args result =>
      cases result with
      | none =>
          have read : toolCallRecord.ofFields toolCallRecord.empty
              (toolCall call tool args none).fields =
              .ok (.toolCall call tool (.ofValue args.value) none) := rfl
          rw [Datum.ofValue_value] at read
          exact read
      | some output =>
          have read : toolCallRecord.ofFields toolCallRecord.empty
              (toolCall call tool args (some output)).fields =
              .ok (.toolCall call tool (.ofValue args.value) (some (.ofValue output.value))) := rfl
          rw [Datum.ofValue_value, Datum.ofValue_value] at read
          exact read

theorem decoder_doc (p : Part) (room : Nat) (fits : ∀ d ∈ p.data, d.Fits room) :
    decoder (room + 2, p.toValue.doc) = .ok p := by
  have tagged := Json.tagged_plain p.data p.fields p.isPlain_fields room fits Kind.choice
    "internally tagged enum CassettePart" p.kind.name p.kind (Kind.find_name p.kind)
  rw [toValue_eq]
  simp only [decoder, bind, Except.bind, tagged]
  exact p.ofFields_fields

theorem isWhole_toValue (p : Part) (levels : Nat) (fits : ∀ d ∈ p.data, d.Fits levels) :
    p.toValue.isWhole = true := by
  rw [toValue_eq]
  exact Json.isWhole_tagged_plain p.data p.fields p.isPlain_fields levels fits p.kind.name

end Part

namespace Message

theorem isWhole_toValue (m : Message) (levels : Nat)
    (fits : ∀ p ∈ m.content, ∀ d ∈ p.data, d.Fits levels) : m.toValue.isWhole = true := by
  rw [toValue]
  exact Json.isWhole_object_pair "role" m.role.name "content" Part.toValue m.content
    fun p member => p.isWhole_toValue levels (fits p member)

theorem decoder_doc (m : Message) (room : Nat)
    (fits : ∀ p ∈ m.content, ∀ d ∈ p.data, d.Fits room) :
    decoder (room + 4, m.toValue.doc) = .ok m := by
  have role : Role.choice.decoder (room + 3, (Value.string m.role.name).doc) = .ok m.role :=
    Role.find_name m.role
  have content : Decoder.list Part.decoder
      (room + 3, (Value.array (m.content.map Part.toValue)).doc) = .ok m.content :=
    Decoder.list_doc Part.decoder Part.toValue (room + 1) m.content
      fun p member => p.decoder_doc room (fits p member)
  exact Json.Record.decoder_pair Message.mk "struct CassetteMessage" "role" "content" (by decide)
    _ _ (room + 2) _ _ m.role m.content role content

end Message

/-- Do the free-form values of a cassette nest at most so many levels, with whole numbers of 64 bits
only? -/
def Fits (c : Cassette) (levels : Nat) : Prop :=
  ∀ m ∈ c.messages, ∀ p ∈ m.content, ∀ d ∈ p.data, d.Fits levels

instance (c : Cassette) (levels : Nat) : Decidable (c.Fits levels) :=
  inferInstanceAs (Decidable (∀ m ∈ c.messages, ∀ p ∈ m.content, ∀ d ∈ p.data, d.Fits levels))

theorem isWhole_toValue (c : Cassette) (levels : Nat) (fits : c.Fits levels) :
    c.toValue.isWhole = true := by
  have messages : (Value.array (c.messages.map Message.toValue)).isWhole = true :=
    Json.isWhole_array_map Message.toValue c.messages
      fun m member => m.isWhole_toValue levels (fits m member)
  rw [toValue, Value.isWhole, Value.fieldsWhole, messages]
  rfl

theorem decoder_doc (c : Cassette) (fits : c.Fits 122) :
    decoder (Json.nestingLimit, c.toValue.doc) = .ok c := by
  have messages : Decoder.list Message.decoder
      (127, (Value.array (c.messages.map Message.toValue)).doc) = .ok c.messages :=
    Decoder.list_doc Message.decoder Message.toValue 125 c.messages
      fun m member => m.decoder_doc 122 (fits m member)
  rw [decoder, toValue]
  refine (Json.Record.decoder_object record _ 126 _).trans ?_
  refine (Json.Record.ofMembers_field record _ _ ((), some c.messages) "messages" _ _ _ rfl
    (by simp only [messages]; rfl)).trans ?_
  rfl

/-- A cassette is read back from its text, in either layout, and written again as that text. The
122 levels are those that a text may have inside a part. -/
theorem read_write_of_fits (c : Cassette) (fits : c.Fits 122) :
    read c.write = .ok c ∧ read c.writePretty = .ok c ∧
      (read c.write).map write = .ok c.write ∧
      (read c.writePretty).map writePretty = .ok c.writePretty := by
  obtain ⟨line, lines⟩ := Json.decode_compact_pretty decoder c c.toValue
    (c.isWhole_toValue 122 fits) (c.decoder_doc fits)
  have compact : read c.write = .ok c := line
  have pretty : read c.writePretty = .ok c := lines
  rw [compact, pretty]
  exact ⟨rfl, rfl, rfl, rfl⟩

section Sample

def calls (result : Option Datum) : Cassette :=
  ⟨[⟨.assistant, [.toolCall "1" "look"
    ⟨.object [("a", .array [.number (.integer (-5))]), ("b", .string "\n")], by decide⟩ result]⟩]⟩

theorem read_write_null_absent :
    (calls (some .null)).Fits 122 ∧ (calls none).Fits 122 ∧
      read (calls (some .null)).writePretty = .ok (calls (some .null)) ∧
      read (calls none).write = .ok (calls none) := by
  have null : (calls (some .null)).Fits 122 := by decide
  have absent : (calls none).Fits 122 := by decide
  exact ⟨null, absent, (read_write_of_fits _ null).2.1, (read_write_of_fits _ absent).1⟩

end Sample

end Playback.Cassette
