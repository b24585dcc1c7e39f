import Playback.Agents.Marker
import Playback.Proofs.Json.Scan

namespace Playback.Agents

open Json (Value IsEscape Reads)

namespace Event

theorem fields_flat (e : Event) : ∀ field ∈ e.fields, field.1 ≠ Json.tagName ∧
    ((∃ s, field.2 = .string s) ∨ ∃ b, field.2 = .bool b) := by
  cases e with
  | spawn agent parent name description task =>
      cases parent <;> simp [fields, Value.field?, Json.tagName]
  | delta agent content => simp [fields, Json.tagName]
  | toolCall agent call tool => simp [fields, Json.tagName]
  | toolResult agent call result isError => simp [fields, Json.tagName]
  | complete agent status result error =>
      cases result <;> cases error <;> simp [fields, Value.field?, Json.tagName]

theorem ofFields_fields (e : Event) :
    (record e.kind).2.ofFields (record e.kind).2.empty e.fields = .ok e := by
  cases e with
  | spawn agent parent name description task => cases parent <;> rfl
  | delta agent content => rfl
  | toolCall agent call tool => rfl
  | toolResult agent call result isError => rfl
  | complete agent status result error => cases result <;> cases error <;> cases status <;> rfl

theorem find_name (kind : Kind) : Kind.choice.find kind.name = .ok kind := by
  cases kind <;> rfl

theorem tagged_doc (e : Event) (label : String) :
    Kind.choice.tagged label (Json.nestingLimit, e.toValue.doc) =
      .ok (e.kind, .fields e.fields) := by
  have untagged (field : String × Value) (mem : field ∈ e.fields) : field.1 ≠ Json.tagName :=
    (e.fields_flat field mem).1
  have read (field : String × Value) (mem : field ∈ e.fields) :
      field.2.doc.value 127 = .ok field.2 := by
    rcases (e.fields_flat field mem).2 with ⟨s, text⟩ | ⟨b, truth⟩
    · rw [text]
      rfl
    · rw [truth]
      rfl
  exact Json.tagged_object Kind.choice label e.kind.name 126 e.kind e.fields (find_name e.kind)
    untagged read

theorem decoder_doc (e : Event) : decoder (Json.nestingLimit, e.toValue.doc) = .ok e := by
  simp only [decoder, bind, Except.bind, tagged_doc]
  exact ofFields_fields e

section Escape

variable {escape : Char → List Char} (sound : IsEscape escape)

include sound

theorem reads_write (e : Event) : Reads (e.toValue.write.flatMap escape) e.toValue.doc := by
  apply Json.reads_object sound
  intro field mem
  rcases List.mem_cons.mp mem with rfl | mem
  · exact Json.reads_string sound e.kind.name
  · obtain ⟨key, value⟩ := field
    rcases (e.fields_flat _ mem).2 with ⟨s, rfl⟩ | ⟨b, rfl⟩
    · exact Json.reads_string sound s
    · exact Json.reads_bool sound b

theorem read_write (e : Event) : read (String.ofList (e.toValue.write.flatMap escape)) = .ok e :=
  Json.decode_of_reads decoder e _ _ (reads_write sound e) (decoder_doc e)

end Escape

end Event

namespace Marker

theorem escape_digitChar : ∀ n < 16, escape (Nat.digitChar n) = [Nat.digitChar n] := by decide

/-- The second escape takes the characters that the first one leaves, and no others. -/
theorem flatMap_escape_escapeChar (c : Char) :
    (Json.escapeChar c).flatMap escape =
      if c = '<' ∨ c = '>' ∨ c = '&' then escape c else Json.escapeChar c := by
  by_cases markup : c = '<' ∨ c = '>' ∨ c = '&'
  · rw [if_pos markup]
    rcases markup with rfl | rfl | rfl <;> rfl
  · rw [if_neg markup]
    unfold Json.escapeChar
    split_ifs with quote slash back tab line page turn control
    any_goals rfl
    · have high := escape_digitChar (c.toNat / 16) (by omega)
      have low := escape_digitChar (c.toNat % 16) (by omega)
      simp only [List.flatMap_cons, high, low]
      rfl
    · rw [List.flatMap_singleton]
      unfold escape
      split <;> simp_all

theorem isEscape_escape : IsEscape escape where
  kept := by simp [Json.marks, escape]
  read c read rest := by
    rw [flatMap_escape_escapeChar]
    split
    case isTrue markup =>
      rcases markup with rfl | rfl | rfl
      · exact Json.scanString_unit read rest '0' '0' '3' 'c' 0x3c rfl rfl rfl
      · exact Json.scanString_unit read rest '0' '0' '3' 'e' 0x3e rfl rfl rfl
      · exact Json.scanString_unit read rest '0' '0' '2' '6' 0x26 rfl rfl rfl
    case isFalse => exact Json.scanString_escapeChar c read rest

def payload (e : Event) : List Char := e.toValue.write.flatMap escape

theorem toList_encode (e : Event) : (encode e).toList = opening ++ payload e ++ closing :=
  String.toList_ofList

theorem read_payload (e : Event) : Event.read (String.ofList (payload e)) = .ok e :=
  Event.read_write isEscape_escape e

/-- The angle brackets of the delimiters do not stand in a payload. -/
theorem bracket_notMem_payload (e : Event) : '<' ∉ payload e ∧ '>' ∉ payload e := by
  have escaped (c : Char) : '<' ∉ escape c ∧ '>' ∉ escape c := by
    unfold escape
    split <;> simp_all [eq_comm]
  constructor <;>
  · intro mem
    obtain ⟨c, -, mem⟩ := List.mem_flatMap.mp mem
    exact absurd mem (by simp [escaped])

end Marker

end Playback.Agents
