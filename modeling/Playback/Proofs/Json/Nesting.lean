import Playback.Proofs.Json.Layout

namespace Playback.Json

namespace Value

mutual

def depth : Value → Nat
  | .null | .bool _ | .number _ | .string _ => 0
  | .array items => itemsDepth items + 1
  | .object fields => fieldsDepth fields + 1

def itemsDepth : List Value → Nat
  | [] => 0
  | x :: xs => max x.depth (itemsDepth xs)

def fieldsDepth : List (String × Value) → Nat
  | [] => 0
  | (_, v) :: rest => max v.depth (fieldsDepth rest)

end

mutual

theorem value_doc : (v : Value) → (room : Nat) → v.depth < room → v.doc.value room = .ok v
  | .null, _, _ | .bool _, _, _ | .number _, _, _ | .string _, _, _ => rfl
  | .array items, room, fits => by
    rw [depth] at fits
    obtain ⟨room, rfl⟩ : ∃ n, room = n + 2 := ⟨room - 2, by omega⟩
    have read := values_items items (room + 1) (by omega)
    simp only [doc, Doc.value, enter, bind, Except.bind, read]
    rfl
  | .object fields, room, fits => by
    rw [depth] at fits
    obtain ⟨room, rfl⟩ : ∃ n, room = n + 2 := ⟨room - 2, by omega⟩
    have read := fields_members fields (room + 1) (by omega)
    simp only [doc, Doc.value, enter, bind, Except.bind, read]
    rfl

theorem values_items : (items : List Value) → (room : Nat) → itemsDepth items < room →
    (Value.items items).values room = .ok items
  | [], _, _ => rfl
  | x :: xs, room, fits => by
    rw [itemsDepth] at fits
    have first := value_doc x room (by omega)
    have others := values_items xs room (by omega)
    simp only [Value.items, Items.values, bind, Except.bind, first, others]
    rfl

theorem fields_members : (fields : List (String × Value)) → (room : Nat) →
    fieldsDepth fields < room → (Value.members fields).fields room = .ok fields
  | [], _, _ => rfl
  | (k, v) :: rest, room, fits => by
    rw [fieldsDepth] at fits
    have first := value_doc v room (by omega)
    have others := fields_members rest room (by omega)
    simp only [Value.members, Members.fields, bind, Except.bind, first, others]
    rfl

end

theorem lt_of_isBelow (key : String) (fields : List (String × Value))
    (below : isBelow key fields = true) (sorted : fieldsSorted fields = true) :
    ∀ field ∈ fields, key < field.1 := by
  induction fields generalizing key with
  | nil => exact fun field none => absurd none List.not_mem_nil
  | cons first rest ih =>
      obtain ⟨k, v⟩ := first
      simp only [fieldsSorted, Bool.and_eq_true] at sorted
      have less : key < k := of_decide_eq_true below
      intro field member
      rcases List.mem_cons.mp member with rfl | later
      · exact less
      · exact String.lt_trans less (ih k sorted.1.1 sorted.2 field later)

theorem insert_of_above (key : String) (v : Value) (sorted : List (String × Value))
    (above : ∀ field ∈ sorted, field.1 < key) : insert key v sorted = sorted ++ [(key, v)] := by
  induction sorted with
  | nil => rfl
  | cons first rest ih =>
      obtain ⟨less, others⟩ := List.forall_mem_cons.mp above
      rw [insert, if_neg (String.lt_asymm less), if_pos less, ih others]
      rfl

mutual

theorem normalize_of_isSorted : (v : Value) → v.isSorted = true → v.normalize = v
  | .null, _ | .bool _, _ | .number _, _ | .string _, _ => rfl
  | .array items, sorted => congrArg array (normalizeItems_of_sorted items sorted)
  | .object fields, sorted =>
    congrArg object (normalizeFields_of_sorted fields sorted [] fun _ none => by cases none)

theorem normalizeItems_of_sorted : (items : List Value) → itemsSorted items = true →
    normalizeItems items = items
  | [], _ => rfl
  | x :: xs, sorted => by
    simp only [itemsSorted, Bool.and_eq_true] at sorted
    rw [normalizeItems, normalize_of_isSorted x sorted.1, normalizeItems_of_sorted xs sorted.2]

theorem normalizeFields_of_sorted : (fields : List (String × Value)) →
    fieldsSorted fields = true → ∀ before : List (String × Value),
      (∀ a ∈ before, ∀ b ∈ fields, a.1 < b.1) →
        normalizeFields before fields = before ++ fields
  | [], _, before, _ => (List.append_nil before).symm
  | (k, v) :: rest, sorted, before, below => by
    simp only [fieldsSorted, Bool.and_eq_true] at sorted
    have above (a : String × Value) (member : a ∈ before) : a.1 < k :=
      below a member (k, v) List.mem_cons_self
    have after : ∀ a ∈ before ++ [(k, v)], ∀ b ∈ rest, a.1 < b.1 := by
      intro a member b later
      rcases List.mem_append.mp member with earlier | last
      · exact below a earlier b (List.mem_cons_of_mem _ later)
      · rw [List.mem_singleton.mp last]
        exact lt_of_isBelow k rest sorted.1.1 sorted.2 b later
    rw [normalizeFields, normalize_of_isSorted v sorted.1.2, insert_of_above k v before above,
      normalizeFields_of_sorted rest sorted.2 _ after, List.append_assoc, List.singleton_append]

end

end Value

namespace Datum

/-- A value that is written and read back exactly where it may nest so many levels: its numbers are
whole numbers of 64 bits. -/
structure Fits (levels : Nat) (d : Datum) : Prop where
  depth : d.value.depth ≤ levels
  whole : d.value.isWhole = true

instance (levels : Nat) (d : Datum) : Decidable (d.Fits levels) :=
  decidable_of_iff (d.value.depth ≤ levels ∧ d.value.isWhole = true)
    ⟨fun both => ⟨both.1, both.2⟩, fun fits => ⟨fits.depth, fits.whole⟩⟩

theorem ofValue_value (d : Datum) : ofValue d.value = d :=
  ext (d.value.normalize_of_isSorted d.sorted)

end Datum

/-- Every field holds a text or one of the given free-form values, and none has the tag's name. -/
def IsPlain (data : List Datum) (fields : List (String × Value)) : Prop :=
  ∀ field ∈ fields, field.1 ≠ tagName ∧
    ((∃ s, field.2 = .string s) ∨ ∃ d ∈ data, field.2 = d.value)

section Plain

variable (data : List Datum) (fields : List (String × Value)) (plain : IsPlain data fields)
  (levels : Nat) (fits : ∀ d ∈ data, d.Fits levels)

include plain fits

theorem tagged_plain (choice : Choice τ) (label name : String) (tag : τ)
    (found : choice.find name = .ok tag) :
    choice.tagged label (levels + 2, (Value.object ((tagName, .string name) :: fields)).doc) =
      .ok (tag, .fields fields) := by
  apply tagged_object choice label name levels tag fields found
  · exact fun field member => (plain field member).1
  · intro field member
    rcases (plain field member).2 with ⟨s, text⟩ | ⟨d, free, value⟩
    · rw [text]
      rfl
    · rw [value]
      exact d.value.value_doc (levels + 1) (Nat.lt_succ_of_le (fits d free).depth)

theorem isWhole_tagged_plain (name : String) :
    (Value.object ((tagName, .string name) :: fields)).isWhole = true := by
  apply fieldsWhole_of_forall
  intro field member
  rcases List.mem_cons.mp member with rfl | member
  · rfl
  · rcases (plain field member).2 with ⟨s, text⟩ | ⟨d, free, value⟩
    · rw [text]
      rfl
    · rw [value]
      exact (fits d free).whole

end Plain

theorem isWhole_array_map (write : α → Value) (xs : List α)
    (all : ∀ x ∈ xs, (write x).isWhole = true) : (Value.array (xs.map write)).isWhole = true := by
  apply itemsWhole_of_forall
  intro v member
  obtain ⟨x, inside, rfl⟩ := List.mem_map.mp member
  exact all x inside

theorem isWhole_object_pair (first label second : String) (write : α → Value) (xs : List α)
    (all : ∀ x ∈ xs, (write x).isWhole = true) :
    (Value.object [(first, .string label), (second, .array (xs.map write))]).isWhole = true := by
  have listed := isWhole_array_map write xs all
  rw [Value.isWhole, Value.fieldsWhole, Value.fieldsWhole, listed]
  rfl

end Playback.Json
