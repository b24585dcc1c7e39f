import Playback.Json.Value

namespace Playback.Json

namespace Value

/-- Files a value under a key in a list of increasing keys, in place of one that is there. -/
def insert (key : String) (value : Value) : List (String × Value) → List (String × Value)
  | [] => [(key, value)]
  | (k, v) :: rest =>
    if key < k then (key, value) :: (k, v) :: rest
    else if k < key then (k, v) :: insert key value rest
    else (k, value) :: rest

mutual

def normalize : Value → Value
  | .array items => .array (normalizeItems items)
  | .object fields => .object (normalizeFields [] fields)
  | .null => .null
  | .bool b => .bool b
  | .number n => .number n
  | .string s => .string s

def normalizeItems : List Value → List Value
  | [] => []
  | x :: xs => normalize x :: normalizeItems xs

def normalizeFields (sorted : List (String × Value)) :
    List (String × Value) → List (String × Value)
  | [] => sorted
  | (k, v) :: rest => normalizeFields (insert k (normalize v) sorted) rest

end

def isBelow (key : String) : List (String × Value) → Bool
  | [] => true
  | (k, _) :: _ => key < k

mutual

def isSorted : Value → Bool
  | .array items => itemsSorted items
  | .object fields => fieldsSorted fields
  | .null | .bool _ | .number _ | .string _ => true

def itemsSorted : List Value → Bool
  | [] => true
  | x :: xs => isSorted x && itemsSorted xs

def fieldsSorted : List (String × Value) → Bool
  | [] => true
  | (k, v) :: rest => isBelow k rest && isSorted v && fieldsSorted rest

end

theorem isBelow_insert (k key : String) (v : Value) (rest : List (String × Value))
    (hk : k < key) (h : isBelow k rest = true) : isBelow k (insert key v rest) = true := by
  cases rest with
  | nil => simpa [insert, isBelow] using hk
  | cons head tail =>
    obtain ⟨l, w⟩ := head
    simp only [insert]
    split
    · simpa [isBelow] using hk
    · split
      · simpa [isBelow] using h
      · simpa [isBelow] using h

theorem fieldsSorted_insert (key : String) (v : Value) (fields : List (String × Value))
    (hv : isSorted v = true) (h : fieldsSorted fields = true) :
    fieldsSorted (insert key v fields) = true := by
  induction fields with
  | nil => simp [insert, fieldsSorted, isBelow, hv]
  | cons head rest ih =>
    obtain ⟨k, w⟩ := head
    simp only [fieldsSorted, Bool.and_eq_true] at h
    simp only [insert]
    split
    next hlt =>
      simp only [fieldsSorted, Bool.and_eq_true]
      exact ⟨⟨by simpa [isBelow] using hlt, hv⟩, h⟩
    next =>
      split
      next hlt =>
        simp [fieldsSorted, h.1.2, ih h.2, isBelow_insert k key v rest hlt h.1.1]
      next => simp [fieldsSorted, hv, h]

mutual

theorem isSorted_normalize : (v : Value) → isSorted (normalize v) = true
  | .null | .bool _ | .number _ | .string _ => rfl
  | .array items => by
    simpa [normalize, isSorted] using itemsSorted_normalizeItems items
  | .object fields => by
    simpa [normalize, isSorted] using fieldsSorted_normalizeFields [] fields rfl

theorem itemsSorted_normalizeItems :
    (items : List Value) → itemsSorted (normalizeItems items) = true
  | [] => rfl
  | x :: xs => by
    simp [normalizeItems, itemsSorted, isSorted_normalize x, itemsSorted_normalizeItems xs]

theorem fieldsSorted_normalizeFields (sorted : List (String × Value)) :
    (fields : List (String × Value)) → fieldsSorted sorted = true →
      fieldsSorted (normalizeFields sorted fields) = true
  | [], h => h
  | (k, v) :: rest, h =>
    fieldsSorted_normalizeFields _ rest (fieldsSorted_insert k _ sorted (isSorted_normalize v) h)

end

end Value

structure Datum where
  value : Value
  sorted : value.isSorted = true := by rfl

namespace Datum

theorem ext {a b : Datum} (h : a.value = b.value) : a = b := by
  cases a; cases b; cases h; rfl

instance : DecidableEq Datum := fun a b =>
  if h : a.value = b.value then isTrue (ext h) else isFalse fun e => h (congrArg value e)

instance : Repr Datum := ⟨fun d n => reprPrec d.value n⟩

def ofValue (v : Value) : Datum := ⟨v.normalize, v.isSorted_normalize⟩

def null : Datum := ⟨.null, rfl⟩

instance : Inhabited Datum := ⟨null⟩

end Datum

end Playback.Json
