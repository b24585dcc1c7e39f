import Playback.Thread.Assembler

namespace Playback.Thread.Assembler

open Playback.Stream (Event)

theorem applyAll_append (a : Assembler) (first second : List Event) :
    a.applyAll (first ++ second) = (a.applyAll first).applyAll second :=
  List.foldl_append

theorem grow_last_text (parts : List Part) (id t delta : String) :
    (grow ⟨parts ++ [.text t], [(id, parts.length)]⟩ id delta).1 =
      ⟨parts ++ [.text (t ++ delta)], [(id, parts.length)]⟩ := by
  simp [grow]

theorem grow_last_reasoning (parts : List Part) (id t delta : String) :
    (grow ⟨parts ++ [.reasoning t], [(id, parts.length)]⟩ id delta).1 =
      ⟨parts ++ [.reasoning (t ++ delta)], [(id, parts.length)]⟩ := by
  simp [grow]

section Typed

variable (id : String) (make : String → Part) (delta : String → Event)
  (grows : ∀ parts t d, (apply ⟨parts ++ [make t], [(id, parts.length)]⟩ (delta d)).1 =
    ⟨parts ++ [make (t ++ d)], [(id, parts.length)]⟩)

include grows

theorem applyAll_deltas (parts : List Part) (t : String) (chars : List Char) :
    applyAll ⟨parts ++ [make t], [(id, parts.length)]⟩
        (chars.map fun c => delta (String.singleton c)) =
      ⟨parts ++ [make (t ++ String.ofList chars)], [(id, parts.length)]⟩ := by
  induction chars generalizing t with
  | nil =>
      rw [String.ofList_nil, String.append_empty]
      rfl
  | cons c rest ih =>
      have longer : t ++ String.singleton c ++ String.ofList rest =
          t ++ String.ofList (c :: rest) := by
        rw [String.append_assoc, String.singleton_eq_ofList, ← String.ofList_append]
        rfl
      have step : applyAll ⟨parts ++ [make t], [(id, parts.length)]⟩
            ((c :: rest).map fun c => delta (String.singleton c)) =
          applyAll ⟨parts ++ [make (t ++ String.singleton c)], [(id, parts.length)]⟩
            (rest.map fun c => delta (String.singleton c)) := by
        rw [← grows parts t (String.singleton c)]
        rfl
      rw [step, ih, longer]

/-- Between parts nothing grows, so an id that was used before does no harm. -/
theorem applyAll_typed (start stop : Event)
    (starts : ∀ a : Assembler, (a.apply start).1 = a.start id (make ""))
    (stops : ∀ a : Assembler, (a.apply stop).1 = a.stop id) (parts : List Part) (text : String) :
    applyAll ⟨parts, []⟩
        (start :: (text.toList.map fun c => delta (String.singleton c)) ++ [stop]) =
      ⟨parts ++ [make text], []⟩ := by
  have first : applyAll ⟨parts, []⟩ [start] = ⟨parts ++ [make ""], [(id, parts.length)]⟩ :=
    starts ⟨parts, []⟩
  have last : applyAll ⟨parts ++ [make text], [(id, parts.length)]⟩ [stop] =
      ⟨parts ++ [make text], []⟩ := by
    calc
      _ = Assembler.stop ⟨parts ++ [make text], [(id, parts.length)]⟩ id := stops _
      _ = ⟨parts ++ [make text], []⟩ := by simp [Assembler.stop]
  have typed := applyAll_deltas id make delta grows parts "" text.toList
  rw [String.empty_append, String.ofList_toList] at typed
  rw [← List.singleton_append, applyAll_append, applyAll_append, first, typed, last]

end Typed

end Playback.Thread.Assembler
