import Playback.Proofs.Thread.Assembler
import Mathlib.Data.List.Basic

namespace Playback.Thread

open Playback.Stream (Event)

namespace Part

def text? : Part → Option String
  | text t => some t
  | _ => none

end Part

def texts (parts : List Part) : List String := parts.filterMap Part.text?

namespace Assembler

def AddsPart : Event → Prop
  | .textStart _ | .reasoningStart _ | .toolInput .. => True
  | _ => False

/-- Every part begins when no other is growing. -/
def Orderly : Assembler → List Event → Prop
  | _, [] => True
  | a, e :: rest => (AddsPart e → a.growing = []) ∧ Orderly (a.apply e).1 rest

theorem orderly_append (a : Assembler) (first second : List Event) :
    Orderly a (first ++ second) ↔ Orderly a first ∧ Orderly (a.applyAll first) second := by
  induction first generalizing a with
  | nil => simp [Orderly, applyAll]
  | cons e first ih => simp only [List.cons_append, Orderly, ih, and_assoc]; rfl

theorem orderly_of_adds_none (a : Assembler) (events : List Event)
    (none : ∀ e ∈ events, ¬ AddsPart e) : a.Orderly events := by
  induction events generalizing a with
  | nil => trivial
  | cons e events ih =>
      obtain ⟨first, others⟩ := List.forall_mem_cons.mp none
      exact ⟨fun adds => absurd adds first, ih _ others⟩

theorem orderly_typed (parts : List Part) (start stop : Event) (delta : String → Event)
    (text : String) (grows : ∀ d, ¬ AddsPart (delta d)) (stops : ¬ AddsPart stop) :
    Orderly ⟨parts, []⟩
      (start :: (text.toList.map fun c => delta (String.singleton c)) ++ [stop]) := by
  refine ⟨fun _ => rfl, orderly_of_adds_none _ _ ?_⟩
  intro e mem
  rcases List.mem_append.mp mem with typed | last
  · obtain ⟨c, -, rfl⟩ := List.mem_map.mp typed
    exact grows _
  · rw [List.mem_singleton.mp last]
    exact stops

def GrowsLast (a : Assembler) : Prop := ∀ p ∈ a.growing, p.2 + 1 = a.parts.length

/-- What an event does when only the last part is growing: it begins a part, or lets the last one
grow if that is a text, or leaves all texts as they are. -/
inductive Change (a : Assembler) : Assembler × Option Nat → Prop
  | begun (p : Part) (growing : List (String × Nat)) (blank : p.text?.getD "" = "")
      (new : ∀ q ∈ growing, q.2 = a.parts.length) : Change a (⟨a.parts ++ [p], growing⟩, none)
  | grown (early : List Part) (t delta : String) (whole : a.parts = early ++ [.text t]) :
      Change a (⟨early ++ [.text (t ++ delta)], a.growing⟩, some early.length)
  | kept (b : Assembler) (same : b.parts.map Part.text? = a.parts.map Part.text?)
      (fewer : b.growing ⊆ a.growing) : Change a (b, none)

theorem change_grow (a : Assembler) (id delta : String) (last : a.GrowsLast) :
    Change a (a.grow id delta) := by
  unfold grow
  cases found : a.growing.lookup id with
  | none => exact .kept a rfl (List.Subset.refl _)
  | some i =>
      obtain ⟨left, right, shape, -⟩ := List.lookup_eq_some_iff.mp found
      have isLast : i + 1 = a.parts.length := last (id, i) (by simp [shape])
      obtain ⟨parts, growing⟩ := a
      rcases List.eq_nil_or_concat parts with rfl | ⟨early, p, rfl⟩
      · simp at isLast
      · simp only [List.concat_eq_append, List.length_append, List.length_singleton,
          Nat.add_right_cancel_iff] at isLast ⊢
        subst isLast
        rw [List.getElem?_concat_length]
        cases p with
        | text t =>
            simp only [List.set_append_right _ _ (Nat.le_refl _), Nat.sub_self, List.set_cons_zero]
            exact .grown early t delta rfl
        | reasoning t =>
            simp only [List.set_append_right _ _ (Nat.le_refl _), Nat.sub_self, List.set_cons_zero]
            refine .kept _ ?_ (List.Subset.refl _)
            simp [Part.text?]
        | toolCall call tool args result => exact .kept _ rfl (List.Subset.refl _)
        | image i => exact .kept _ rfl (List.Subset.refl _)

theorem text?_answered (call : String) (output : Json.Datum) (p : Part) :
    (answered call output p).text? = p.text? := by
  cases p <;> rfl

theorem change_apply (a : Assembler) (e : Event) (last : a.GrowsLast)
    (order : AddsPart e → a.growing = []) : Change a (a.apply e) := by
  cases e with
  | textStart id =>
      have idle := order trivial
      refine .begun (.text "") _ rfl ?_
      simp [idle]
  | reasoningStart id =>
      have idle := order trivial
      refine .begun (.reasoning "") _ rfl ?_
      simp [idle]
  | toolInput call tool input =>
      have idle := order trivial
      refine .begun (.toolCall call tool input none) _ rfl ?_
      simp [idle]
  | textDelta id delta => exact change_grow a id delta last
  | reasoningDelta id delta => exact change_grow a id delta last
  | textEnd id => exact .kept _ rfl (List.filter_sublist.subset)
  | reasoningEnd id => exact .kept _ rfl (List.filter_sublist.subset)
  | toolOutput call output =>
      refine .kept _ ?_ (List.Subset.refl _)
      simp [Function.comp_def, text?_answered]

end Assembler

end Playback.Thread
