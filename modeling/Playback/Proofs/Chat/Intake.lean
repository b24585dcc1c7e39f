import Playback.Proofs.Chat.Conversation
import Playback.Proofs.Agents.Delivery
import Playback.Proofs.Thread.Order

namespace Playback

namespace Agents.Store

def takeTexts (s : Store) (texts : List String) : Store :=
  texts.foldl (fun s text => (s.processWith .empty text).1) s

theorem takeTexts_append (s : Store) (first second : List String) :
    s.takeTexts (first ++ second) = (s.takeTexts first).takeTexts second :=
  List.foldl_append

theorem takeTexts_congr (texts : List String) (s u : Store) (alike : s.unstamped = u.unstamped) :
    (s.takeTexts texts).unstamped = (u.takeTexts texts).unstamped := by
  induction texts generalizing s u with
  | nil => exact alike
  | cons text texts ih =>
      apply ih
      simp only [processWith_eq]
      exact handleAll_congr _ s u alike

theorem takeTexts_empty (s : Store) : s.takeTexts [""] = s := by
  have none : (Marker.parse "").events = [] := rfl
  change (s.processWith .empty "").1 = s
  rw [processWith_eq, none]
  rfl

end Agents.Store

namespace Chat

open Playback.Stream (Event)
open Agents (Store Tracker)
open Thread (Assembler Part texts)

def Tracks (tracker : Tracker) (text : String) : Prop :=
  tracker = (Tracker.empty.take (Agents.Marker.parse text).events).1

/-- The store has taken what the texts assembled so far come to, and the tracker of the part that
may still grow knows what it has taken of that. -/
structure Intake.InStep (base : Store) (i : Intake) : Prop where
  store : i.store.map Store.unstamped = some (base.takeTexts (texts i.assembler.parts)).unstamped
  growsLast : i.assembler.GrowsLast
  tracker : ∀ early t, i.assembler.parts.map Part.text? = early ++ [some t] →
    Tracks ((i.trackers.lookup early.length).getD .empty) t
  fresh : ∀ k, i.assembler.parts.length ≤ k → i.trackers.lookup k = none

namespace Intake

theorem take_of_none (i : Intake) (clock : Instant) (e : Event) (b : Assembler)
    (applied : i.assembler.apply e = (b, none)) : i.take clock e = { i with assembler := b } := by
  unfold take
  rw [applied]
  cases i.store <;> rfl

theorem take_of_some (i : Intake) (clock : Instant) (e : Event) (b : Assembler) (k : Nat)
    (s : Store) (t : String) (applied : i.assembler.apply e = (b, some k))
    (present : i.store = some s) (text : b.textAt k = some t) :
    ∃ dropped, i.take clock e =
      let taken := (s.atTime clock s.seed).processWith ((i.trackers.lookup k).getD .empty) t
      ⟨b, (k, taken.2.1) :: i.trackers.filter (·.1 ≠ k), some taken.1, dropped⟩ := by
  refine ⟨i.dropped ++ (Agents.Marker.parse t).dropped, ?_⟩
  unfold take
  rw [applied, present]
  simp only [text, Option.getD_some]
  rfl

theorem takeTexts_blank (s : Store) (p : Part) (blank : p.text?.getD "" = "") :
    s.takeTexts (texts [p]) = s := by
  cases shown : p.text? with
  | none =>
      have nothing : texts [p] = [] := by simp [texts, shown]
      rw [nothing]
      rfl
  | some t =>
      rw [shown, Option.getD_some] at blank
      have one : texts [p] = [""] := by simp [texts, shown, blank]
      rw [one, Store.takeTexts_empty]

theorem takeTexts_text (s : Store) (early : List Part) (t : String) :
    s.takeTexts (texts (early ++ [.text t])) =
      (s.takeTexts (texts early)).handleAll
        (Tracker.empty.take (Agents.Marker.parse t).events).2 := by
  have added : texts (early ++ [.text t]) = texts early ++ [t] := List.filterMap_append
  rw [added, Store.takeTexts_append]
  change (Store.processWith _ .empty t).1 = _
  rw [Store.processWith_eq]

theorem inStep_begun (base : Store) (i : Intake) (h : i.InStep base) (p : Part)
    (growing : List (String × Nat)) (blank : p.text?.getD "" = "")
    (new : ∀ q ∈ growing, q.2 = i.assembler.parts.length) :
    InStep base { i with assembler := ⟨i.assembler.parts ++ [p], growing⟩ } := by
  constructor
  · have added : texts (i.assembler.parts ++ [p]) = texts i.assembler.parts ++ texts [p] :=
      List.filterMap_append
    change i.store.map _ = some (base.takeTexts (texts (i.assembler.parts ++ [p]))).unstamped
    rw [added, Store.takeTexts_append, takeTexts_blank _ p blank]
    exact h.store
  · intro q mem
    simp [new q mem]
  · intro early t shape
    rw [List.map_append, List.map_singleton] at shape
    obtain ⟨rfl, isText⟩ := List.append_inj' shape rfl
    obtain rfl : t = "" := by
      rw [List.singleton_inj.mp isText] at blank
      exact blank
    rw [List.length_map, h.fresh _ (Nat.le_refl _)]
    rfl
  · intro k beyond
    rw [List.length_append] at beyond
    exact h.fresh k (Nat.le_of_add_right_le beyond)

/-- A scan of the grown text adds to the store what a scan of the whole adds to that of what was
there. -/
theorem inStep_grown (base : Store) (i : Intake) (h : i.InStep base) (clock : Instant) (e : Event)
    (early : List Part) (t delta : String) (whole : i.assembler.parts = early ++ [.text t])
    (applied : i.assembler.apply e =
      (⟨early ++ [.text (t ++ delta)], i.assembler.growing⟩, some early.length)) :
    InStep base (i.take clock e) := by
  obtain ⟨s, present, same⟩ := Option.map_eq_some_iff.mp h.store
  have text : Assembler.textAt ⟨early ++ [.text (t ++ delta)], i.assembler.growing⟩ early.length =
      some (t ++ delta) := by
    simp [Assembler.textAt]
  obtain ⟨dropped, taken⟩ := take_of_some i clock e _ _ s (t ++ delta) applied present text
  have tracked : Tracks ((i.trackers.lookup early.length).getD .empty) t := by
    have known := h.tracker (early.map Part.text?) t (by simp [whole, Part.text?])
    rwa [List.length_map] at known
  have begins : (Agents.Marker.parse t).events <+: (Agents.Marker.parse (t ++ delta)).events :=
    Agents.Marker.parse_events_prefix t (t ++ delta) ⟨delta.toList, by simp⟩
  -- What was known of the text and what is new in it make up one scan of the grown text.
  obtain ⟨trackers, fresh⟩ := Tracker.take_grown .empty _ _ begins
  rw [taken, tracked]
  simp only [Store.processWith_eq]
  constructor
  · rw [Option.map_some, takeTexts_text, ← fresh, Store.handleAll_append, ← takeTexts_text, ← whole]
    exact congrArg some (Store.handleAll_congr _ _ _ same)
  · intro q mem
    have isLast := h.growsLast q mem
    simpa [whole] using isLast
  · intro early' t' shape
    rw [List.map_append, List.map_singleton] at shape
    obtain ⟨rfl, isText⟩ := List.append_inj' shape rfl
    obtain rfl : t ++ delta = t' := by simpa [Part.text?] using isText
    rw [List.length_map, List.lookup_cons_self, Option.getD_some]
    exact trackers
  · intro k beyond
    simp only [List.length_append, List.length_singleton] at beyond
    have other : (k == early.length) = false := by simp; omega
    have absent := h.fresh k (by simpa [whole] using beyond)
    rw [List.lookup_cons, other]
    rw [List.lookup_eq_none_iff] at absent ⊢
    intro p mem
    exact absent p (List.mem_of_mem_filter mem)

theorem inStep_kept (base : Store) (i : Intake) (h : i.InStep base) (b : Assembler)
    (same : b.parts.map Part.text? = i.assembler.parts.map Part.text?)
    (fewer : b.growing ⊆ i.assembler.growing) : InStep base { i with assembler := b } := by
  have length : b.parts.length = i.assembler.parts.length := by
    simpa using congrArg List.length same
  have sameTexts : texts b.parts = texts i.assembler.parts := by
    have both := congrArg (List.filterMap id) same
    simpa [texts, List.filterMap_map] using both
  constructor
  · rw [sameTexts]
    exact h.store
  · intro q mem
    rw [length]
    exact h.growsLast q (fewer mem)
  · intro early t shape
    exact h.tracker early t (same ▸ shape)
  · intro k beyond
    exact h.fresh k (length ▸ beyond)

theorem inStep_take (base : Store) (i : Intake) (h : i.InStep base) (clock : Instant) (e : Event)
    (order : Assembler.AddsPart e → i.assembler.growing = []) : InStep base (i.take clock e) := by
  have change := i.assembler.change_apply e h.growsLast order
  generalize applied : i.assembler.apply e = next at change
  cases change with
  | begun p growing blank new =>
      rw [take_of_none i clock e _ applied]
      exact inStep_begun base i h p growing blank new
  | grown early t delta whole => exact inStep_grown base i h clock e early t delta whole applied
  | kept b same fewer =>
      rw [take_of_none i clock e b applied]
      exact inStep_kept base i h b same fewer

theorem inStep_takeAll (base : Store) (i : Intake) (h : i.InStep base) (origin : Instant)
    (events : List (Nat × Event)) (order : i.assembler.Orderly (events.map (·.2))) :
    InStep base (i.takeAll origin events) := by
  induction events generalizing i with
  | nil => exact h
  | cons p rest ih =>
      obtain ⟨first, others⟩ := order
      have step := inStep_take base i h (origin.plusMillis p.1) p.2 first
      apply ih _ step
      rw [take_assembler]
      exact others

end Intake

end Chat

end Playback
