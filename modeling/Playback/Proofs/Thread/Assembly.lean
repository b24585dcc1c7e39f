import Playback.Proofs.Thread.Order

/-!
What an assembler makes of any stream, read off the stream itself. Ids may be used again, be unknown
or stay open, and a delta may be of the other kind than the part that it goes to.
-/

namespace Playback

namespace Stream.Event

def marks (id : String) : Event → Bool
  | .textStart k | .textEnd k | .reasoningStart k | .reasoningEnd k => k = id
  | _ => false

def delta? (id : String) : Event → Option String
  | .textDelta k delta | .reasoningDelta k delta => if k = id then some delta else none
  | _ => none

def output? (call : String) : Event → Option Json.Datum
  | .toolOutput k output => if k = call then some output else none
  | _ => none

end Stream.Event

namespace Thread

open Playback.Stream (Event)

def textUnder (id : String) (later : List Event) : String :=
  String.join ((later.takeWhile (!·.marks id)).filterMap (·.delta? id))

def lastOutput (call : String) (later : List Event) : Option Json.Datum :=
  (later.filterMap (·.output? call)).getLast?

/-- The part that an event begins, as the events behind it leave it. -/
def begun? (later : List Event) : Event → Option Part
  | .textStart id => some (.text (textUnder id later))
  | .reasoningStart id => some (.reasoning (textUnder id later))
  | .toolInput call tool input => some (.toolCall call tool input (lastOutput call later))
  | _ => none

/-- The parts that a stream tells, in the order of the events that begin them. -/
def assembled : List Event → List Part
  | [] => []
  | e :: later => (begun? later e).toList ++ assembled later

theorem textUnder_cons (id : String) (e : Event) (later : List Event) :
    textUnder id (e :: later) =
      if e.marks id then "" else (e.delta? id).getD "" ++ textUnder id later := by
  unfold textUnder
  cases mark : e.marks id with
  | true => simp [mark]
  | false => cases delta : e.delta? id <;> simp [mark, delta]

theorem getLast?_filterMap_cons {α β : Type} (f : α → Option β) (x : α) (rest : List α) :
    ((x :: rest).filterMap f).getLast? = ((rest.filterMap f).getLast?).or (f x) := by
  rw [List.getLast?_filterMap, List.reverse_cons, List.findSome?_append, List.getLast?_filterMap,
    List.findSome?_singleton]

theorem lastOutput_cons (call : String) (e : Event) (later : List Event) :
    lastOutput call (e :: later) = (lastOutput call later).or (e.output? call) :=
  getLast?_filterMap_cons (Event.output? call) e later

def beginning? : Event → Option (Part × Option String)
  | .textStart id => some (.text "", some id)
  | .reasoningStart id => some (.reasoning "", some id)
  | .toolInput call tool input => some (.toolCall call tool input none, none)
  | _ => none

def Part.filled (name : Option String) (events : List Event) : Part → Part
  | .text t => .text (t ++ name.elim "" (textUnder · events))
  | .reasoning t => .reasoning (t ++ name.elim "" (textUnder · events))
  | .toolCall call tool args result =>
    .toolCall call tool args ((lastOutput call events).or result)
  | .image i => .image i

theorem begun?_eq (later : List Event) (e : Event) :
    begun? later e = (beginning? e).map fun (p, name) => p.filled name later := by
  cases e <;> simp [begun?, beginning?, Part.filled]

theorem length_assembled_cons (e : Event) (later : List Event) :
    (assembled (e :: later)).length =
      (beginning? e).toList.length + (assembled later).length := by
  rw [assembled, List.length_append, begun?_eq]
  cases beginning? e <;> rfl

theorem getElem?_assembled (before : List Event) (e : Event) (later : List Event) (p : Part)
    (begins : begun? later e = some p) :
    (assembled (before ++ e :: later))[(assembled before).length]? = some p := by
  induction before with
  | nil => simp [assembled, begins]
  | cons x before ih =>
      rw [length_assembled_cons, List.cons_append, assembled, begun?_eq]
      cases beginning? x with
      | none => simpa using ih
      | some _ => simpa [Nat.add_comm 1] using ih

theorem exists_beginning (events : List Event) (i : Nat) (bound : i < (assembled events).length) :
    ∃ before e later, events = before ++ e :: later ∧ (assembled before).length = i ∧
      (beginning? e).isSome = true := by
  induction events generalizing i with
  | nil => cases bound
  | cons e events ih =>
      rw [length_assembled_cons] at bound
      cases begins : beginning? e with
      | none =>
          obtain ⟨before, x, later, split, place, starts⟩ := ih i (by simpa [begins] using bound)
          refine ⟨e :: before, x, later, congrArg (e :: ·) split, ?_, starts⟩
          simp [length_assembled_cons, begins, place]
      | some _ =>
          cases i with
          | zero => exact ⟨[], e, events, rfl, rfl, by simp [begins]⟩
          | succ i =>
              have less : i < (assembled events).length := by
                simp only [begins, Option.toList_some, List.length_singleton] at bound
                omega
              obtain ⟨before, x, later, split, place, starts⟩ := ih i less
              refine ⟨e :: before, x, later, congrArg (e :: ·) split, ?_, starts⟩
              simp [length_assembled_cons, begins, place, Nat.add_comm 1]

def nameAfter (name : Option String) (e : Event) : Option String := name.filter (!e.marks ·)

theorem nameAfter_eq_some_iff (name : Option String) (e : Event) (id : String) :
    nameAfter name e = some id ↔ name = some id ∧ e.marks id = false := by
  rw [nameAfter, Option.filter_eq_some_iff, Bool.not_eq_true']

theorem filled_nil (name : Option String) (p : Part) : p.filled name [] = p := by
  cases p <;> cases name <;> simp [Part.filled, textUnder, lastOutput]

theorem filled_cons (name : Option String) (e : Event) (later : List Event) (p : Part) :
    p.filled name (e :: later) = (p.filled name [e]).filled (nameAfter name e) later := by
  have text : name.elim "" (textUnder · (e :: later)) =
      name.elim "" (textUnder · [e]) ++ (nameAfter name e).elim "" (textUnder · later) := by
    cases name with
    | none => rfl
    | some id =>
        have nothing : textUnder id [] = "" := rfl
        cases mark : e.marks id <;> simp [nameAfter, Option.filter, textUnder_cons, mark, nothing]
  cases p with
  | text t => simp [Part.filled, text, String.append_assoc]
  | reasoning t => simp [Part.filled, text, String.append_assoc]
  | toolCall call tool args result =>
      have unanswered : lastOutput call [] = none := rfl
      simp [Part.filled, lastOutput_cons, unanswered, Option.or_assoc]
  | image i => rfl

theorem filled_of_silent (name : Option String) (e : Event) (p : Part)
    (adds : ∀ id, name = some id → e.delta? id = none)
    (answers : ∀ call, e.output? call = none) : p.filled name [e] = p := by
  have text : name.elim "" (textUnder · [e]) = "" := by
    cases name with
    | none => rfl
    | some id =>
        have nothing : textUnder id [] = "" := rfl
        simp [textUnder_cons, adds id rfl, nothing]
  have output (call : String) : lastOutput call [e] = none := by
    simp [lastOutput, answers call]
  cases p <;> simp [Part.filled, text, output]

namespace Assembler

/-- A part at its index, and the id under which it grows, if there is one. -/
structure Holds (a : Assembler) (i : Nat) (name : Option String) (p : Part) : Prop where
  part : a.parts[i]? = some p
  named : ∀ id, a.growing.lookup id = some i ↔ name = some id

theorem lookup_start (growing : List (String × Nat)) (id : String) (i : Nat) (k : String) :
    ((id, i) :: growing).lookup k = if id = k then some i else growing.lookup k := by
  by_cases own : id = k
  · subst own
    simp
  · have other : (k == id) = false := beq_eq_false_iff_ne.mpr (Ne.symm own)
    simp [own, List.lookup_cons, other]

theorem lookup_stop (growing : List (String × Nat)) (id k : String) :
    (growing.filter (·.1 ≠ id)).lookup k = if id = k then none else growing.lookup k := by
  induction growing with
  | nil => simp
  | cons entry growing ih =>
      obtain ⟨name, i⟩ := entry
      rw [lookup_start]
      by_cases own : name = id
      · subst own
        rw [List.filter_cons_of_neg (by simp), ih]
        by_cases found : name = k <;> simp [found]
      · rw [List.filter_cons_of_pos (by simpa using own), lookup_start, ih]
        by_cases found : name = k
        · subst found
          simp [Ne.symm own]
        · simp [found]

theorem growing_grow (a : Assembler) (id delta : String) :
    (a.grow id delta).1.growing = a.growing := by
  unfold grow
  repeat' split
  all_goals rfl

section Step

variable (a : Assembler) (i : Nat) (name : Option String) (p : Part)

theorem part_grow (id delta : String) (holds : a.Holds i name p) :
    (a.grow id delta).1.parts[i]? = some (p.filled name [.textDelta id delta]) := by
  have named := holds.named id
  by_cases own : name = some id
  · have found := named.mpr own
    have nothing : textUnder id [] = "" := rfl
    have added : textUnder id [.textDelta id delta] = delta := by
      simp [textUnder_cons, Event.marks, Event.delta?, nothing]
    obtain ⟨bound, -⟩ := List.getElem?_eq_some_iff.mp holds.part
    have set (q : Part) : (a.parts.set i q)[i]? = some q := List.getElem?_set_self bound
    subst own
    unfold grow
    rw [found]
    dsimp only
    rw [holds.part]
    cases p with
    | text t => simp [Part.filled, added, set]
    | reasoning t => simp [Part.filled, added, set]
    | toolCall call tool args result =>
        simp [Part.filled, lastOutput, Event.output?, holds.part]
    | image image => exact holds.part
  · have silent : p.filled name [.textDelta id delta] = p := by
      apply filled_of_silent
      · rintro k rfl
        have other : id ≠ k := fun same => own (congrArg some same.symm)
        exact if_neg other
      · intro call
        rfl
    rw [silent, ← holds.part]
    unfold grow
    cases found : a.growing.lookup id with
    | none => rfl
    | some j =>
        -- What grows under the id is another part.
        have apart : j ≠ i := by
          rintro rfl
          exact own (named.mp found)
        dsimp only
        split <;> simp [apart]

theorem named_of_marks (b : Assembler) (e : Event) (holds : a.Holds i name p)
    (same : ∀ k, b.growing.lookup k = some i ↔
      a.growing.lookup k = some i ∧ e.marks k = false) (k : String) :
    b.growing.lookup k = some i ↔ nameAfter name e = some k := by
  rw [same, holds.named, nameAfter_eq_some_iff]

theorem named_of_unmarked (b : Assembler) (e : Event) (holds : a.Holds i name p)
    (same : b.growing = a.growing) (free : ∀ k, e.marks k = false) (k : String) :
    b.growing.lookup k = some i ↔ nameAfter name e = some k := by
  apply named_of_marks a i name p b e holds
  intro k
  simp [same, free]

theorem holds_start (e : Event) (id : String) (q : Part) (holds : a.Holds i name p)
    (marks : ∀ k, e.marks k = decide (id = k)) :
    (a.start id q).Holds i (nameAfter name e) p := by
  obtain ⟨bound, -⟩ := List.getElem?_eq_some_iff.mp holds.part
  refine ⟨(List.getElem?_append_left bound).trans holds.part, ?_⟩
  apply named_of_marks a i name p _ e holds
  intro k
  rw [start, lookup_start, marks]
  by_cases own : id = k
  · have apart : a.parts.length ≠ i := by omega
    simp [own, apart]
  · simp [own]

theorem holds_stop (e : Event) (id : String) (holds : a.Holds i name p)
    (marks : ∀ k, e.marks k = decide (id = k)) :
    (a.stop id).Holds i (nameAfter name e) p := by
  refine ⟨holds.part, ?_⟩
  apply named_of_marks a i name p _ e holds
  intro k
  rw [stop, lookup_stop, marks]
  by_cases own : id = k <;> simp [own]

theorem answered_eq_filled (call : String) (output : Json.Datum) :
    answered call output p = p.filled name [.toolOutput call output] := by
  have text : name.elim "" (textUnder · [.toolOutput call output]) = "" := by
    cases name <;> rfl
  cases p with
  | text t => simp [answered, Part.filled, text]
  | reasoning t => simp [answered, Part.filled, text]
  | toolCall id tool args result =>
      by_cases own : id = call
      · simp [answered, Part.filled, lastOutput, Event.output?, own]
      · simp [answered, Part.filled, lastOutput, Event.output?, own, Ne.symm own]
  | image image => rfl

theorem holds_apply (e : Event) (holds : a.Holds i name p) :
    (a.apply e).1.Holds i (nameAfter name e) (p.filled name [e]) := by
  obtain ⟨bound, -⟩ := List.getElem?_eq_some_iff.mp holds.part
  have silent (adds : ∀ id, e.delta? id = none) (answers : ∀ call, e.output? call = none) :
      p.filled name [e] = p := filled_of_silent name e p (fun id _ => adds id) answers
  cases e with
  | textStart id | reasoningStart id =>
      rw [silent (fun _ => rfl) (fun _ => rfl)]
      exact holds_start a i name p _ id _ holds (fun _ => rfl)
  | textEnd id | reasoningEnd id =>
      rw [silent (fun _ => rfl) (fun _ => rfl)]
      exact holds_stop a i name p _ id holds (fun _ => rfl)
  | textDelta id delta =>
      have kept := growing_grow a id delta
      exact ⟨part_grow a i name p id delta holds,
        named_of_unmarked a i name p _ _ holds kept fun _ => rfl⟩
  | reasoningDelta id delta =>
      have kept := growing_grow a id delta
      have alike : p.filled name [.reasoningDelta id delta] =
          p.filled name [.textDelta id delta] := by
        cases p <;> cases name <;> rfl
      rw [alike]
      exact ⟨part_grow a i name p id delta holds,
        named_of_unmarked a i name p _ _ holds kept fun _ => rfl⟩
  | toolInput call tool input =>
      rw [silent (fun _ => rfl) (fun _ => rfl)]
      exact ⟨(List.getElem?_append_left bound).trans holds.part,
        named_of_unmarked a i name p _ _ holds rfl fun _ => rfl⟩
  | toolOutput call output =>
      refine ⟨?_, named_of_unmarked a i name p _ _ holds rfl fun _ => rfl⟩
      rw [apply, List.getElem?_map, holds.part, Option.map_some,
        answered_eq_filled name p call output]

end Step

theorem holds_applyAll (a : Assembler) (i : Nat) (name : Option String) (p : Part)
    (events : List Event) (holds : a.Holds i name p) :
    (a.applyAll events).Holds i (events.foldl nameAfter name) (p.filled name events) := by
  induction events generalizing a name p with
  | nil =>
      rw [filled_nil]
      exact holds
  | cons e events ih =>
      rw [filled_cons]
      exact ih (a.apply e).1 (nameAfter name e) _ (holds_apply a i name p e holds)

theorem length_apply (a : Assembler) (e : Event) :
    (a.apply e).1.parts.length = a.parts.length + (beginning? e).toList.length := by
  have grow (id delta : String) : (a.grow id delta).1.parts.length = a.parts.length := by
    unfold grow
    repeat' split
    all_goals simp
  cases e <;> simp [apply, beginning?, start, stop, grow]

theorem length_applyAll (a : Assembler) (events : List Event) :
    (a.applyAll events).parts.length = a.parts.length + (assembled events).length := by
  induction events generalizing a with
  | nil => rfl
  | cons e events ih =>
      change ((a.apply e).1.applyAll events).parts.length = _
      rw [ih, length_apply, length_assembled_cons, Nat.add_assoc]

def InRange (a : Assembler) : Prop := ∀ entry ∈ a.growing, entry.2 < a.parts.length

theorem inRange_start (a : Assembler) (id : String) (p : Part) (range : a.InRange) :
    (a.start id p).InRange := by
  intro entry member
  simp only [start, List.length_append, List.length_singleton]
  rcases List.mem_cons.mp member with rfl | before
  · exact Nat.lt_succ_self _
  · have bound := range entry before
    omega

theorem inRange_apply (a : Assembler) (e : Event) (range : a.InRange) :
    (a.apply e).1.InRange := by
  have longer := length_apply a e
  have kept (same : (a.apply e).1.growing ⊆ a.growing) : (a.apply e).1.InRange := by
    intro entry member
    have bound := range entry (same member)
    omega
  cases e with
  | textStart id => exact inRange_start a id _ range
  | reasoningStart id => exact inRange_start a id _ range
  | textDelta id delta => exact kept (growing_grow a id delta ▸ List.Subset.refl _)
  | reasoningDelta id delta => exact kept (growing_grow a id delta ▸ List.Subset.refl _)
  | textEnd id => exact kept List.filter_sublist.subset
  | reasoningEnd id => exact kept List.filter_sublist.subset
  | toolInput call tool input => exact kept (List.Subset.refl _)
  | toolOutput call output => exact kept (List.Subset.refl _)

theorem inRange_applyAll (a : Assembler) (events : List Event) (range : a.InRange) :
    (a.applyAll events).InRange := by
  induction events generalizing a with
  | nil => exact range
  | cons e events ih => exact ih (a.apply e).1 (inRange_apply a e range)

theorem holds_beginning (a : Assembler) (e : Event) (name : Option String) (p : Part)
    (range : a.InRange) (begins : beginning? e = some (p, name)) :
    (a.apply e).1.Holds a.parts.length name p := by
  have unused (k : String) : a.growing.lookup k ≠ some a.parts.length := by
    intro found
    obtain ⟨left, right, shape, -⟩ := List.lookup_eq_some_iff.mp found
    exact Nat.lt_irrefl _ (range (k, a.parts.length) (by simp [shape]))
  have started (id : String) (q : Part) : (a.start id q).Holds a.parts.length (some id) q := by
    refine ⟨List.getElem?_concat_length, fun k => ?_⟩
    rw [start, lookup_start]
    by_cases own : id = k <;> simp [own, unused]
  cases e with
  | textStart id =>
      obtain ⟨rfl, rfl⟩ := Prod.mk.inj (Option.some.inj begins)
      exact started id (.text "")
  | reasoningStart id =>
      obtain ⟨rfl, rfl⟩ := Prod.mk.inj (Option.some.inj begins)
      exact started id (.reasoning "")
  | toolInput call tool input =>
      obtain ⟨rfl, rfl⟩ := Prod.mk.inj (Option.some.inj begins)
      exact ⟨List.getElem?_concat_length, fun k => by simp [apply, unused]⟩
  | _ => cases begins

/-- A part that has begun is held, as what came behind its beginning leaves it. -/
theorem holds_of_begun (before later : List Event) (e : Event) (name : Option String) (p : Part)
    (begins : beginning? e = some (p, name)) :
    (empty.applyAll (before ++ e :: later)).Holds (assembled before).length
      (later.foldl nameAfter name) (p.filled name later) := by
  let a := empty.applyAll before
  have place : a.parts.length = (assembled before).length :=
    (length_applyAll empty before).trans (Nat.zero_add _)
  have range : a.InRange :=
    inRange_applyAll empty before fun _ member => absurd member List.not_mem_nil
  have begun := holds_beginning a e name p range begins
  rw [applyAll_append, ← place]
  exact holds_applyAll (a.apply e).1 a.parts.length name p later begun

theorem parts_applyAll (events : List Event) :
    (empty.applyAll events).parts = assembled events := by
  have lengths : (empty.applyAll events).parts.length = (assembled events).length :=
    (length_applyAll empty events).trans (Nat.zero_add _)
  apply List.ext_getElem?
  intro i
  by_cases bound : i < (assembled events).length
  · obtain ⟨before, e, later, rfl, rfl, starts⟩ := exists_beginning events i bound
    obtain ⟨⟨p, name⟩, begins⟩ := Option.isSome_iff_exists.mp starts
    have begun : begun? later e = some (p.filled name later) := by
      rw [begun?_eq, begins, Option.map_some]
    rw [getElem?_assembled before e later _ begun]
    exact (holds_of_begun before later e name p begins).part
  · rw [List.getElem?_eq_none (by omega), List.getElem?_eq_none (by omega)]

theorem foldl_nameAfter_eq_some_iff (name : Option String) (events : List Event) (id : String) :
    events.foldl nameAfter name = some id ↔
      name = some id ∧ ∀ e ∈ events, e.marks id = false := by
  induction events generalizing name with
  | nil => simp
  | cons e events ih =>
      rw [List.foldl_cons, ih, nameAfter_eq_some_iff, List.forall_mem_cons, and_assoc]

theorem grown_text_iff (events : List Event) (id : String) (i : Nat) :
    ((empty.applyAll events).growing.lookup id = some i ∧
        ∃ t, (empty.applyAll events).parts[i]? = some (.text t)) ↔
      ∃ before later, events = before ++ .textStart id :: later ∧
        (∀ e ∈ later, e.marks id = false) ∧ (assembled before).length = i := by
  constructor
  · rintro ⟨found, t, text⟩
    have bound : i < (assembled events).length := by
      rw [← parts_applyAll]
      exact (List.getElem?_eq_some_iff.mp text).1
    obtain ⟨before, e, later, rfl, rfl, starts⟩ := exists_beginning events i bound
    obtain ⟨⟨p, name⟩, begins⟩ := Option.isSome_iff_exists.mp starts
    have holds := holds_of_begun before later e name p begins
    obtain ⟨rfl, free⟩ := (foldl_nameAfter_eq_some_iff _ _ _).mp ((holds.named id).mp found)
    rw [holds.part] at text
    cases e <;> cases begins
    · exact ⟨before, later, rfl, free, rfl⟩
    · cases text
  · rintro ⟨before, later, rfl, free, rfl⟩
    have holds := holds_of_begun before later (.textStart id) (some id) (.text "") rfl
    have grows := (foldl_nameAfter_eq_some_iff (some id) later id).mpr ⟨rfl, free⟩
    exact ⟨(holds.named id).mpr grows, _, holds.part⟩

theorem grow_eq_some_iff (a : Assembler) (id delta : String) (i : Nat) :
    (a.grow id delta).2 = some i ↔
      a.growing.lookup id = some i ∧ ∃ t, a.parts[i]? = some (.text t) := by
  unfold grow
  cases found : a.growing.lookup id with
  | none => simp
  | some j =>
      dsimp only
      split
      · rename_i t text
        constructor
        · rintro ⟨⟩
          exact ⟨rfl, t, text⟩
        · rintro ⟨same, -⟩
          exact same
      · rename_i t reasoning
        constructor
        · intro found
          cases found
        · rintro ⟨⟨⟩, t, text⟩
          simp [reasoning] at text
      · rename_i other _
        constructor
        · intro found
          cases found
        · rintro ⟨⟨⟩, t, text⟩
          exact absurd text (other t)

theorem apply_eq_some_iff (a : Assembler) (e : Event) (i : Nat) :
    (a.apply e).2 = some i ↔
      ∃ id delta, (e = .textDelta id delta ∨ e = .reasoningDelta id delta) ∧
        a.growing.lookup id = some i ∧ ∃ t, a.parts[i]? = some (.text t) := by
  cases e <;> simp [apply, grow_eq_some_iff]

/-- Whatever a stream carries, the parts assembled from it are one for each event that starts a text
or calls a tool, in the order of these. A text is what comes under its id, of either kind, before
anything is started or ended under that id again; the result of a call is the last one that comes
behind it. The index of a part is returned just for what is added to a text. -/
theorem assembled_of_stream (events : List Event) :
    (empty.applyAll events).parts = assembled events ∧
      ∀ (e : Event) (i : Nat), ((empty.applyAll events).apply e).2 = some i ↔
        ∃ id delta, (e = .textDelta id delta ∨ e = .reasoningDelta id delta) ∧
          ∃ before later, events = before ++ .textStart id :: later ∧
            (∀ x ∈ later, x.marks id = false) ∧ (assembled before).length = i := by
  refine ⟨parts_applyAll events, fun e i => ?_⟩
  simp only [apply_eq_some_iff, grown_text_iff]

example : (empty.applyAll [.textStart "a", .reasoningDelta "a" "x", .reasoningStart "a",
    .textDelta "a" "y", .textEnd "a", .textDelta "a" "z"]).parts = [.text "x", .reasoning "y"] := by
  decide +kernel

end Assembler

end Thread

end Playback
