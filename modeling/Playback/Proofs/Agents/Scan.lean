import Playback.Agents.Marker
import Mathlib.Data.List.Infix

namespace Playback.Agents.Marker

theorem after?_eq_some_iff (piece text rest : List Char) :
    after? piece text = some rest ↔ text = piece ++ rest := by
  induction piece generalizing text with
  | nil => simp [after?]
  | cons p piece ih =>
      cases text with
      | nil => simp [after?]
      | cons c text =>
          by_cases same : p = c
          · subst same
            simp [after?, ih]
          · simp [after?, same, Ne.symm same]

theorem split?_eq_some_iff (piece text before rest : List Char) :
    split? piece text = some (before, rest) ↔
      text = before ++ piece ++ rest ∧
        ∀ early late, text = early ++ piece ++ late → before.length ≤ early.length := by
  induction text generalizing before with
  | nil =>
      simp only [split?, Option.map_eq_some_iff, after?_eq_some_iff, Prod.mk.injEq]
      constructor
      · rintro ⟨remainder, shape, rfl, rfl⟩
        exact ⟨shape, fun _ _ _ => Nat.zero_le _⟩
      · rintro ⟨shape, -⟩
        obtain ⟨rfl, rfl, rfl⟩ : before = [] ∧ piece = [] ∧ rest = [] := by simpa using shape
        exact ⟨[], rfl, rfl, rfl⟩
  | cons c text ih =>
      cases here : after? piece (c :: text) with
      | some remainder =>
          have shape := (after?_eq_some_iff piece (c :: text) remainder).mp here
          simp only [split?, here, Option.some.injEq, Prod.mk.injEq]
          constructor
          · rintro ⟨rfl, rfl⟩
            exact ⟨shape, fun _ _ _ => Nat.zero_le _⟩
          · rintro ⟨found, first⟩
            have short := first [] remainder shape
            obtain rfl : before = [] := List.length_eq_zero_iff.mp (Nat.le_zero.mp short)
            exact ⟨rfl, List.append_cancel_left (shape.symm.trans found)⟩
      | none =>
          -- As no occurrence begins here, each is one in the tail, a place later.
          have absent : ∀ late, c :: text ≠ piece ++ late := by
            intro late shape
            rw [(after?_eq_some_iff piece (c :: text) late).mpr shape] at here
            cases here
          simp only [split?, here, Option.map_eq_some_iff, Prod.mk.injEq, Prod.exists]
          constructor
          · rintro ⟨inner, remainder, found, rfl, rfl⟩
            obtain ⟨shape, first⟩ := (ih inner).mp found
            refine ⟨by simp [shape], ?_⟩
            intro early late other
            cases early with
            | nil => exact absurd other (absent late)
            | cons d early =>
                have tails := (List.cons_eq_cons.mp other).2
                simpa using first early late tails
          · rintro ⟨found, first⟩
            cases before with
            | nil => exact absurd found (absent rest)
            | cons d before =>
                obtain ⟨rfl, tails⟩ := List.cons_eq_cons.mp found
                refine ⟨before, rest, (ih before).mpr ⟨tails, ?_⟩, rfl, rfl⟩
                intro early late other
                simpa using first (c :: early) late (by simp [other])

theorem split?_append (piece text before rest more : List Char)
    (found : split? piece text = some (before, rest)) :
    split? piece (text ++ more) = some (before, rest ++ more) := by
  obtain ⟨shape, first⟩ := (split?_eq_some_iff piece text before rest).mp found
  refine (split?_eq_some_iff _ _ _ _).mpr ⟨by simp [shape], ?_⟩
  intro early late other
  by_contra earlier
  -- an earlier occurrence ends before the first one does, and so within the old text
  have fits : (early ++ piece).length ≤ text.length := by
    simp only [shape, List.length_append]
    omega
  have inside : early ++ piece <+: text :=
    List.prefix_of_prefix_length_le ⟨late, other.symm⟩ (List.prefix_append text more) fits
  obtain ⟨tail, htail⟩ := inside
  exact earlier (first early tail htail.symm)

theorem next?_append (text rest more : List Char) (piece : Piece)
    (found : next? text = some (piece, rest)) :
    next? (text ++ more) = some (piece, rest ++ more) := by
  unfold next? at found ⊢
  cases hopen : split? opening text with
  | none => simp [hopen] at found
  | some cut =>
      obtain ⟨before, inner⟩ := cut
      simp only [hopen, Option.map_eq_some_iff, Prod.mk.injEq, Prod.exists] at found
      obtain ⟨payload, tail, hclose, rfl, rfl⟩ := found
      simp only [split?_append opening text before inner more hopen,
        split?_append closing inner payload tail more hclose, Option.map_some]

theorem pieces_prefix (fuel extra : Nat) (text more : List Char) :
    (pieces fuel text).1 <+: (pieces (fuel + extra) (text ++ more)).1 := by
  induction fuel generalizing text with
  | zero => exact List.nil_prefix
  | succ fuel ih =>
      cases found : next? text with
      | none => simp [pieces, found]
      | some cut =>
          obtain ⟨piece, rest⟩ := cut
          have grown := next?_append text rest more piece found
          rw [Nat.add_right_comm]
          simpa [pieces, found, grown] using ih rest

/-- The events of a beginning of a text are the first events of the text. -/
theorem parse_events_prefix (part text : String) (begins : part.toList <+: text.toList) :
    (parse part).events <+: (parse text).events := by
  obtain ⟨more, hmore⟩ := begins
  have found : (pieces part.toList.length part.toList).1 <+:
      (pieces text.toList.length text.toList).1 := by
    rw [← hmore, List.length_append]
    exact pieces_prefix part.toList.length more.length part.toList more
  exact (found.map _).filterMap _

end Playback.Agents.Marker
