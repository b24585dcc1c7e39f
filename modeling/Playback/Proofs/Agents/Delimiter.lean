import Playback.Proofs.Agents.Scan

namespace Playback.Agents.Marker

/-- No end of the piece begins it, the whole apart. -/
def Unbordered (piece : List Char) : Prop := ∀ n < piece.length, 0 < n → ¬ piece.drop n <+: piece

theorem unbordered_opening : Unbordered opening := by
  unfold Unbordered
  decide

theorem unbordered_closing : Unbordered closing := by
  unfold Unbordered
  decide

theorem infix_of_earlier (piece before rest early late : List Char) (single : Unbordered piece)
    (same : before ++ piece ++ rest = early ++ piece ++ late)
    (earlier : early.length < before.length) : piece <:+: before := by
  by_cases apart : early.length + piece.length ≤ before.length
  · have fits : (early ++ piece).length ≤ before.length := by
      rw [List.length_append]
      exact apart
    have left : early ++ piece <+: before ++ piece ++ rest := ⟨late, same.symm⟩
    have right : before <+: before ++ piece ++ rest := ⟨piece ++ rest, by rw [List.append_assoc]⟩
    have inside : early ++ piece <+: before := List.prefix_of_prefix_length_le left right fits
    exact (List.suffix_append early piece).isInfix.trans inside.isInfix
  · -- they would overlap, and an end of the earlier one would begin the later one
    obtain ⟨n, hn⟩ : ∃ n, n = before.length - early.length := ⟨_, rfl⟩
    have overlap : piece ++ rest = piece.drop n ++ late := by
      have tails := congrArg (List.drop before.length) same
      rw [List.append_assoc, List.append_assoc, List.drop_left, List.drop_append,
        List.drop_of_length_le (Nat.le_of_lt earlier), ← hn, List.nil_append,
        List.drop_append_of_le_length (by omega)] at tails
      exact tails
    have left : piece.drop n <+: piece ++ rest := ⟨late, overlap.symm⟩
    have begins : piece.drop n <+: piece := by
      apply List.prefix_of_prefix_length_le left (List.prefix_append piece rest)
      rw [List.length_drop]
      omega
    exact absurd begins (single n (by omega) (by omega))

theorem length_le_of_absent (piece before rest early late : List Char) (single : Unbordered piece)
    (absent : ¬ piece <:+: before) (same : before ++ piece ++ rest = early ++ piece ++ late) :
    before.length ≤ early.length := by
  by_contra earlier
  exact absent (infix_of_earlier piece before rest early late single same (Nat.not_le.mp earlier))

theorem after?_eq_none_iff (piece text : List Char) :
    after? piece text = none ↔ ¬ piece <+: text := by
  rw [Option.eq_none_iff_forall_ne_some]
  constructor
  · rintro absent ⟨rest, shape⟩
    exact absent rest ((after?_eq_some_iff piece text rest).mpr shape.symm)
  · intro absent rest found
    exact absent ⟨rest, ((after?_eq_some_iff piece text rest).mp found).symm⟩

theorem split?_eq_none_iff (piece text : List Char) :
    split? piece text = none ↔ ¬ piece <:+: text := by
  induction text with
  | nil => cases piece <;> simp [split?, after?]
  | cons c text ih =>
      rw [List.infix_cons_iff, not_or, ← after?_eq_none_iff, ← ih, split?]
      cases after? piece (c :: text) <;> simp

theorem not_infix_of_split? (piece text before rest : List Char) (solid : piece ≠ [])
    (found : split? piece text = some (before, rest)) : ¬ piece <:+: before := by
  rintro ⟨early, late, shape⟩
  obtain ⟨whole, first⟩ := (split?_eq_some_iff piece text before rest).mp found
  have short := first early (late ++ piece ++ rest) (by simp [whole, ← shape])
  have longer : 0 < piece.length := List.length_pos_iff.mpr solid
  rw [← shape, List.length_append, List.length_append] at short
  omega

theorem split?_of_absent (piece before rest : List Char) (single : Unbordered piece)
    (absent : ¬ piece <:+: before) :
    split? piece (before ++ piece ++ rest) = some (before, rest) := by
  refine (split?_eq_some_iff _ _ _ _).mpr ⟨rfl, ?_⟩
  intro early late same
  exact length_le_of_absent piece before rest early late single absent same

theorem splitLast?_eq_none_iff (piece text : List Char) :
    splitLast? piece text = none ↔ ¬ piece <:+: text := by
  induction text with
  | nil => cases piece <;> simp [splitLast?, after?]
  | cons c text ih =>
      rw [List.infix_cons_iff, not_or, ← after?_eq_none_iff, ← ih, splitLast?]
      cases splitLast? piece text <;> simp

theorem splitLast?_eq_some_iff (piece text before found : List Char) (solid : piece ≠ []) :
    splitLast? piece text = some (before, found) ↔
      text = before ++ found ∧ piece <+: found ∧ ¬ piece <:+: found.tail := by
  induction text generalizing before with
  | nil =>
      have absent : splitLast? piece [] = none := by
        rw [splitLast?_eq_none_iff, List.infix_nil]
        exact solid
      simp only [absent, reduceCtorEq, false_iff, not_and]
      intro empty begins
      obtain ⟨-, rfl⟩ : before = [] ∧ found = [] := by simpa using empty
      exact absurd (List.prefix_nil.mp begins) solid
  | cons c text ih =>
      cases later : splitLast? piece text with
      | some cut =>
          -- The last occurrence is in the tail, so it is not here.
          have follows : piece <:+: text := by
            by_contra absent
            rw [(splitLast?_eq_none_iff piece text).mpr absent] at later
            cases later
          cases before with
          | nil =>
              simp only [splitLast?, later, Option.some.injEq, Prod.mk.injEq, reduceCtorEq,
                false_and, List.nil_append, false_iff, not_and, not_not]
              rintro rfl -
              exact follows
          | cons d before =>
              have step : splitLast? piece (c :: text) = some (d :: before, found) ↔
                  c = d ∧ splitLast? piece text = some (before, found) := by
                simp only [splitLast?, later, Option.some.injEq, List.cons.injEq, and_assoc,
                  Prod.ext_iff]
              rw [step, ih, List.cons_append, List.cons.injEq, and_assoc]
      | none =>
          have absent := (splitLast?_eq_none_iff piece text).mp later
          simp only [splitLast?, later, Option.map_eq_some_iff, after?_eq_some_iff,
            Prod.mk.injEq]
          constructor
          · rintro ⟨rest, shape, rfl, rfl⟩
            exact ⟨rfl, ⟨rest, shape.symm⟩, absent⟩
          · rintro ⟨shape, ⟨rest, begins⟩, -⟩
            cases before with
            | nil => exact ⟨rest, shape.trans begins.symm, rfl, shape⟩
            | cons d before =>
                have inner : text = before ++ found := (List.cons_eq_cons.mp shape).2
                exact absurd ⟨before, rest, by rw [inner, List.append_assoc, begins]⟩ absent

theorem exists_last (piece text : List Char) (solid : piece ≠ []) (inside : piece <:+: text) :
    ∃ before found, text = before ++ found ∧ piece <+: found ∧ ¬ piece <:+: found.tail := by
  cases split : splitLast? piece text with
  | none => exact absurd inside ((splitLast?_eq_none_iff piece text).mp split)
  | some cut => exact ⟨cut.1, cut.2, (splitLast?_eq_some_iff _ _ _ _ solid).mp split⟩

theorem closing_infix_opening_append (rest : List Char) :
    closing <:+: opening ++ rest ↔ closing <:+: rest := by
  simp [opening, closing, List.infix_cons_iff, List.cons_prefix_cons]

/-- Nothing is closed behind an opening delimiter that nothing closes. -/
theorem not_closed_behind (before rest front found : List Char) (unclosed : ¬ closing <:+: rest)
    (same : before ++ opening ++ rest = front ++ found) (behind : before.length < front.length) :
    ¬ closing <:+: found := by
  intro closes
  have left : found <:+ front ++ found := List.suffix_append front found
  have right : opening ++ rest <:+ front ++ found := ⟨before, by rw [← same, List.append_assoc]⟩
  have lengths := congrArg List.length same
  simp only [List.length_append] at lengths
  have inside : found <:+ opening ++ rest := by
    apply List.suffix_of_suffix_length_le left right
    rw [List.length_append]
    omega
  exact unclosed ((closing_infix_opening_append rest).mp (closes.trans inside.isInfix))

theorem splitBeginning_eq_iff (piece text before found : List Char) :
    splitBeginning piece text = (before, found) ↔
      text = before ++ found ∧ found <+: piece ∧
        ∀ late, late <:+ text → late <+: piece → late.length ≤ found.length := by
  induction text generalizing before with
  | nil =>
      simp only [splitBeginning, Prod.mk.injEq]
      constructor
      · rintro ⟨rfl, rfl⟩
        exact ⟨rfl, List.nil_prefix, fun late ends _ => ends.length_le⟩
      · rintro ⟨shape, -⟩
        obtain ⟨rfl, rfl⟩ : before = [] ∧ found = [] := by simpa using shape
        exact ⟨rfl, rfl⟩
  | cons c text ih =>
      have test : begins (c :: text) piece = true ↔ c :: text <+: piece := by
        rw [begins, Option.isSome_iff_ne_none, ne_eq, after?_eq_none_iff, not_not]
      by_cases here : c :: text <+: piece
      · rw [splitBeginning, if_pos (test.mpr here), Prod.mk.injEq]
        constructor
        · rintro ⟨rfl, rfl⟩
          exact ⟨rfl, here, fun late ends _ => ends.length_le⟩
        · rintro ⟨shape, -, longest⟩
          have long := longest (c :: text) (List.suffix_refl _) here
          rw [shape, List.length_append] at long
          obtain rfl : before = [] := List.length_eq_zero_iff.mp (by omega)
          exact ⟨rfl, shape⟩
      · rw [splitBeginning, if_neg (fun found => here (test.mp found))]
        cases before with
        | nil =>
            simp only [Prod.mk.injEq, reduceCtorEq, false_and, List.nil_append, false_iff, not_and]
            rintro rfl begins
            exact absurd begins here
        | cons d before =>
            have step : (c :: (splitBeginning piece text).1, (splitBeginning piece text).2) =
                (d :: before, found) ↔ c = d ∧ splitBeginning piece text = (before, found) := by
              simp only [Prod.ext_iff, List.cons.injEq, and_assoc]
            have within : (∀ late, late <:+ text → late <+: piece → late.length ≤ found.length) ↔
                ∀ late, late <:+ c :: text → late <+: piece → late.length ≤ found.length := by
              constructor
              · intro longest late ends begins
                rcases List.suffix_cons_iff.mp ends with rfl | ends
                · exact absurd begins here
                · exact longest late ends begins
              · intro longest late ends begins
                exact longest late (ends.trans (List.suffix_cons c text)) begins
            rw [step, ih, within, List.cons_append, List.cons.injEq, and_assoc]

end Playback.Agents.Marker
