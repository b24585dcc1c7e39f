import Playback.Proofs.Agents.Grammar

/-!
A text that grows while its clean text is shown. The markers found stay, so that what is shown can
only be lost to a marker that begins in the remainder. The scan ends a marker at its first opening
delimiter but holds text back from the last one on; what stands between the two is shown too early.
-/

namespace Playback.Agents.Marker

theorem length_le_of_not_infix_tail (piece before found early late : List Char)
    (same : before ++ found = early ++ piece ++ late) (last : ¬ piece <:+: found.tail) :
    early.length ≤ before.length := by
  by_contra longer
  apply last
  have tails := congrArg (List.drop (before.length + 1)) same
  rw [← List.drop_drop, List.drop_left, List.drop_one, List.append_assoc,
    List.drop_append_of_le_length (by omega), ← List.append_assoc] at tails
  rw [tails]
  exact ⟨_, late, rfl⟩

namespace Layout

theorem of_append (t more : List Char) :
    of (t ++ more) =
      ⟨(of t).markers ++ (of ((of t).last ++ more)).markers, (of ((of t).last ++ more)).last⟩ := by
  have first := isProper_of t
  have second := isProper_of ((of t).last ++ more)
  have proper : IsProper ⟨(of t).markers ++ (of ((of t).last ++ more)).markers,
      (of ((of t).last ++ more)).last⟩ :=
    ⟨List.forall_mem_append.mpr ⟨first.markers, second.markers⟩, second.last⟩
  have whole : t ++ more = text ⟨(of t).markers ++ (of ((of t).last ++ more)).markers,
      (of ((of t).last ++ more)).last⟩ := by
    have inner := text_of ((of t).last ++ more)
    have outer := text_of t
    unfold text at inner outer ⊢
    rw [List.flatMap_append, List.append_assoc, inner, ← List.append_assoc, outer]
  rw [whole, of_text _ proper]

theorem plain_of_append (t more : List Char) :
    (of (t ++ more)).plain =
      (of t).markers.flatMap (·.before) ++ (of ((of t).last ++ more)).plain := by
  rw [of_append]
  simp only [plain, List.flatMap_append, List.append_assoc]

theorem plain_of_next? (t rest : List Char) (p : Piece) (found : next? t = some (p, rest)) :
    (of t).plain = p.before ++ (of rest).plain := by
  obtain ⟨whole, first⟩ := (next?_eq_some_iff t rest p).mp found
  have others := isProper_of rest
  have proper : IsProper ⟨p :: (of rest).markers, (of rest).last⟩ :=
    ⟨List.forall_mem_cons.mpr ⟨first, others.markers⟩, others.last⟩
  have same : t = text ⟨p :: (of rest).markers, (of rest).last⟩ := by
    rw [whole, text, List.flatMap_cons, List.append_assoc]
    exact congrArg (p.text ++ ·) (text_of rest).symm
  rw [same, of_text _ proper]
  simp only [plain, List.flatMap_cons, List.append_assoc]

theorem of_isRemainder (t : List Char) (none : IsRemainder t) : of t = ⟨[], t⟩ :=
  of_text ⟨[], t⟩ ⟨by simp, none⟩

end Layout

/-- Text is cut no later than before an end that may become a marker. -/
theorem IsCut.length_le {rest may before found : List Char} (cut : IsCut (rest ++ may) before found)
    (some : may ≠ []) (open? : may <+: opening ∨ IsUnclosed may) : before.length ≤ rest.length := by
  have whole := congrArg List.length cut.append_eq
  simp only [List.length_append] at whole
  rcases open? with begins | ends
  · cases cut with
    | unclosed _ ends =>
        have long := ends.opens.length_le
        have short := begins.length_le
        omega
    | begun _ _ _ _ longest =>
        have long := longest may (List.suffix_append rest may) begins
        omega
    | none _ plain => exact absurd (plain may (List.suffix_append rest may) begins) some
  · have shown := (isCut_iff _ _ _).mp cut
    rw [holdBack_of_isUnclosed rest may ends] at shown
    rw [(Prod.mk.inj shown).1]

/-- Two opening delimiters stand in the text, one behind the other. -/
def OpensTwice (text : List Char) : Prop :=
  ∃ early between late, text = early ++ opening ++ between ++ opening ++ late

/-- An end of a remainder in which a marker begins is seen to begin one, unless a second opening
delimiter follows. -/
theorem isUnclosed_of_grown (before may more rest : List Char)
    (remainder : IsRemainder (before ++ may)) (single : ¬ OpensTwice (before ++ may))
    (grown : may ++ more = opening ++ rest) : may <+: opening ∨ IsUnclosed may := by
  have left : may <+: opening ++ rest := ⟨more, grown⟩
  rcases List.prefix_or_prefix_of_prefix left (List.prefix_append opening rest) with
    begins | ⟨inner, rfl⟩
  · exact .inl begins
  · refine .inr ⟨List.prefix_append opening inner, ?_, ?_⟩
    · rintro ⟨early, late, shape⟩
      -- a later delimiter would make the remainder hold two that lie apart
      have same : ('<' :: early) ++ opening ++ late = [] ++ opening ++ inner := by
        rw [List.append_assoc, List.cons_append, ← List.append_assoc, shape]
        rfl
      obtain ⟨front, between, apart⟩ := infix_of_earlier opening ('<' :: early) late [] inner
        unbordered_opening same (Nat.succ_pos _)
      refine single ⟨before ++ front, between, late, ?_⟩
      rw [List.nil_append, ← apart] at same
      rw [← same]
      simp only [List.append_assoc]
    · rw [closing_infix_opening_append]
      apply not_infix_of_isRemainder before inner
      rwa [List.append_assoc]

def remainder (text : String) : List Char := (Layout.of text.toList).last

theorem shown_of_not_opensTwice (text : String) (more : List Char)
    (single : ¬ OpensTwice (remainder text)) :
    (parse text).clean.toList <+: (Layout.of (text.toList ++ more)).plain := by
  have cut := isCut_parse text
  have shown : (parse text).clean.toList <+: (Layout.of text.toList).plain :=
    ⟨_, cut.append_eq⟩
  have proper := Layout.isProper_of text.toList
  obtain ⟨markers, last, hof⟩ : ∃ markers last, Layout.of text.toList = ⟨markers, last⟩ :=
    ⟨_, _, rfl⟩
  rw [Layout.plain_of_append]
  rw [remainder, hof] at single
  rw [hof] at cut shown proper ⊢
  dsimp only [Layout.plain] at cut shown single ⊢
  cases found : next? (last ++ more) with
  | none =>
      have none := (next?_eq_none_iff _).mp found
      rw [Layout.of_isRemainder _ none]
      dsimp only
      rw [List.flatMap_nil, List.nil_append, ← List.append_assoc]
      exact shown.trans (List.prefix_append _ more)
  | some cutNext =>
      obtain ⟨p, rest⟩ := cutNext
      obtain ⟨grown, first⟩ := (next?_eq_some_iff _ _ _).mp found
      have plain := Layout.plain_of_next? _ rest p found
      dsimp only [Layout.plain] at plain
      rw [plain, ← List.append_assoc]
      refine List.IsPrefix.trans ?_ (List.prefix_append _ _)
      have front : p.before <+: last ++ more := by
        rw [grown, Piece.text, List.append_assoc, List.append_assoc, List.append_assoc]
        exact List.prefix_append _ _
      by_cases short : last.length ≤ p.before.length
      · have inside : last <+: p.before :=
          List.prefix_of_prefix_length_le (List.prefix_append last more) front short
        exact shown.trans ((List.prefix_append_right_inj _).mpr inside)
      · -- the marker begins in the remainder, and its beginning is held back
        obtain ⟨may, rfl⟩ : p.before <+: last :=
          List.prefix_of_prefix_length_le front (List.prefix_append last more) (by omega)
        have some : may ≠ [] := by
          rintro rfl
          simp at short
        have inner : may ++ more = opening ++ (p.payload ++ closing ++ rest) := by
          rw [Piece.text] at grown
          simp only [List.append_assoc] at grown ⊢
          exact List.append_cancel_left grown
        have held := isUnclosed_of_grown p.before may more _ proper.last single inner
        rw [← List.append_assoc] at cut shown
        exact List.prefix_of_prefix_length_le shown (List.prefix_append _ may)
          (cut.length_le some held)

theorem not_shown_of_opensTwice (text : String) (double : OpensTwice (remainder text)) :
    ¬ (parse text).clean.toList <+: (Layout.of (text.toList ++ closing)).plain := by
  have proper := (Layout.isProper_of text.toList).last
  obtain ⟨markers, last, hof⟩ : ∃ markers last, Layout.of text.toList = ⟨markers, last⟩ :=
    ⟨_, _, rfl⟩
  obtain ⟨early, between, late, twice⟩ := double
  rw [remainder, hof] at twice
  rw [hof] at proper
  dsimp only at twice proper
  rcases proper with none | ⟨b, r, opened, absent, unclosed⟩
  · exact absurd ⟨early, between ++ opening ++ late, by rw [twice]; simp⟩ none
  -- all from the first of the delimiters on becomes a marker
  have next : next? (last ++ closing) = some (⟨b, r⟩, []) := by
    refine (next?_eq_some_iff _ _ _).mpr ⟨?_, absent, unclosed⟩
    rw [opened, Piece.text, List.append_nil]
  have plain : (Layout.of (text.toList ++ closing)).plain = markers.flatMap (·.before) ++ b := by
    rw [Layout.plain_of_append, hof, Layout.plain_of_next? _ _ _ next]
    exact congrArg (_ ++ ·) (List.append_nil b)
  -- but all up to the last of them is shown
  obtain ⟨front, found, whole, opens, isLast⟩ :=
    exists_last opening last (by decide) ⟨early ++ opening ++ between, late, twice.symm⟩
  have behind : b.length < front.length := by
    have second := length_le_of_not_infix_tail opening front found (early ++ opening ++ between)
      late (by rw [← whole, twice]) isLast
    have first := length_le_of_absent opening b r early (between ++ opening ++ late)
      unbordered_opening absent (by rw [← opened, twice]; simp)
    have solid : opening.length = 15 := rfl
    simp only [List.length_append] at second
    omega
  have ends : IsUnclosed found :=
    ⟨opens, isLast, not_closed_behind b r front found unclosed (opened.symm.trans whole) behind⟩
  have cut : IsCut (Layout.of text.toList).plain (markers.flatMap (·.before) ++ front) found := by
    refine .unclosed ?_ ends
    rw [hof, Layout.plain, whole, List.append_assoc]
  have shown := ((isCut_parse_iff text _ _).mp cut).1
  rw [← shown, plain]
  intro kept
  have short := kept.length_le
  simp only [List.length_append] at short
  omega

/-- What is shown of a text stays when the text grows, however it does, just if no second opening
delimiter stands behind its last marker. -/
theorem clean_kept_iff (text : String) :
    (∀ more, (parse text).clean.toList <+:
        ((parse (text ++ more)).clean ++ (parse (text ++ more)).trailing).toList) ↔
      ¬ OpensTwice (remainder text) := by
  have grown (more : String) :
      ((parse (text ++ more)).clean ++ (parse (text ++ more)).trailing).toList =
        (Layout.of (text.toList ++ more.toList)).plain := by
    rw [String.toList_append, (isCut_parse _).append_eq, String.toList_append]
  simp only [grown]
  constructor
  · intro kept double
    apply not_shown_of_opensTwice text double
    have last := kept (String.ofList closing)
    rwa [String.toList_ofList] at last
  · intro single more
    exact shown_of_not_opensTwice text more.toList single

theorem clean_not_always_kept :
    ¬ ∀ text more : String, (parse text).clean.toList <+:
      ((parse (text ++ more)).clean ++ (parse (text ++ more)).trailing).toList := by
  intro always
  have lost := always "<!--GRAM_AGENT:x<!--GRAM_AGENT:" "-->"
  revert lost
  decide +kernel

end Playback.Agents.Marker
