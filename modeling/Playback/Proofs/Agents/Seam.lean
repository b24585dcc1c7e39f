import Playback.Proofs.Agents.Document
import Playback.Proofs.Agents.Growth

/-!
Where texts meet. A text of which nothing is held back may be cut off: what follows is scanned as if
it stood alone. Text that stood on both sides of a marker meets too when the marker is taken out,
and may then make up a delimiter that the scan, which goes forward once, has not seen.
-/

namespace Playback.Agents.Marker

theorem occurrence_cases (piece front behind early late : List Char)
    (same : front ++ behind = early ++ piece ++ late) :
    (∃ rest, front = early ++ piece ++ rest ∧ late = rest ++ behind) ∨
      (∃ start, early = front ++ start ∧ behind = start ++ piece ++ late) ∨
      ∃ left right, left ≠ [] ∧ right ≠ [] ∧ left ++ right = piece ∧
        front = early ++ left ∧ behind = right ++ late := by
  rw [List.append_assoc] at same
  rcases List.append_eq_append_iff.mp same with ⟨start, shape, tail⟩ | ⟨left, shape, tail⟩
  · exact .inr (.inl ⟨start, shape, by rw [tail, List.append_assoc]⟩)
  · rcases List.append_eq_append_iff.mp tail with ⟨rest, whole, follows⟩ | ⟨right, joined, follows⟩
    · exact .inl ⟨rest, by rw [shape, whole, List.append_assoc], follows⟩
    · by_cases leftEmpty : left = []
      · subst leftEmpty
        rw [List.append_nil] at shape
        exact .inr (.inl ⟨[], by simp [shape], by simp [follows, joined]⟩)
      by_cases rightEmpty : right = []
      · subst rightEmpty
        rw [List.append_nil] at joined
        exact .inl ⟨[], by simp [shape, joined], by simp [follows]⟩
      exact .inr (.inr ⟨left, right, leftEmpty, rightEmpty, joined.symm, shape, follows⟩)

def EndsPlain (text : List Char) : Prop := ∀ late, late <:+ text → late <+: opening → late = []

instance (text : List Char) : Decidable (EndsPlain text) :=
  decidable_of_iff (∀ late ∈ text.tails, late <+: opening → late = [])
    (by simp only [EndsPlain, List.mem_tails])

theorem suffix_append_cases (front behind late : List Char) (ends : late <:+ front ++ behind) :
    late <:+ behind ∨ ∃ start, start <:+ front ∧ late = start ++ behind := by
  rcases List.suffix_or_suffix_of_suffix ends (List.suffix_append front behind) with
    inside | ⟨start, rfl⟩
  · exact .inl inside
  · exact .inr ⟨start, (List.suffix_append_inj_of_length_eq rfl).mp ends |>.1, rfl⟩

namespace EndsPlain

variable {front behind : List Char} (plain : EndsPlain front)
include plain

theorem of_suffix {late : List Char} (ends : late <:+ front) : EndsPlain late :=
  fun later within begins => plain later (within.trans ends) begins

theorem begins_append (late : List Char) (ends : late <:+ front ++ behind)
    (begins : late <+: opening) : late <:+ behind := by
  rcases suffix_append_cases front behind late ends with inside | ⟨start, within, rfl⟩
  · exact inside
  · obtain rfl := plain start within ((List.prefix_append start behind).trans begins)
    exact List.suffix_rfl

theorem append (after : EndsPlain behind) : EndsPlain (front ++ behind) :=
  fun late ends begins => after late (plain.begins_append late ends begins) begins

theorem opening_cases {early late : List Char}
    (same : front ++ behind = early ++ opening ++ late) :
    (∃ rest, front = early ++ opening ++ rest ∧ late = rest ++ behind) ∨
      ∃ start, early = front ++ start ∧ behind = start ++ opening ++ late := by
  rcases occurrence_cases opening front behind early late same with
    inside | after | ⟨left, right, nonempty, -, joined, shape, -⟩
  · exact .inl inside
  · exact .inr after
  · exact absurd (plain left ⟨early, shape.symm⟩ ⟨right, joined⟩) nonempty

theorem not_infix_append
    (first : ¬ opening <:+: front) (second : ¬ opening <:+: behind) :
    ¬ opening <:+: front ++ behind := by
  intro ⟨early, late, same⟩
  rcases plain.opening_cases same.symm with ⟨rest, shape, -⟩ | ⟨start, -, shape⟩
  · exact first ⟨early, rest, shape.symm⟩
  · exact second ⟨start, late, shape.symm⟩

end EndsPlain

theorem endsPlain_nil : EndsPlain [] := fun _ ends _ => List.suffix_nil.mp ends

/-- Nothing of the text is held back: no end of it may become a marker. -/
structure IsWhole (text : List Char) : Prop where
  closed : ∀ late, late <:+ text → ¬ IsUnclosed late
  plain : EndsPlain text

theorem isCut_nil_iff (text before : List Char) :
    IsCut text before [] ↔ before = text ∧ IsWhole text := by
  constructor
  · intro cut
    cases cut with
    | unclosed _ ends => exact absurd (List.prefix_nil.mp ends.opens) (by decide)
    | begun _ _ some _ _ => exact absurd rfl some
    | none closed plain => exact ⟨rfl, closed, plain⟩
  · intro ⟨same, closed, plain⟩
    rw [same]
    exact .none closed plain

namespace IsWhole

variable {front behind : List Char} (whole : IsWhole front)
include whole

theorem isUnclosed_append (late : List Char) (ends : late <:+ front ++ behind)
    (unclosed : IsUnclosed late) : late <:+ behind := by
  rcases suffix_append_cases front behind late ends with inside | ⟨start, within, rfl⟩
  · exact inside
  · obtain ⟨rest, opened⟩ := unclosed.opens
    have front : start ++ behind = [] ++ opening ++ rest := opened.symm
    rcases (whole.plain.of_suffix within).opening_cases front with
      ⟨inner, shape, -⟩ | ⟨later, empty, -⟩
    · -- the delimiter is all in front, and its end was unclosed before anything followed
      have tail : start.tail <:+: (start ++ behind).tail := by
        rw [shape]
        exact (List.prefix_append _ behind).isInfix
      have before : IsUnclosed start :=
        ⟨⟨inner, shape.symm⟩, fun found => unclosed.last (found.trans tail),
          fun found => unclosed.unclosed (found.trans (List.prefix_append start behind).isInfix)⟩
      exact absurd before (whole.closed start within)
    · obtain ⟨rfl, -⟩ := List.append_eq_nil_iff.mp empty.symm
      exact List.suffix_rfl

/-- Text behind whole text is cut as if it stood alone. -/
theorem isCut_append {before found : List Char} (cut : IsCut behind before found) :
    IsCut (front ++ behind) (front ++ before) found := by
  have closed (alone : ∀ late, late <:+ behind → ¬ IsUnclosed late) (late : List Char)
      (ends : late <:+ front ++ behind) : ¬ IsUnclosed late := fun unclosed =>
    alone late (whole.isUnclosed_append late ends unclosed) unclosed
  cases cut with
  | unclosed shape ends =>
      exact .unclosed (by rw [shape, List.append_assoc]) ends
  | begun alone shape some begins longest =>
      refine .begun (closed alone) (by rw [shape, List.append_assoc]) some begins ?_
      intro late ends starts
      exact longest late (whole.plain.begins_append late ends starts) starts
  | none alone plain =>
      refine .none (closed alone) ?_
      intro late ends starts
      exact plain late (whole.plain.begins_append late ends starts) starts

end IsWhole

namespace Layout

theorem isProper_after (front : List Char) (l : Layout) (absent : ¬ opening <:+: front)
    (plain : EndsPlain front) (proper : l.IsProper) : (l.after front).IsProper := by
  obtain ⟨markers, last⟩ := l
  cases markers with
  | nil =>
      refine ⟨proper.markers, ?_⟩
      rcases proper.last with none | ⟨before, rest, rfl, first, unclosed⟩
      · exact .inl (plain.not_infix_append absent none)
      · refine .inr ⟨front ++ before, rest, ?_, plain.not_infix_append absent first, unclosed⟩
        simp only [after, List.append_assoc]
  | cons p markers =>
      obtain ⟨first, others⟩ := List.forall_mem_cons.mp proper.markers
      refine ⟨List.forall_mem_cons.mpr ⟨⟨?_, first.payload⟩, others⟩, proper.last⟩
      exact plain.not_infix_append absent first.before

theorem of_append_of_plain (front behind : List Char) (absent : ¬ opening <:+: front)
    (plain : EndsPlain front) : of (front ++ behind) = (of behind).after front := by
  have same : front ++ behind = ((of behind).after front).text := by
    rw [text_after, text_of]
  rw [same]
  exact of_text _ (isProper_after front _ absent plain (isProper_of behind))

/-- The remainder of a text that leaves nothing open has no opening delimiter. -/
theorem not_infix_last (t : List Char) (whole : IsWhole (of t).plain) :
    ¬ opening <:+: (of t).last := by
  intro inside
  obtain ⟨front, found, shape, opens, last⟩ := exists_last opening _ (by decide) inside
  obtain ⟨rest, rfl⟩ := opens
  have proper := (isProper_of t).last
  rw [shape, ← List.append_assoc] at proper
  have unclosed := not_infix_of_isRemainder front rest proper
  have ends : opening ++ rest <:+ (of t).plain := by
    rw [plain, shape]
    exact ((List.suffix_append front _).trans (List.suffix_append _ _))
  exact whole.closed _ ends
    ⟨List.prefix_append opening rest, last, (closing_infix_opening_append rest).not.mpr unclosed⟩

theorem of_append_of_isWhole (t u : List Char) (whole : IsWhole (of t).plain) :
    of (t ++ u) =
      ⟨(of t).markers ++ ((of u).after (of t).last).markers, ((of u).after (of t).last).last⟩ := by
  have ends : EndsPlain (of t).last := whole.plain.of_suffix (List.suffix_append _ _)
  rw [of_append, of_append_of_plain _ u (not_infix_last t whole) ends]

theorem plain_append_of_isWhole (t u : List Char) (whole : IsWhole (of t).plain) :
    (of (t ++ u)).plain = (of t).plain ++ (of u).plain := by
  have after := plain_after (of t).last (of u)
  unfold plain at after ⊢
  rw [of_append_of_isWhole t u whole]
  simp only [List.flatMap_append, List.append_assoc, after]

theorem payloads_append_of_isWhole (t u : List Char) (whole : IsWhole (of t).plain) :
    (of (t ++ u)).markers.map (·.payload) =
      (of t).markers.map (·.payload) ++ (of u).markers.map (·.payload) := by
  rw [of_append_of_isWhole t u whole, List.map_append, payloads_after]

theorem events_append_of_isWhole (t u : List Char) (whole : IsWhole (of t).plain) :
    (of (t ++ u)).events = (of t).events ++ (of u).events := by
  simp only [events_eq, payloads_append_of_isWhole t u whole, List.filterMap_append]

theorem dropped_append_of_isWhole (t u : List Char) (whole : IsWhole (of t).plain) :
    (of (t ++ u)).dropped = (of t).dropped ++ (of u).dropped := by
  simp only [dropped_eq, payloads_append_of_isWhole t u whole, List.filterMap_append]

end Layout

theorem trailing_eq_empty_iff (text : String) :
    (parse text).trailing = "" ↔ IsWhole (Layout.of text.toList).plain := by
  have cut := isCut_parse text
  constructor
  · intro nothing
    rw [nothing] at cut
    exact ((isCut_nil_iff _ _).mp cut).2
  · intro whole
    have alone := (isCut_nil_iff _ _).mpr ⟨rfl, whole⟩
    have same := ((isCut_parse_iff text _ _).mp alone).2
    exact String.toList_eq_nil_iff.mp same.symm

/-- A text of which nothing is held back may be cut off and forgotten: whatever follows it is
scanned as if it stood alone, and what is found is added. -/
theorem parse_append_of_nothing_held (text more : String) (nothing : (parse text).trailing = "") :
    parse (text ++ more) =
      { clean := (parse text).clean ++ (parse more).clean
        events := (parse text).events ++ (parse more).events
        dropped := (parse text).dropped ++ (parse more).dropped
        trailing := (parse more).trailing } := by
  have whole := (trailing_eq_empty_iff text).mp nothing
  have shown : (parse text).clean.toList = (Layout.of text.toList).plain := by
    have cut := isCut_parse text
    rw [nothing] at cut
    exact ((isCut_nil_iff _ _).mp cut).1
  have cut := whole.isCut_append (isCut_parse more)
  rw [← Layout.plain_append_of_isWhole _ _ whole, ← String.toList_append, isCut_parse_iff] at cut
  have clean : (parse (text ++ more)).clean = (parse text).clean ++ (parse more).clean := by
    apply String.toList_inj.mp
    rw [String.toList_append, shown]
    exact cut.1.symm
  have events : (parse (text ++ more)).events = (parse text).events ++ (parse more).events := by
    simp only [parse_events, String.toList_append, Layout.events_append_of_isWhole _ _ whole]
  have dropped : (parse (text ++ more)).dropped = (parse text).dropped ++ (parse more).dropped := by
    simp only [parse_dropped, String.toList_append, Layout.dropped_append_of_isWhole _ _ whole]
  have trailing : (parse (text ++ more)).trailing = (parse more).trailing :=
    String.toList_inj.mp cut.2.symm
  rw [← clean, ← events, ← dropped, ← trailing]

theorem parse_append_of_nothing_held_glued :
    let text := "<!--GRAM_<!--GRAM_AGENT:x-->AGENT:y-->"
    let more := "<!--GRAM_AGENT:z--><!--"
    (parse text).trailing = "" ∧
      parse (text ++ more) = ⟨"<!--GRAM_AGENT:y-->", [], ["x", "z"], "<!--"⟩ := by
  intro text more
  have nothing : (parse text).trailing = "" := by decide +kernel
  exact ⟨nothing, (parse_append_of_nothing_held text more nothing).trans (by decide +kernel)⟩

def HasMarker (text : List Char) : Prop :=
  ∃ before payload rest, text = before ++ opening ++ payload ++ closing ++ rest

theorem hasMarker_iff (text : List Char) :
    HasMarker text ↔ ∃ before rest, text = before ++ opening ++ rest ∧ closing <:+: rest := by
  constructor
  · intro ⟨before, payload, rest, shape⟩
    have closes : closing <:+: payload ++ closing ++ rest := List.infix_append payload closing rest
    exact ⟨before, _, by simpa only [List.append_assoc] using shape, closes⟩
  · intro ⟨before, rest, shape, payload, late, closes⟩
    rw [← closes] at shape
    exact ⟨before, payload, late, by simpa only [List.append_assoc] using shape⟩

theorem not_hasMarker_iff (text : List Char) : ¬ HasMarker text ↔ IsRemainder text := by
  rw [hasMarker_iff]
  constructor
  · intro unmarked
    by_contra marked
    have found := (next?_eq_none_iff text).not.mpr marked
    obtain ⟨⟨p, rest⟩, here⟩ := Option.ne_none_iff_exists'.mp found
    have shape := ((next?_eq_some_iff text rest p).mp here).1
    refine unmarked ⟨p.before, p.payload ++ closing ++ rest, ?_, p.payload, rest, rfl⟩
    rw [shape, Piece.text_append]
  · intro remainder ⟨before, rest, shape, closes⟩
    rw [shape] at remainder
    exact not_infix_of_isRemainder before rest remainder closes

theorem IsCut.held {text before found : List Char} (cut : IsCut text before found) :
    ¬ closing <:+: found ∧ ∀ c ∈ found.head?, c = '<' := by
  cases cut with
  | unclosed _ ends =>
      obtain ⟨rest, rfl⟩ := ends.opens
      refine ⟨ends.unclosed, fun c first => ?_⟩
      exact (Option.some.inj first).symm
  | begun _ _ some begins _ =>
      obtain ⟨rest, whole⟩ := begins
      refine ⟨fun closes => ?_, fun c first => ?_⟩
      · have inside : closing <:+: opening := closes.trans ⟨[], rest, by simpa using whole⟩
        exact absurd inside (by decide)
      · obtain ⟨tail, rfl⟩ := List.head?_eq_some_iff.mp first
        exact (List.cons_eq_cons.mp whole).1
  | none => exact ⟨by decide, fun c first => (nomatch first)⟩

theorem IsCut.hasMarker_iff {text before found : List Char} (cut : IsCut text before found) :
    HasMarker before ↔ HasMarker text := by
  have whole := cut.append_eq
  obtain ⟨unclosed, bracket⟩ := cut.held
  constructor
  · intro ⟨early, payload, rest, shape⟩
    refine ⟨early, payload, rest ++ found, ?_⟩
    rw [← whole, shape]
    simp only [List.append_assoc]
  · intro ⟨early, payload, rest, shape⟩
    rcases occurrence_cases closing before found _ rest (whole.trans shape) with
      ⟨late, inside, -⟩ | ⟨start, -, behind⟩ | ⟨left, right, -, some, joined, -, behind⟩
    · exact ⟨early, payload, late, inside⟩
    · exact absurd ⟨start, rest, behind.symm⟩ unclosed
    · -- what is held back would begin with a part of a closing delimiter
      obtain ⟨c, tail, rfl⟩ := List.exists_cons_of_ne_nil some
      have first : c = '<' := bracket c (by rw [behind]; rfl)
      have part : c ∈ closing := by simp [← joined]
      rw [first] at part
      exact absurd part (by decide)

/-- An opening delimiter is put together of what stands before a marker, or before several, and
behind; and a closing one follows. -/
def Layout.Glues (l : Layout) : Prop :=
  ∃ first second early left right late, l.markers = first ++ second ∧
    first.flatMap (·.before) = early ++ left ∧
    second.flatMap (·.before) ++ l.last = right ++ late ∧
    left ≠ [] ∧ right ≠ [] ∧ left ++ right = opening ∧ closing <:+: late

theorem Layout.hasMarker_plain_iff (l : Layout) (proper : l.IsProper) :
    HasMarker l.plain ↔ l.Glues := by
  rw [hasMarker_iff]
  constructor
  · intro marked
    obtain ⟨before, rest, shape, closes⟩ := marked
    obtain ⟨markers, last⟩ := l
    induction markers generalizing before with
    | nil =>
        have remainder : IsRemainder (before ++ opening ++ rest) := shape ▸ proper.last
        exact absurd closes (not_infix_of_isRemainder before rest remainder)
    | cons p markers ih =>
        obtain ⟨first, others⟩ := List.forall_mem_cons.mp proper.markers
        have joined : p.before ++ plain ⟨markers, last⟩ = before ++ opening ++ rest := by
          rw [← shape]
          simp [plain]
        rcases occurrence_cases opening _ _ before rest joined with
          ⟨late, inside, -⟩ | ⟨start, -, behind⟩ | ⟨left, right, l, r, parts, front, behind⟩
        · exact absurd ⟨before, late, inside.symm⟩ first.before
        · obtain ⟨ps, qs, early, left, right, late, whole, front, more⟩ :=
            ih start ⟨others, proper.last⟩ behind
          refine ⟨p :: ps, qs, p.before ++ early, left, right, late, ?_, ?_, more⟩
          · exact congrArg (p :: ·) whole
          · rw [List.flatMap_cons, front, List.append_assoc]
        · refine ⟨[p], markers, before, left, right, rest, rfl, ?_, behind, l, r, parts, closes⟩
          simpa using front
  · intro glues
    obtain ⟨first, second, early, left, right, late, markers, front, behind, rest⟩ := glues
    obtain ⟨-, -, joined, closes⟩ := rest
    refine ⟨early, late, ?_, closes⟩
    rw [plain, markers, List.flatMap_append, List.append_assoc, behind, front, ← joined]
    simp only [List.append_assoc]

theorem Layout.not_glues_of_endsPlain (l : Layout) (apart : ∀ p ∈ l.markers, EndsPlain p.before) :
    ¬ l.Glues := by
  intro ⟨first, second, early, left, right, late, markers, front, _, nonempty, _, joined, _⟩
  have plain (pieces : List Piece) (each : ∀ p ∈ pieces, EndsPlain p.before) :
      EndsPlain (pieces.flatMap (·.before)) := by
    induction pieces with
    | nil => exact endsPlain_nil
    | cons p pieces ih =>
        obtain ⟨here, others⟩ := List.forall_mem_cons.mp each
        exact here.append (ih others)
  have each (p : Piece) (member : p ∈ first) : EndsPlain p.before :=
    apart p (markers ▸ List.mem_append_left second member)
  exact nonempty (plain first each left ⟨early, front.symm⟩ ⟨right, joined⟩)

/-- A scan keeps the text together just if it finds no marker in it. -/
theorem parse_kept_iff (text : String) :
    (parse text).clean ++ (parse text).trailing = text ↔ ¬ HasMarker text.toList := by
  rw [← String.toList_inj, String.toList_append, (isCut_parse text).append_eq, not_hasMarker_iff]
  constructor
  · intro same
    have counts := Layout.count_text (.of text.toList)
    rw [Layout.text_of, same] at counts
    have none : (Layout.of text.toList).markers = [] := List.length_eq_zero_iff.mp (by omega)
    have proper := (Layout.isProper_of text.toList).last
    rw [Layout.plain, none] at same
    exact same ▸ proper
  · intro remainder
    rw [Layout.of_isRemainder _ remainder]
    rfl

theorem parse_of_unmarked (text : String) (unmarked : ¬ HasMarker text.toList) :
    (parse text).events = [] ∧ (parse text).dropped = [] := by
  have remainder := (not_hasMarker_iff _).mp unmarked
  rw [parse_events, parse_dropped, Layout.of_isRemainder _ remainder]
  exact ⟨rfl, rfl⟩

/-- Clean text has a marker just if one is put together when those of the text are taken out, which
takes a marker right behind a beginning of an opening delimiter. Otherwise a second scan finds
nothing in it and takes nothing out. -/
theorem clean_unmarked_iff (text : String) :
    let l := Layout.of text.toList
    let again := parse (parse text).clean
    (HasMarker (parse text).clean.toList ↔ l.Glues) ∧
      (again.clean ++ again.trailing = (parse text).clean ↔ ¬ l.Glues) ∧
      (¬ l.Glues → again.events = [] ∧ again.dropped = []) ∧
      ((∀ p ∈ l.markers, EndsPlain p.before) → ¬ l.Glues) := by
  intro l again
  have marked : HasMarker (parse text).clean.toList ↔ l.Glues :=
    (isCut_parse text).hasMarker_iff.trans (l.hasMarker_plain_iff (Layout.isProper_of _))
  have kept : again.clean ++ again.trailing = (parse text).clean ↔ ¬ l.Glues :=
    (parse_kept_iff _).trans marked.not
  exact ⟨marked, kept, fun apart => parse_of_unmarked _ (marked.not.mpr apart),
    l.not_glues_of_endsPlain⟩

theorem clean_unmarked_of_apart :
    let text := "a <!--<!--GRAM_ <!--GRAM_AGENT:x-->AGENT:y-->"
    let again := parse (parse text).clean
    (∀ p ∈ (Layout.of text.toList).markers, EndsPlain p.before) ∧
      ¬ (Layout.of text.toList).Glues ∧ again.events = [] ∧ again.dropped = [] := by
  intro text again
  have plain : ∀ p ∈ (Layout.of text.toList).markers, EndsPlain p.before := by decide +kernel
  have ⟨_, _, found, apart⟩ := clean_unmarked_iff text
  exact ⟨plain, apart plain, found (apart plain)⟩

theorem clean_marked_again :
    ¬ ∀ text, (parse (parse text).clean).events = [] ∧
      (parse (parse text).clean).clean ++ (parse (parse text).clean).trailing =
        (parse text).clean := by
  intro unmarked
  have event := (unmarked ("<!--GRAM_<!--GRAM_AGENT:x-->AGENT:" ++
    "\x7b\"type\":\"sub_agent.spawn\",\"agent_id\":\"a\",\"name\":\"b\"\x7d-->")).1
  revert event
  decide +kernel

end Playback.Agents.Marker
