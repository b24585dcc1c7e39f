import Playback.Proofs.Agents.Delimiter

/-!
The grammar of texts with markers. A text is laid out in just one way as markers, each with the text
before it, and a remainder without markers. A scan finds this layout, reads the payloads one by one,
and cuts what is left of the text without its markers.
-/

namespace Playback.Agents.Marker

namespace Piece

def text (p : Piece) : List Char := p.before ++ opening ++ p.payload ++ closing

theorem text_append (p : Piece) (rest : List Char) :
    p.text ++ rest = p.before ++ opening ++ (p.payload ++ closing ++ rest) := by
  simp only [text, List.append_assoc]

/-- The marker is the first one, and its payload ends as soon as it can. -/
structure IsProper (p : Piece) : Prop where
  before : ¬ opening <:+: p.before
  payload : ¬ closing <:+: p.payload

end Piece

/-- Text without markers: it has no opening delimiter, or no closing one after the first. -/
def IsRemainder (last : List Char) : Prop :=
  ¬ opening <:+: last ∨
    ∃ before rest, last = before ++ opening ++ rest ∧ ¬ opening <:+: before ∧ ¬ closing <:+: rest

theorem not_infix_of_isRemainder (before rest : List Char)
    (remainder : IsRemainder (before ++ opening ++ rest)) : ¬ closing <:+: rest := by
  rcases remainder with none | ⟨b, r, same, absent, unclosed⟩
  · exact absurd ⟨before, rest, rfl⟩ none
  · have first := length_le_of_absent opening b r before rest unbordered_opening absent same.symm
    have solid : opening.length = 15 := rfl
    apply not_closed_behind b r (before ++ opening) rest unclosed same.symm
    rw [List.length_append]
    omega

/-- The markers of a text, and the text after the last of them. -/
structure Layout where
  markers : List Piece
  last : List Char
  deriving DecidableEq, Repr

namespace Layout

def text (l : Layout) : List Char := l.markers.flatMap Piece.text ++ l.last

structure IsProper (l : Layout) : Prop where
  markers : ∀ p ∈ l.markers, p.IsProper
  last : IsRemainder l.last

def plain (l : Layout) : List Char := l.markers.flatMap (·.before) ++ l.last

def events (l : Layout) : List Event :=
  l.markers.filterMap fun p => (Event.read (String.ofList p.payload)).toOption

def dropped (l : Layout) : List String :=
  l.markers.filterMap fun p =>
    match Event.read (String.ofList p.payload) with
    | .ok _ => none
    | .error _ => some (String.ofList p.payload)

end Layout

theorem next?_eq_some_iff (text rest : List Char) (p : Piece) :
    next? text = some (p, rest) ↔ text = p.text ++ rest ∧ p.IsProper := by
  obtain ⟨before, payload⟩ := p
  constructor
  · intro found
    unfold next? at found
    cases hopen : split? opening text with
    | none => simp [hopen] at found
    | some cut =>
        obtain ⟨b, inner⟩ := cut
        simp only [hopen, Option.map_eq_some_iff, Prod.mk.injEq, Prod.exists,
          Piece.mk.injEq] at found
        obtain ⟨payload, rest, hclose, ⟨rfl, rfl⟩, rfl⟩ := found
        obtain ⟨outer, -⟩ := (split?_eq_some_iff _ _ _ _).mp hopen
        obtain ⟨inside, -⟩ := (split?_eq_some_iff _ _ _ _).mp hclose
        refine ⟨by simp [Piece.text, outer, inside], ?_, ?_⟩
        · exact not_infix_of_split? opening text b inner (by decide) hopen
        · exact not_infix_of_split? closing inner payload rest (by decide) hclose
  · rintro ⟨rfl, proper⟩
    have outer := split?_of_absent opening before (payload ++ closing ++ rest)
      unbordered_opening proper.before
    have inner := split?_of_absent closing payload rest unbordered_closing proper.payload
    simp only [next?, Piece.text_append, outer, inner, Option.map_some]

theorem next?_eq_none_iff (text : List Char) : next? text = none ↔ IsRemainder text := by
  unfold next? IsRemainder
  cases hopen : split? opening text with
  | none => simp [(split?_eq_none_iff opening text).mp hopen]
  | some cut =>
      obtain ⟨before, rest⟩ := cut
      obtain ⟨shape, -⟩ := (split?_eq_some_iff _ _ _ _).mp hopen
      have absent := not_infix_of_split? opening text before rest (by decide) hopen
      simp only [Option.map_eq_none_iff, split?_eq_none_iff]
      constructor
      · intro unclosed
        exact .inr ⟨before, rest, shape, absent, unclosed⟩
      · rintro (none | ⟨b, r, other, first, unclosed⟩)
        · exact absurd ⟨before, rest, shape.symm⟩ none
        · rw [other, split?_of_absent opening b r unbordered_opening first] at hopen
          obtain ⟨-, rfl⟩ := Prod.mk.inj (Option.some.inj hopen)
          exact unclosed

namespace Layout

def of (text : List Char) : Layout := ⟨(pieces text.length text).1, (pieces text.length text).2⟩

theorem text_pieces (fuel : Nat) (t : List Char) :
    text ⟨(pieces fuel t).1, (pieces fuel t).2⟩ = t := by
  induction fuel generalizing t with
  | zero => rfl
  | succ fuel ih =>
      cases found : next? t with
      | none => simp [pieces, found, text]
      | some cut =>
          obtain ⟨p, rest⟩ := cut
          have inner := ih rest
          have shape := ((next?_eq_some_iff t rest p).mp found).1
          simp only [text] at inner ⊢
          simp only [pieces, found, List.flatMap_cons, List.append_assoc, inner]
          exact shape.symm

theorem length_lt_of_next? (t rest : List Char) (p : Piece) (found : next? t = some (p, rest)) :
    rest.length < t.length := by
  have delimiter : opening.length = 15 := rfl
  rw [((next?_eq_some_iff t rest p).mp found).1, Piece.text]
  simp only [List.length_append]
  omega

theorem isProper_pieces (fuel : Nat) (t : List Char) (enough : t.length ≤ fuel) :
    IsProper ⟨(pieces fuel t).1, (pieces fuel t).2⟩ := by
  induction fuel generalizing t with
  | zero =>
      obtain rfl : t = [] := List.length_eq_zero_iff.mp (Nat.le_zero.mp enough)
      exact ⟨by simp [pieces], (next?_eq_none_iff []).mp rfl⟩
  | succ fuel ih =>
      cases found : next? t with
      | none =>
          simp only [pieces, found]
          exact ⟨by simp, (next?_eq_none_iff t).mp found⟩
      | some cut =>
          obtain ⟨p, rest⟩ := cut
          have shorter := length_lt_of_next? t rest p found
          have inner := ih rest (by omega)
          have first := ((next?_eq_some_iff t rest p).mp found).2
          simp only [pieces, found]
          exact ⟨List.forall_mem_cons.mpr ⟨first, inner.markers⟩, inner.last⟩

theorem text_of (t : List Char) : (of t).text = t := text_pieces t.length t

theorem isProper_of (t : List Char) : (of t).IsProper := isProper_pieces t.length t (Nat.le_refl _)

theorem pieces_text (l : Layout) (proper : l.IsProper) (fuel : Nat)
    (enough : l.text.length ≤ fuel) : pieces fuel l.text = (l.markers, l.last) := by
  obtain ⟨ps, last⟩ := l
  induction ps generalizing fuel with
  | nil =>
      have none : next? last = none := (next?_eq_none_iff last).mpr proper.last
      cases fuel <;> simp [text, pieces, none]
  | cons p ps ih =>
      obtain ⟨first, others⟩ := List.forall_mem_cons.mp proper.markers
      have shape : text ⟨p :: ps, last⟩ = p.text ++ text ⟨ps, last⟩ := by simp [text]
      have found : next? (p.text ++ text ⟨ps, last⟩) = some (p, text ⟨ps, last⟩) :=
        (next?_eq_some_iff _ _ _).mpr ⟨rfl, first⟩
      have shorter := length_lt_of_next? _ _ _ found
      rw [shape] at enough ⊢
      cases fuel with
      | zero => omega
      | succ fuel =>
          have inner := ih fuel ⟨others, proper.last⟩ (by omega)
          simp only [pieces, found, inner]

/-- Any proper layout of a text is the one that a scan finds. -/
theorem of_text (l : Layout) (proper : l.IsProper) : of l.text = l := by
  unfold of
  rw [pieces_text l proper _ (Nat.le_refl _)]

end Layout

structure IsUnclosed (found : List Char) : Prop where
  opens : opening <+: found
  last : ¬ opening <:+: found.tail
  unclosed : ¬ closing <:+: found

/-- Where text without its markers is cut: before its last opening delimiter if no closing one
follows; otherwise before the longest end that begins an opening delimiter; otherwise at its end. -/
inductive IsCut (text : List Char) : List Char → List Char → Prop
  | unclosed {before found : List Char} (whole : text = before ++ found) (ends : IsUnclosed found) :
      IsCut text before found
  | begun {before found : List Char} (closed : ∀ late, late <:+ text → ¬ IsUnclosed late)
      (whole : text = before ++ found) (some : found ≠ []) (begins : found <+: opening)
      (longest : ∀ late, late <:+ text → late <+: opening → late.length ≤ found.length) :
      IsCut text before found
  | none (closed : ∀ late, late <:+ text → ¬ IsUnclosed late)
      (plain : ∀ late, late <:+ text → late <+: opening → late = []) : IsCut text text []

theorem holdBack_of_isUnclosed (before found : List Char) (ends : IsUnclosed found) :
    holdBack (before ++ found) = (before, found) := by
  have last : splitLast? opening (before ++ found) = some (before, found) :=
    (splitLast?_eq_some_iff _ _ _ _ (by decide)).mpr ⟨rfl, ends.opens, ends.last⟩
  unfold holdBack
  rw [last]
  dsimp only
  rw [(split?_eq_none_iff closing found).mpr ends.unclosed]

theorem holdBack_of_closed (text : List Char)
    (closed : ∀ late, late <:+ text → ¬ IsUnclosed late) :
    holdBack text = splitBeginning opening text := by
  unfold holdBack
  split
  · rename_i before found last
    obtain ⟨whole, opens, isLast⟩ := (splitLast?_eq_some_iff _ _ _ _ (by decide)).mp last
    split
    · rename_i unclosed
      have ends : found <:+ text := ⟨before, whole.symm⟩
      exact absurd ⟨opens, isLast, (split?_eq_none_iff closing found).mp unclosed⟩
        (closed found ends)
    · rfl
  · rfl

theorem isCut_iff (text before found : List Char) :
    IsCut text before found ↔ holdBack text = (before, found) := by
  constructor
  · rintro (⟨whole, ends⟩ | ⟨closed, whole, -, begins, longest⟩ | ⟨closed, plain⟩)
    · rw [whole]
      exact holdBack_of_isUnclosed before found ends
    · rw [holdBack_of_closed text closed]
      exact (splitBeginning_eq_iff _ _ _ _).mpr ⟨whole, begins, longest⟩
    · rw [holdBack_of_closed text closed]
      refine (splitBeginning_eq_iff _ _ _ _).mpr ⟨by simp, List.nil_prefix, ?_⟩
      intro late ends begins
      rw [plain late ends begins]
  · intro cut
    by_cases closed : ∀ late, late <:+ text → ¬ IsUnclosed late
    · rw [holdBack_of_closed text closed, splitBeginning_eq_iff] at cut
      obtain ⟨whole, begins, longest⟩ := cut
      by_cases some : found = []
      · subst some
        rw [List.append_nil] at whole
        subst whole
        refine .none closed fun late ends begins => ?_
        exact List.length_eq_zero_iff.mp (Nat.le_zero.mp (longest late ends begins))
      · exact .begun closed whole some begins longest
    · push Not at closed
      obtain ⟨late, ⟨early, rfl⟩, ends⟩ := closed
      rw [holdBack_of_isUnclosed early late ends] at cut
      obtain ⟨rfl, rfl⟩ := Prod.mk.inj cut
      exact .unclosed rfl ends

theorem IsCut.append_eq {text before found : List Char} (cut : IsCut text before found) :
    before ++ found = text := by
  cases cut with
  | unclosed whole => exact whole.symm
  | begun _ whole => exact whole.symm
  | none => exact List.append_nil text

theorem parse_events (text : String) : (parse text).events = (Layout.of text.toList).events := by
  unfold parse Layout.events
  dsimp only
  rw [List.filterMap_map]
  apply List.filterMap_congr
  intro p _
  simp only [Function.comp_apply, decode]
  cases Event.read (String.ofList p.payload) <;> rfl

theorem parse_dropped (text : String) : (parse text).dropped = (Layout.of text.toList).dropped := by
  unfold parse Layout.dropped
  dsimp only
  rw [List.filterMap_map]
  apply List.filterMap_congr
  intro p _
  simp only [Function.comp_apply, decode]
  cases Event.read (String.ofList p.payload) <;> rfl

theorem isCut_parse_iff (text : String) (before found : List Char) :
    IsCut (Layout.of text.toList).plain before found ↔
      before = (parse text).clean.toList ∧ found = (parse text).trailing.toList := by
  have clean : (parse text).clean.toList = (holdBack (Layout.of text.toList).plain).1 :=
    String.toList_ofList
  have trailing : (parse text).trailing.toList = (holdBack (Layout.of text.toList).plain).2 :=
    String.toList_ofList
  rw [isCut_iff, clean, trailing, Prod.ext_iff, eq_comm, eq_comm (a := found)]

theorem isCut_parse (text : String) : IsCut (Layout.of text.toList).plain
    (parse text).clean.toList (parse text).trailing.toList :=
  (isCut_parse_iff text _ _).mpr ⟨rfl, rfl⟩

/-- Every text has just one proper layout. A scan reads its payloads one by one, drops those that
are no events, and cuts what is left of the text. -/
theorem parse_follows_layout (text : String) :
    ∃ l : Layout, (∀ m : Layout, m.text = text.toList ∧ m.IsProper ↔ m = l) ∧
      (parse text).events = l.events ∧ (parse text).dropped = l.dropped ∧
      (parse text).clean.toList ++ (parse text).trailing.toList = l.plain ∧
      ∀ before found, IsCut l.plain before found ↔
        before = (parse text).clean.toList ∧ found = (parse text).trailing.toList := by
  have unique (m : Layout) : m.text = text.toList ∧ m.IsProper ↔ m = .of text.toList := by
    constructor
    · rintro ⟨same, proper⟩
      rw [← same, Layout.of_text m proper]
    · rintro rfl
      exact ⟨Layout.text_of _, Layout.isProper_of _⟩
  exact ⟨.of text.toList, unique, parse_events text, parse_dropped text,
    (isCut_parse text).append_eq, isCut_parse_iff text⟩

end Playback.Agents.Marker
