import Playback.Proofs.Agents.Codec
import Playback.Proofs.Agents.Grammar

/-!
Documents composed of plain text and events. A scan gives back the events and the plain text, as
long as the plain text between two events has no opening delimiter; each text by itself may be free
of it when the texts together are not.
-/

namespace Playback.Agents

inductive Segment where
  | plain (text : String)
  | event (e : Event)
  deriving DecidableEq, Repr

namespace Segment

def text : Segment → String
  | plain text => text
  | event e => Marker.encode e

def event? : Segment → Option Event
  | plain _ => none
  | event e => some e

def plain? : Segment → Option String
  | plain text => some text
  | event _ => none

end Segment

namespace Marker

def document (segments : List Segment) : String := String.join (segments.map Segment.text)

def Layout.after (text : List Char) : Layout → Layout
  | ⟨[], last⟩ => ⟨[], text ++ last⟩
  | ⟨p :: markers, last⟩ => ⟨⟨text ++ p.before, p.payload⟩ :: markers, last⟩

def composition : List Segment → Layout
  | [] => ⟨[], []⟩
  | .plain text :: rest => (composition rest).after text.toList
  | .event e :: rest => ⟨⟨[], payload e⟩ :: (composition rest).markers, (composition rest).last⟩

/-- No plain text in front of an event has an opening delimiter, and that after the last event has
none that is closed. -/
structure IsApart (segments : List Segment) : Prop where
  before : ∀ p ∈ (composition segments).markers, ¬ opening <:+: p.before
  last : IsRemainder (composition segments).last

namespace Layout

theorem text_after (text : List Char) (l : Layout) : (l.after text).text = text ++ l.text := by
  obtain ⟨markers, last⟩ := l
  cases markers <;> simp [after, Layout.text, Piece.text]

theorem plain_after (text : List Char) (l : Layout) : (l.after text).plain = text ++ l.plain := by
  obtain ⟨markers, last⟩ := l
  cases markers <;> simp [after, plain]

theorem payloads_after (text : List Char) (l : Layout) :
    (l.after text).markers.map (·.payload) = l.markers.map (·.payload) := by
  obtain ⟨markers, last⟩ := l
  cases markers <;> rfl

theorem events_eq (l : Layout) : l.events = (l.markers.map (·.payload)).filterMap
    fun payload => (Event.read (String.ofList payload)).toOption := by
  rw [List.filterMap_map]
  rfl

theorem dropped_eq (l : Layout) : l.dropped = (l.markers.map (·.payload)).filterMap
    fun payload => match Event.read (String.ofList payload) with
      | .ok _ => none
      | .error _ => some (String.ofList payload) := by
  rw [List.filterMap_map]
  rfl

end Layout

theorem text_composition (segments : List Segment) :
    (composition segments).text = (document segments).toList := by
  induction segments with
  | nil => rfl
  | cons segment rest ih =>
      rw [document, String.toList_join, List.flatMap_map] at ih ⊢
      cases segment with
      | plain text => rw [composition, Layout.text_after, ih, List.flatMap_cons, Segment.text]
      | event e =>
          rw [List.flatMap_cons, ← ih, Segment.text, toList_encode]
          simp [composition, Layout.text, Piece.text]

theorem plain_composition (segments : List Segment) :
    (composition segments).plain = (String.join (segments.filterMap Segment.plain?)).toList := by
  induction segments with
  | nil => rfl
  | cons segment rest ih =>
      rw [String.toList_join] at ih ⊢
      cases segment with
      | plain text => simp [composition, Layout.plain_after, ih, Segment.plain?]
      | event e =>
          have same : (composition (.event e :: rest)).plain = (composition rest).plain := by
            simp [composition, Layout.plain]
          rw [List.filterMap_cons_none rfl]
          exact same.trans ih

theorem payloads_composition (segments : List Segment) :
    (composition segments).markers.map (·.payload) =
      (segments.filterMap Segment.event?).map payload := by
  induction segments with
  | nil => rfl
  | cons segment rest ih =>
      cases segment with
      | plain text => rw [composition, Layout.payloads_after, ih]; rfl
      | event e => simp [composition, ih, Segment.event?]

theorem payload_of_mem (segments : List Segment) (p : Piece)
    (mem : p ∈ (composition segments).markers) : ∃ e, payload e = p.payload := by
  have payloads : p.payload ∈ (composition segments).markers.map (·.payload) :=
    List.mem_map_of_mem mem
  rw [payloads_composition] at payloads
  obtain ⟨e, -, shape⟩ := List.mem_map.mp payloads
  exact ⟨e, shape⟩

theorem events_composition (segments : List Segment) :
    (composition segments).events = segments.filterMap Segment.event? := by
  rw [Layout.events_eq, payloads_composition, List.filterMap_map]
  simp [Function.comp_def, read_payload, Except.toOption]

theorem dropped_composition (segments : List Segment) : (composition segments).dropped = [] := by
  apply List.filterMap_eq_nil_iff.mpr
  intro p mem
  obtain ⟨e, shape⟩ := payload_of_mem segments p mem
  rw [← shape, read_payload]

namespace Layout

def IsBare (l : Layout) : Prop := ∀ p ∈ l.markers, '<' ∉ p.payload ∧ '>' ∉ p.payload

theorem next?_of_marker (p : Piece) (rest : List Char) :
    ∃ q more, next? (p.text ++ rest) = some (q, more) := by
  cases found : next? (p.text ++ rest) with
  | some cut => exact ⟨cut.1, cut.2, rfl⟩
  | none =>
      have remainder := (next?_eq_none_iff _).mp found
      rw [p.text_append] at remainder
      exact absurd ⟨p.payload, rest, rfl⟩ (not_infix_of_isRemainder _ _ remainder)

theorem closing_notInfix (payload : List Char) (bare : '>' ∉ payload) : ¬ closing <:+: payload := by
  intro inside
  exact bare (inside.subset (by decide))

section Overlap

variable (p q : Piece) (rest more : List Char) (same : p.text ++ rest = q.text ++ more)
  (opens : opening <:+: p.before) (proper : q.IsProper)

include same opens proper

theorem bracket_before : q.before ++ ['<'] <+: p.before := by
  obtain ⟨early, late, shape⟩ := opens
  have first : q.before.length ≤ early.length := by
    apply length_le_of_absent opening q.before (q.payload ++ closing ++ more) early
      (late ++ opening ++ p.payload ++ closing ++ rest) unbordered_opening proper.before
    rw [← q.text_append, ← same, Piece.text, ← shape]
    simp
  have left : q.before ++ ['<'] <+: p.text ++ rest := by
    rw [same, q.text_append]
    exact ⟨opening.tail ++ (q.payload ++ closing ++ more), by simp [opening]⟩
  have right : p.before <+: p.text ++ rest := by
    rw [p.text_append, List.append_assoc]
    exact List.prefix_append _ _
  apply List.prefix_of_prefix_length_le left right
  have lengths := congrArg List.length shape
  have solid : opening.length = 15 := rfl
  simp only [List.length_append, List.length_singleton] at lengths ⊢
  omega

theorem text_before (bare : '<' ∉ q.payload) : q.text <+: p.before := by
  have inText : p.before ++ ['<'] <+: q.text ++ more := by
    rw [← same, p.text_append]
    exact ⟨opening.tail ++ (p.payload ++ closing ++ rest), by simp [opening]⟩
  have inFirst : q.text <+: q.text ++ more := List.prefix_append _ _
  by_cases short : q.text.length ≤ p.before.length
  · exact List.prefix_of_prefix_length_le inFirst ((List.prefix_append _ _).trans inText) short
  · -- the bracket of the other marker would stand in the payload or in a delimiter of the first
    have within : p.before ++ ['<'] <+: q.text := by
      apply List.prefix_of_prefix_length_le inText inFirst
      rw [List.length_append, List.length_singleton]
      omega
    obtain ⟨inner, shape⟩ := bracket_before p q rest more same opens proper
    have begun : q.text = q.before ++ ['<'] ++ (opening.tail ++ q.payload ++ closing) := by
      simp [Piece.text, opening]
    rw [← shape, begun, List.append_assoc, List.prefix_append_right_inj] at within
    have bracket : '<' ∈ opening.tail ++ q.payload ++ closing := within.subset (by simp)
    have absent : '<' ∉ opening.tail ∧ '<' ∉ closing := by decide
    simp [bare, absent] at bracket

end Overlap

/-- Of two layouts of a text the proper one has more markers, unless they are the same. -/
theorem length_markers_le (l m : Layout) (same : l.text = m.text) (proper : m.IsProper)
    (bare : l.IsBare) (open' : ∀ q ∈ m.markers, '<' ∉ q.payload) :
    l.markers.length ≤ m.markers.length ∧ (m.markers.length ≤ l.markers.length → l = m) := by
  obtain ⟨qs, last'⟩ := m
  obtain ⟨ps, last⟩ := l
  induction qs generalizing ps with
  | nil =>
      cases ps with
      | nil => exact ⟨Nat.le_refl _, fun _ => by simpa [Layout.text] using same⟩
      | cons p ps =>
          have shape : p.text ++ text ⟨ps, last⟩ = last' := by simpa [text] using same
          obtain ⟨q, more, found⟩ := next?_of_marker p (text ⟨ps, last⟩)
          rw [shape, (next?_eq_none_iff last').mpr proper.last] at found
          cases found
  | cons q qs ih =>
      obtain ⟨properQ, properQs⟩ := List.forall_mem_cons.mp proper.markers
      obtain ⟨bareQ, bareQs⟩ := List.forall_mem_cons.mp open'
      cases ps with
      | nil => exact ⟨Nat.zero_le _, fun long => absurd long (by simp)⟩
      | cons p ps =>
          obtain ⟨bareP, barePs⟩ := List.forall_mem_cons.mp bare
          have step : p.text ++ text ⟨ps, last⟩ = q.text ++ text ⟨qs, last'⟩ := by
            simpa [text] using same
          by_cases opens : opening <:+: p.before
          · -- The first proper marker stands in the text before `p`, and is taken off both layouts.
            obtain ⟨inner, shape⟩ := text_before p q _ _ step opens properQ bareQ
            have rest : text ⟨⟨inner, p.payload⟩ :: ps, last⟩ = text ⟨qs, last'⟩ := by
              have front : p.text ++ text ⟨ps, last⟩ =
                  q.text ++ text ⟨⟨inner, p.payload⟩ :: ps, last⟩ := by
                simp [text, Piece.text, ← shape]
              exact List.append_cancel_left (front.symm.trans step)
            have bareInner : IsBare ⟨⟨inner, p.payload⟩ :: ps, last⟩ :=
              List.forall_mem_cons.mpr ⟨bareP, barePs⟩
            have more := (ih ⟨properQs, proper.last⟩ bareQs _ bareInner rest).1
            simp only [List.length_cons] at more ⊢
            exact ⟨by omega, fun long => absurd more (by omega)⟩
          · -- Otherwise both layouts begin with the same marker.
            have properP : p.IsProper := ⟨opens, closing_notInfix _ bareP.2⟩
            have foundP := (next?_eq_some_iff _ (text ⟨ps, last⟩) p).mpr ⟨rfl, properP⟩
            have foundQ := (next?_eq_some_iff _ (text ⟨qs, last'⟩) q).mpr ⟨rfl, properQ⟩
            rw [step, foundQ, Option.some.injEq, Prod.mk.injEq] at foundP
            obtain ⟨rfl, rest⟩ := foundP
            obtain ⟨shorter, equal⟩ := ih ⟨properQs, proper.last⟩ bareQs _ barePs rest.symm
            simp only [List.length_cons] at shorter equal ⊢
            refine ⟨Nat.succ_le_succ shorter, fun long => ?_⟩
            obtain ⟨rfl, rfl⟩ := Layout.mk.inj (equal (Nat.le_of_succ_le_succ long))
            rfl

theorem count_text (l : Layout) : l.text.count '<' =
    l.plain.count '<' + l.markers.length + (l.markers.flatMap (·.payload)).count '<' := by
  obtain ⟨markers, last⟩ := l
  induction markers with
  | nil => simp [text, plain]
  | cons p ps ih =>
      simp only [text, plain, List.flatMap_cons, List.count_append, List.length_cons,
        Piece.text] at ih ⊢
      have delimiters : opening.count '<' = 1 ∧ closing.count '<' = 0 := by decide
      omega

end Layout

theorem isBare_composition (segments : List Segment) : (composition segments).IsBare := by
  intro p mem
  obtain ⟨e, shape⟩ := payload_of_mem segments p mem
  rw [← shape]
  exact bracket_notMem_payload e

theorem isProper_composition (segments : List Segment) (apart : IsApart segments) :
    (composition segments).IsProper where
  markers p mem :=
    ⟨apart.before p mem, Layout.closing_notInfix _ (isBare_composition segments p mem).2⟩
  last := apart.last

theorem of_document (segments : List Segment) (apart : IsApart segments) :
    .of (document segments).toList = composition segments := by
  rw [← text_composition, Layout.of_text _ (isProper_composition segments apart)]

/-- Events that are written one after another are found again. -/
theorem parse_events_markers (events : List Event) :
    (parse (document (events.map .event))).events = events := by
  have composed : composition (events.map .event) =
      ⟨events.map fun e => ⟨[], payload e⟩, []⟩ := by
    induction events with
    | nil => rfl
    | cons e events ih => simp [composition, ih]
  have apart : IsApart (events.map .event) := by
    constructor
    · intro p mem
      rw [composed] at mem
      obtain ⟨e, -, rfl⟩ := List.mem_map.mp mem
      exact (by decide : ¬ opening <:+: [])
    · rw [composed]
      exact .inl (by decide : ¬ opening <:+: [])
  rw [parse_events, of_document _ apart, events_composition, List.filterMap_map]
  exact List.filterMap_some

theorem of_document_of_found (segments : List Segment)
    (events : (Layout.of (document segments).toList).events = segments.filterMap Segment.event?)
    (plain : (Layout.of (document segments).toList).plain = (composition segments).plain) :
    composition segments = .of (document segments).toList := by
  obtain ⟨found, hfound⟩ : ∃ l, l = Layout.of (document segments).toList := ⟨_, rfl⟩
  rw [← hfound] at events plain ⊢
  have proper : found.IsProper := hfound ▸ Layout.isProper_of _
  have same : (composition segments).text = found.text := by
    rw [text_composition, hfound, Layout.text_of]
  have bare := isBare_composition segments
  have payloads : ((composition segments).markers.flatMap (·.payload)).count '<' = 0 := by
    rw [List.count_eq_zero]
    intro bracket
    obtain ⟨p, mem, inside⟩ := List.mem_flatMap.mp bracket
    exact (bare p mem).1 inside
  -- Counting brackets shows that the payloads found hold none: all are used up by markers and by
  -- plain text.
  have counts := congrArg (List.count '<') same
  rw [Layout.count_text, Layout.count_text, plain, payloads] at counts
  have enough : (composition segments).markers.length ≤ found.markers.length := by
    have number := congrArg List.length (payloads_composition segments)
    simp only [List.length_map] at number
    rw [number, ← events]
    exact List.length_filterMap_le _ _
  have none : (found.markers.flatMap (·.payload)).count '<' = 0 := by omega
  have unbracketed : ∀ q ∈ found.markers, '<' ∉ q.payload := by
    intro q mem inside
    exact List.count_eq_zero.mp none (List.mem_flatMap.mpr ⟨q, mem, inside⟩)
  exact (Layout.length_markers_le _ _ same proper bare unbracketed).2 (by omega)

theorem parse_encode (e : Event) : parse (encode e) = ⟨"", [e], [], ""⟩ := by
  have apart : IsApart [.event e] :=
    ⟨List.forall_mem_singleton.mpr (by decide : ¬ opening <:+: []),
      .inl (by decide : ¬ opening <:+: [])⟩
  have written : document [.event e] = encode e := by simp [document, Segment.text]
  have found := of_document [.event e] apart
  rw [written] at found
  have events : (parse (encode e)).events = [e] := by
    rw [parse_events, found, events_composition]
    rfl
  have dropped : (parse (encode e)).dropped = [] := by
    rw [parse_dropped, found, dropped_composition]
  have shown : (parse (encode e)).clean.toList ++ (parse (encode e)).trailing.toList = [] := by
    rw [(isCut_parse _).append_eq, found]
    rfl
  obtain ⟨clean, trailing⟩ := List.append_eq_nil_iff.mp shown
  rw [String.toList_eq_nil_iff] at clean trailing
  generalize parse (encode e) = parsed at events dropped clean trailing
  obtain ⟨c, es, d, t⟩ := parsed
  subst events dropped clean trailing
  rfl

/-- A scan of a document gives back its events and its plain text just if no plain text before an
event has an opening delimiter, and that at the end none that is closed. The marker of an event is
read as this event alone. -/
theorem parse_document :
    (∀ segments : List Segment,
      (parse (document segments)).events = segments.filterMap Segment.event? ∧
        (parse (document segments)).clean ++ (parse (document segments)).trailing =
          String.join (segments.filterMap Segment.plain?) ↔ IsApart segments) ∧
      ∀ e : Event, parse (encode e) = ⟨"", [e], [], ""⟩ := by
  constructor
  · intro segments
    have shown : (parse (document segments)).clean ++ (parse (document segments)).trailing =
        String.join (segments.filterMap Segment.plain?) ↔
        (Layout.of (document segments).toList).plain = (composition segments).plain := by
      rw [← String.toList_inj, String.toList_append, (isCut_parse _).append_eq, plain_composition]
    rw [parse_events, shown]
    constructor
    · rintro ⟨events, plain⟩
      have same := of_document_of_found segments events plain
      have proper := Layout.isProper_of (document segments).toList
      rw [← same] at proper
      exact ⟨fun p mem => (proper.markers p mem).before, proper.last⟩
    · intro apart
      rw [of_document segments apart]
      exact ⟨events_composition segments, rfl⟩
  · exact parse_encode

theorem parse_document_glued :
    ¬ ∀ segments : List Segment, (∀ text, .plain text ∈ segments → ¬ opening <:+: text.toList) →
      (parse (document segments)).events = segments.filterMap Segment.event? ∧
        (parse (document segments)).clean ++ (parse (document segments)).trailing =
          String.join (segments.filterMap Segment.plain?) := by
  intro always
  have glued := (always [.plain "<!--GRAM_", .plain "AGENT:x-->"] (by simp; decide)).2
  revert glued
  decide +kernel

end Marker

end Playback.Agents
