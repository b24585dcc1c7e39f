import Playback.Proofs.Agents.Scan
import Playback.Proofs.Agents.Tracking
import Playback.Proofs.Agents.Unstamped

namespace Playback.Agents

structure Delivery where
  text : String
  clock : Instant
  seed : Nat
  deriving DecidableEq, Repr

/-- What deliveries of one text, known to one tracker, have come to. -/
structure Feed where
  store : Store
  tracker : Tracker
  handed : List Event
  calls : List Call
  returned : List String
  deriving DecidableEq, Repr

namespace Store

def feed (s : Store) (tracker : Tracker) : List Delivery → Feed
  | [] => ⟨s, tracker, [], [], []⟩
  | d :: rest =>
    let fresh := (tracker.take (Marker.parse d.text).events).2
    let now := s.atTime d.clock d.seed
    let (next, known, clean) := now.processWith tracker d.text
    let f := next.feed known rest
    { f with
      handed := fresh ++ f.handed
      calls := now.callsOfAll fresh ++ f.calls
      returned := clean :: f.returned }

theorem handleAll_append (s : Store) (first second : List Event) :
    s.handleAll (first ++ second) = (s.handleAll first).handleAll second :=
  List.foldl_append

theorem callsOfAll_append (s : Store) (first second : List Event) :
    s.callsOfAll (first ++ second) =
      s.callsOfAll first ++ (s.handleAll first).callsOfAll second := by
  induction first generalizing s with
  | nil => rfl
  | cons e first ih =>
      simp only [List.cons_append, callsOfAll, ih, List.append_assoc]
      rfl

theorem feed_store (s : Store) (tracker : Tracker) (ds : List Delivery) :
    (s.feed tracker ds).store.unstamped =
      (s.handleAll (s.feed tracker ds).handed).unstamped := by
  induction ds generalizing s tracker with
  | nil => rfl
  | cons d ds ih =>
      simp only [feed, processWith_eq, ih, ← handleAll_append]
      exact handleAll_congr _ _ _ (s.atTime_unstamped d.clock d.seed)

theorem feed_calls (s : Store) (tracker : Tracker) (ds : List Delivery) :
    (s.feed tracker ds).calls.map Call.unstamped =
      (s.callsOfAll (s.feed tracker ds).handed).map Call.unstamped := by
  induction ds generalizing s tracker with
  | nil => rfl
  | cons d ds ih =>
      simp only [feed, processWith_eq, List.map_append, ih]
      rw [← List.map_append, ← callsOfAll_append]
      exact callsOfAll_congr _ _ _ (s.atTime_unstamped d.clock d.seed)

theorem feed_returned (s : Store) (tracker : Tracker) (ds : List Delivery) :
    (s.feed tracker ds).returned = ds.map fun d => (Marker.parse d.text).clean := by
  induction ds generalizing s tracker with
  | nil => rfl
  | cons d ds ih => simp only [feed, processWith_eq, List.map_cons, ih]

theorem feed_eq_takeEach (s : Store) (tracker : Tracker) (ds : List Delivery) :
    ((s.feed tracker ds).tracker, (s.feed tracker ds).handed) =
      tracker.takeEach (ds.map fun d => (Marker.parse d.text).events) := by
  induction ds generalizing s tracker with
  | nil => rfl
  | cons d ds ih =>
      have later := ih ((s.atTime d.clock d.seed).processWith tracker d.text).1
        (tracker.take (Marker.parse d.text).events).1
      simp only [feed, processWith_eq, List.map_cons, Tracker.takeEach] at later ⊢
      rw [← later]

/-- After any deliveries the tracker knows, and the store was given, what one scan of the longest of
them would have yielded. -/
theorem feed_covers (s : Store) (ds : List Delivery) (events done : List Event)
    (within : done <+: events)
    (prefixes : ∀ d ∈ ds, (Marker.parse d.text).events <+: events) :
    ∃ all, all <+: events ∧ done <+: all ∧ (∀ d ∈ ds, (Marker.parse d.text).events <+: all) ∧
      (s.feed (Tracker.empty.take done).1 ds).tracker = (Tracker.empty.take all).1 ∧
      (Tracker.empty.take done).2 ++ (s.feed (Tracker.empty.take done).1 ds).handed =
        (Tracker.empty.take all).2 := by
  have taken := feed_eq_takeEach s (Tracker.empty.take done).1 ds
  obtain ⟨all, hwithin, hdone, hscans, htracker, hfresh⟩ :=
    Tracker.takeEach_covers _ events done within (List.forall_mem_map.mpr prefixes)
  rw [← taken] at htracker hfresh
  have hds : ∀ d ∈ ds, (Marker.parse d.text).events <+: all :=
    fun d member => hscans _ (List.mem_map_of_mem member)
  exact ⟨all, hwithin, hdone, hds, htracker, hfresh⟩

/-- The events, the listeners' calls and the store after a text was delivered in any beginnings of
it, in any order and any number of times, are those after one delivery of the whole; each delivery
gives back its own clean text, and no beginning of the text yields any event thereafter. -/
theorem feed_beginnings_eq_feed_whole (s : Store) (text : String) (ds : List Delivery)
    (whole : Delivery) (isWhole : whole.text = text)
    (beginnings : ∀ d ∈ ds, d.text.toList <+: text.toList) (delivered : ∃ d ∈ ds, d.text = text) :
    (s.feed .empty ds).handed = (s.feed .empty [whole]).handed ∧
      (s.feed .empty ds).store.unstamped = (s.feed .empty [whole]).store.unstamped ∧
      (s.feed .empty ds).calls.map Call.unstamped =
        (s.feed .empty [whole]).calls.map Call.unstamped ∧
      (s.feed .empty ds).returned = ds.map (fun d => (Marker.parse d.text).clean) ∧
      ∀ (later : Store) (part : String), part.toList <+: text.toList →
        later.processWith (s.feed .empty ds).tracker part =
          (later, (s.feed .empty ds).tracker, (Marker.parse part).clean) := by
  have prefixes : ∀ d ∈ ds, (Marker.parse d.text).events <+: (Marker.parse text).events :=
    fun d member => Marker.parse_events_prefix d.text text (beginnings d member)
  obtain ⟨all, within, -, covered, tracker, handed⟩ :=
    feed_covers s ds (Marker.parse text).events [] List.nil_prefix prefixes
  have complete : all = (Marker.parse text).events := by
    obtain ⟨d, member, same⟩ := delivered
    exact within.eq_of_length_le (same ▸ covered d member).length_le
  subst complete
  have events : (s.feed .empty ds).handed = (s.feed .empty [whole]).handed := by
    have single : (s.feed .empty [whole]).handed =
        (Tracker.empty.take (Marker.parse text).events).2 := by
      simp [feed, isWhole]
    rw [single]
    exact handed
  refine ⟨events, ?_, ?_, feed_returned s .empty ds, ?_⟩
  · rw [feed_store, feed_store, events]
  · rw [feed_calls, feed_calls, events]
  · intro later part begins
    have known := Tracker.take_known .empty _ _ (Marker.parse_events_prefix part text begins)
    have sameTracker : (s.feed .empty ds).tracker =
        (Tracker.empty.take (Marker.parse text).events).1 := tracker
    simp only [sameTracker, processWith_eq, known]
    rfl

theorem feed_tick_out_of_order :
    let text :=
      "x<!--GRAM_AGENT:\x7b\"type\":\"sub_agent.delta\",\"agent_id\":\"a\",\"content\":\".\"\x7d-->"
    let cut (n : Nat) : Delivery := ⟨String.ofList (text.toList.take n), default, n⟩
    let ds := [cut 40, ⟨text, default, 0⟩, cut 1]
    (∀ d ∈ ds, d.text.toList <+: text.toList) ∧ (∃ d ∈ ds, d.text = text) ∧
      ((new true default 0).feed .empty ds).handed = [.delta "a" "."] := by
  intro text cut ds
  have beginnings : ∀ d ∈ ds, d.text.toList <+: text.toList := by
    simp [ds, cut, List.take_prefix]
  have delivered : ∃ d ∈ ds, d.text = text := ⟨⟨text, default, 0⟩, by simp [ds], rfl⟩
  have fed := feed_beginnings_eq_feed_whole (new true default 0) text ds ⟨text, default, 1⟩ rfl
    beginnings delivered
  exact ⟨beginnings, delivered, fed.1.trans (by decide +kernel)⟩

end Store

end Playback.Agents
