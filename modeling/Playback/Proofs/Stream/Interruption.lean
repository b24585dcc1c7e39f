import Playback.Proofs.Stream.Script

namespace Playback.Stream

namespace Limits

variable (l : Limits)

/-- Limits allow events to be handed over, one after another, when some have been before. -/
structure Allows (sent : Nat) (events : List (Nat × Event)) : Prop where
  early : ∀ p ∈ events, l.token.isCancelled p.1 = false
  few : ∀ k, l.cancelAfter = some k → events.length ≤ k - sent
  fits : ∀ n, l.capacity = some n → events.length ≤ n - sent

/-- The longest beginning of some events that limits allow. -/
structure IsLongest (sent : Nat) (events whole : List (Nat × Event)) : Prop where
  begins : events <+: whole
  allowed : l.Allows sent events
  longest : ∀ more, more <+: whole → l.Allows sent more → more <+: events

theorem allows_nil (sent : Nat) : l.Allows sent [] where
  early := List.forall_mem_nil _
  few := fun _ _ => Nat.zero_le _
  fits := fun _ _ => Nat.zero_le _

def isClosed (now sent : Nat) : Bool := l.isCancelled now sent || l.isFull sent

theorem isClosed_eq_false_iff (now sent : Nat) :
    l.isClosed now sent = false ↔
      l.token.isCancelled now = false ∧ (∀ k, l.cancelAfter = some k → sent < k) ∧
        ∀ n, l.capacity = some n → sent < n := by
  unfold isClosed isCancelled isFull
  rw [Bool.or_eq_false_iff, Bool.or_eq_false_iff, and_assoc]
  cases l.cancelAfter <;> cases l.capacity <;> simp

theorem isCancelled_of_le (now later sent : Nat) (le : now ≤ later)
    (cancelled : l.isCancelled now sent = true) : l.isCancelled later sent = true := by
  rcases Bool.or_eq_true_iff.mp cancelled with token | count
  · exact Bool.or_eq_true_iff.mpr (.inl (l.token.isCancelled_of_le now later le token))
  · exact Bool.or_eq_true_iff.mpr (.inr count)

theorem isClosed_of_le (now later sent : Nat) (le : now ≤ later)
    (closed : l.isClosed now sent = true) : l.isClosed later sent = true := by
  rcases Bool.or_eq_true_iff.mp closed with cancelled | full
  · exact Bool.or_eq_true_iff.mpr (.inl (l.isCancelled_of_le now later sent le cancelled))
  · exact Bool.or_eq_true_iff.mpr (.inr full)

theorem allows_cons_iff (now sent : Nat) (e : Event) (rest : List (Nat × Event)) :
    l.Allows sent ((now, e) :: rest) ↔
      l.isClosed now sent = false ∧ l.Allows (sent + 1) rest := by
  have less (n : Nat) : rest.length + 1 ≤ n - sent ↔ sent < n ∧ rest.length ≤ n - (sent + 1) := by
    omega
  rw [isClosed_eq_false_iff]
  constructor
  · intro allowed
    obtain ⟨first, early⟩ := List.forall_mem_cons.mp allowed.early
    have few (k : Nat) (limit : l.cancelAfter = some k) := (less k).mp (allowed.few k limit)
    have fits (n : Nat) (limit : l.capacity = some n) := (less n).mp (allowed.fits n limit)
    exact ⟨⟨first, fun k limit => (few k limit).1, fun n limit => (fits n limit).1⟩, early,
      fun k limit => (few k limit).2, fun n limit => (fits n limit).2⟩
  · rintro ⟨⟨first, left, room⟩, allowed⟩
    refine ⟨List.forall_mem_cons.mpr ⟨first, allowed.early⟩, ?_, ?_⟩
    · intro k limit
      exact (less k).mpr ⟨left k limit, allowed.few k limit⟩
    · intro n limit
      exact (less n).mpr ⟨room n limit, allowed.fits n limit⟩

theorem isLongest_nil (sent : Nat) (whole : List (Nat × Event))
    (closed : ∀ p ∈ whole, l.isClosed p.1 sent = true) : l.IsLongest sent [] whole where
  begins := List.nil_prefix
  allowed := l.allows_nil sent
  longest := by
    intro more begins allowed
    cases more with
    | nil => exact List.nil_prefix
    | cons p rest =>
        have first := closed p (begins.subset List.mem_cons_self)
        rw [((l.allows_cons_iff p.1 sent p.2 rest).mp allowed).1] at first
        contradiction

theorem isLongest_cons (now sent : Nat) (e : Event) (events whole : List (Nat × Event))
    (free : l.isClosed now sent = false) (rest : l.IsLongest (sent + 1) events whole) :
    l.IsLongest sent ((now, e) :: events) ((now, e) :: whole) where
  begins := (List.prefix_cons_inj _).mpr rest.begins
  allowed := (l.allows_cons_iff now sent e events).mpr ⟨free, rest.allowed⟩
  longest := by
    intro more begins allowed
    cases more with
    | nil => exact List.nil_prefix
    | cons p more =>
        obtain ⟨rfl, later⟩ := List.cons_prefix_cons.mp begins
        have left := ((l.allows_cons_iff now sent e more).mp allowed).2
        exact (List.prefix_cons_inj _).mpr (rest.longest more later left)

theorem isCancelled_of_pause_error (now sent ms cut : Nat)
    (short : l.pause now sent ms = .error cut) : l.isCancelled (now + ms) sent = true := by
  unfold pause at short
  split at short
  · rename_i cancelled
    exact l.isCancelled_of_le now (now + ms) sent (Nat.le_add_right now ms) cancelled
  · cases token : l.token.isCancelled (now + ms) with
    | true => exact Bool.or_eq_true_iff.mpr (.inl token)
    | false =>
        rw [l.token.pause_of_going now ms token] at short
        contradiction

end Limits

namespace Script

section Limited

variable (l : Limits) (now sent : Nat)

theorem play_emit_of_closed (e : Event) (rest : Script) (closed : l.isClosed now sent = true) :
    play l now sent (.emit e :: rest) = .ended now (.stopped .cancelled) := by
  rw [play, ← Limits.isClosed, if_pos closed]

theorem play_emit_of_free (e : Event) (rest : Script) (free : l.isClosed now sent = false) :
    play l now sent (.emit e :: rest) = (play l now (sent + 1) rest).afterEvent now e := by
  rw [play, ← Limits.isClosed, free, if_neg Bool.false_ne_true]

theorem isLongest_play (script : Script) (paced : script.IsPaced) :
    l.IsLongest sent (script.play l now sent).events
      (script.play (.ofToken .never) now sent).events := by
  induction script generalizing now sent with
  | nil => exact l.isLongest_nil sent [] (List.forall_mem_nil _)
  | cons step rest ih =>
      have restPaced := isPaced_of_cons step rest paced
      rcases paced step List.mem_cons_self with ⟨e, rfl⟩ | ⟨ms, rfl⟩
      · cases closed : l.isClosed now sent with
        | true =>
            rw [play_emit_of_closed l now sent e rest closed]
            apply l.isLongest_nil
            intro p member
            have later := now_le_of_mem_events _ now sent _ p member
            exact l.isClosed_of_le now p.1 sent later closed
        | false =>
            rw [play_emit_of_free l now sent e rest closed, play_emit_of_never]
            exact l.isLongest_cons now sent e _ _ closed (ih now (sent + 1) restPaced)
      · rw [play_pause_of_never, play]
        cases paused : l.pause now sent ms with
        | error cut =>
            have cancelled := l.isCancelled_of_pause_error now sent ms cut paused
            have closed : l.isClosed (now + ms) sent = true :=
              Bool.or_eq_true_iff.mpr (.inl cancelled)
            apply l.isLongest_nil
            intro p member
            have later := now_le_of_mem_events _ (now + ms) sent rest p member
            exact l.isClosed_of_le (now + ms) p.1 sent later closed
        | ok later =>
            rw [l.of_pause_ok now sent ms later paused]
            exact ih (now + ms) sent restPaced

def EndsWithEvent (script : Script) : Prop := ∀ ms, script.getLast? ≠ some (.pause ms)

theorem endsWithEvent_of_cons (step : Step) (rest : Script) (ends : EndsWithEvent (step :: rest)) :
    rest.EndsWithEvent := by
  intro ms last
  cases rest with
  | nil => contradiction
  | cons next rest =>
      apply ends ms
      rw [List.getLast?_cons_cons]
      exact last

theorem endsWithEvent_nil : EndsWithEvent [] := fun _ => nofun

theorem endsWithEvent_concat (script : Script) (e : Event) :
    EndsWithEvent (script ++ [.emit e]) := by
  intro ms last
  rw [List.getLast?_concat] at last
  exact Step.noConfusion (Option.some.inj last)

theorem endsWithEvent_append (first second : Script) (ends : first.EndsWithEvent)
    (also : second.EndsWithEvent) : EndsWithEvent (first ++ second) := by
  intro ms last
  rw [List.getLast?_append, Option.or_eq_some_iff] at last
  rcases last with behind | ⟨-, before⟩
  · exact also ms behind
  · exact ends ms before

theorem endsWithEvent_cons (step : Step) (rest : Script) (ends : rest.EndsWithEvent)
    (more : rest ≠ []) : EndsWithEvent (step :: rest) := by
  intro ms last
  cases rest with
  | nil => contradiction
  | cons next rest =>
      rw [List.getLast?_cons_cons] at last
      exact ends ms last

theorem events_ne_nil (script : Script) (paced : script.IsPaced) (ends : script.EndsWithEvent)
    (some : script ≠ []) : (script.play (.ofToken .never) now sent).events ≠ [] := by
  induction script generalizing now sent with
  | nil => contradiction
  | cons step rest ih =>
      rcases paced step List.mem_cons_self with ⟨e, rfl⟩ | ⟨ms, rfl⟩
      · rw [play_emit_of_never]
        exact List.cons_ne_nil _ _
      · have more : rest ≠ [] := by
          rintro rfl
          exact ends ms rfl
        exact ih (now + ms) sent (isPaced_of_cons _ rest paced)
          (endsWithEvent_of_cons _ rest ends) more

/-- A script is completed under limits just if it hands over all that it would without them. -/
theorem outcome_eq_completed_iff (script : Script) (paced : script.IsPaced)
    (ends : script.EndsWithEvent) :
    (script.play l now sent).outcome = .completed ↔
      (script.play l now sent).events = (script.play (.ofToken .never) now sent).events := by
  induction script generalizing now sent with
  | nil => exact iff_of_true rfl rfl
  | cons step rest ih =>
      have restPaced := isPaced_of_cons step rest paced
      have restEnds := endsWithEvent_of_cons step rest ends
      rcases paced step List.mem_cons_self with ⟨e, rfl⟩ | ⟨ms, rfl⟩
      · rw [play_emit_of_never]
        cases closed : l.isClosed now sent with
        | true =>
            rw [play_emit_of_closed l now sent e rest closed]
            exact iff_of_false Outcome.noConfusion (List.cons_ne_nil _ _).symm
        | false =>
            rw [play_emit_of_free l now sent e rest closed]
            refine (ih now (sent + 1) restPaced restEnds).trans ?_
            exact ⟨congrArg (List.cons _), fun same => (List.cons.inj same).2⟩
      · rw [play_pause_of_never, play]
        cases paused : l.pause now sent ms with
        | error cut =>
            have more : rest ≠ [] := by
              rintro rfl
              exact ends ms rfl
            have left := events_ne_nil (now + ms) sent rest restPaced restEnds more
            exact iff_of_false Outcome.noConfusion left.symm
        | ok later =>
            rw [l.of_pause_ok now sent ms later paused]
            exact ih (now + ms) sent restPaced restEnds

end Limited

end Script

end Playback.Stream
