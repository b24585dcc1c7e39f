import Playback.Stream.Script

namespace Playback

namespace Token

@[simp] theorem isCancelled_never (now : Nat) : never.isCancelled now = false := rfl

theorem isCancelled_of_le (token : Token) (now later : Nat) (le : now ≤ later)
    (cancelled : token.isCancelled now = true) : token.isCancelled later = true := by
  rcases token with ⟨_ | t⟩
  · contradiction
  · have passed : t ≤ now := of_decide_eq_true cancelled
    exact decide_eq_true (Nat.le_trans passed le)

theorem not_isCancelled_of_le (token : Token) (now later : Nat) (le : now ≤ later)
    (going : token.isCancelled later = false) : token.isCancelled now = false := by
  cases early : token.isCancelled now with
  | false => rfl
  | true =>
      rw [token.isCancelled_of_le now later le early] at going
      contradiction

theorem isCancelled_cancel_iff (token : Token) (instant now : Nat) :
    (token.cancel instant).isCancelled now = true ↔
      token.isCancelled now = true ∨ instant ≤ now := by
  rcases token with ⟨_ | t⟩
  · simp [cancel, isCancelled]
  · simp only [cancel, isCancelled, Option.getD_some, Option.any_some, decide_eq_true_iff]
    change min t instant ≤ now ↔ _
    omega

theorem pause_of_going (token : Token) (now ms : Nat)
    (going : token.isCancelled (now + ms) = false) : token.pause now ms = .ok (now + ms) := by
  rcases token with ⟨_ | t⟩
  · rfl
  · exact if_neg (of_decide_eq_false going)

theorem pause_of_cancelled (token : Token) (now ms : Nat)
    (cancelled : token.isCancelled (now + ms) = true) : ∃ cut, token.pause now ms = .error cut := by
  rcases token with ⟨_ | t⟩
  · contradiction
  · exact ⟨max now t, if_pos (of_decide_eq_true cancelled)⟩

/-- What is left of timed things when those from the cancellation on are left out. -/
def keep {α : Type} (token : Token) (timed : List (Nat × α)) : List (Nat × α) :=
  timed.filter fun p => !token.isCancelled p.1

theorem keep_cons {α : Type} (token : Token) (now : Nat) (x : α) (timed : List (Nat × α))
    (going : token.isCancelled now = false) :
    token.keep ((now, x) :: timed) = (now, x) :: token.keep timed := by
  unfold keep
  rw [List.filter_cons_of_pos]
  rw [going]
  rfl

theorem keep_append {α : Type} (token : Token) (timed more : List (Nat × α)) :
    token.keep (timed ++ more) = token.keep timed ++ token.keep more :=
  List.filter_append timed more

theorem keep_of_isCancelled {α : Type} (token : Token) (now : Nat) (timed : List (Nat × α))
    (after : ∀ p ∈ timed, now ≤ p.1) (cancelled : token.isCancelled now = true) :
    token.keep timed = [] := by
  apply List.filter_eq_nil_iff.mpr
  intro p member
  rw [token.isCancelled_of_le now p.1 (after p member) cancelled]
  exact Bool.false_ne_true

theorem keep_never {α : Type} (timed : List (Nat × α)) : never.keep timed = timed :=
  List.filter_eq_self.mpr fun _ _ => rfl

theorem pause_of_late (t now ms : Nat) (late : now + ms < t) :
    (cancelledFrom t).pause now ms = .ok (now + ms) := by
  have uncut : ¬ t ≤ now + ms := Nat.not_le.mpr late
  simp [pause, cancelledFrom, uncut]

theorem pause_of_early (t now ms : Nat) (early : t ≤ now + ms) :
    (cancelledFrom t).pause now ms = .error (max now t) := by
  simp [pause, cancelledFrom, early]

theorem of_pause_ok (token : Token) (now ms later : Nat) (whole : token.pause now ms = .ok later) :
    later = now + ms := by
  unfold pause at whole
  split at whole
  · exact (Except.ok.inj whole).symm
  · split at whole
    · contradiction
    · exact (Except.ok.inj whole).symm

theorem le_of_pause_error (token : Token) (now ms cut : Nat)
    (short : token.pause now ms = .error cut) : now ≤ cut := by
  unfold pause at short
  split at short
  · contradiction
  · split at short
    · rw [← Except.error.inj short]
      exact Nat.le_max_left now _
    · contradiction

end Token

namespace Stream

namespace Limits

theorem of_pause_ok (l : Limits) (now sent ms later : Nat)
    (whole : l.pause now sent ms = .ok later) : later = now + ms := by
  unfold pause at whole
  split at whole
  · contradiction
  · exact l.token.of_pause_ok now ms later whole

theorem le_of_pause_ok (l : Limits) (now sent ms later : Nat)
    (whole : l.pause now sent ms = .ok later) : now ≤ later := by
  rw [l.of_pause_ok now sent ms later whole]
  exact Nat.le_add_right now ms

theorem le_of_pause_error (l : Limits) (now sent ms cut : Nat)
    (short : l.pause now sent ms = .error cut) : now ≤ cut := by
  unfold pause at short
  split at short
  · exact Nat.le_of_eq (Except.error.inj short)
  · exact l.token.le_of_pause_error now ms cut short

@[simp] theorem isCancelled_ofToken (token : Token) (now sent : Nat) :
    (ofToken token).isCancelled now sent = token.isCancelled now := by
  simp [isCancelled, ofToken]

theorem pause_ofToken_of_going (token : Token) (now sent ms : Nat)
    (going : token.isCancelled (now + ms) = false) :
    (ofToken token).pause now sent ms = .ok (now + ms) := by
  have before := token.not_isCancelled_of_le now (now + ms) (Nat.le_add_right now ms) going
  unfold pause
  rw [isCancelled_ofToken, before, if_neg Bool.false_ne_true]
  exact token.pause_of_going now ms going

theorem pause_ofToken_of_cancelled (token : Token) (now sent ms : Nat)
    (cancelled : token.isCancelled (now + ms) = true) :
    ∃ cut, (ofToken token).pause now sent ms = .error cut := by
  unfold pause
  split
  · exact ⟨now, rfl⟩
  · exact token.pause_of_cancelled now ms cancelled

@[simp] theorem isFull_ofToken (token : Token) (sent : Nat) :
    (ofToken token).isFull sent = false := rfl

end Limits

def Step.map (f : Event → Event) : Step → Step
  | .emit e => .emit (f e)
  | .write e => .write (f e)
  | .pause ms => .pause ms
  | .crash => .crash
  | .stop outcome => .stop outcome

def Trace.map (f : Event → Event) (t : Trace) : Trace :=
  { t with events := t.events.map fun (time, e) => (time, f e) }

@[simp] theorem Trace.events_afterPause (now : Nat) (t : Trace) :
    (t.afterPause now).events = t.events := rfl

namespace Script

theorem play_map (f : Event → Event) (l : Limits) (now sent : Nat) (script : Script) :
    Script.play l now sent (script.map (Step.map f)) = (script.play l now sent).map f := by
  induction script generalizing now sent with
  | nil => rfl
  | cons step rest ih =>
      rw [List.map_cons]
      cases step with
      | emit e | write e =>
          simp only [Step.map, play]
          split
          · rfl
          · exact congrArg (Trace.afterEvent now (f e)) (ih now (sent + 1))
      | pause ms =>
          simp only [Step.map, play]
          split
          · rfl
          · exact congrArg (Trace.afterPause _) (ih _ sent)
      | crash => rfl
      | stop outcome => rfl

theorem now_le_finish (l : Limits) (now sent : Nat) (script : Script) :
    now ≤ (script.play l now sent).finish := by
  induction script generalizing now sent with
  | nil => exact Nat.le_refl now
  | cons step rest ih =>
      cases step with
      | emit e | write e =>
          unfold play
          split
          · exact Nat.le_refl now
          · exact ih now (sent + 1)
      | pause ms =>
          unfold play
          split
          · rename_i cut short
            exact l.le_of_pause_error now sent ms cut short
          · rename_i later whole
            exact Nat.le_trans (l.le_of_pause_ok now sent ms later whole) (ih later sent)
      | crash => exact Nat.le_refl now
      | stop outcome => exact Nat.le_refl now

theorem bounds_of_mem_events (l : Limits) (now sent : Nat) (script : Script) (p : Nat × Event)
    (member : p ∈ (script.play l now sent).events) :
    now ≤ p.1 ∧ p.1 ≤ (script.play l now sent).finish := by
  induction script generalizing now sent with
  | nil => cases member
  | cons step rest ih =>
      cases step with
      | emit e | write e =>
          unfold play at member ⊢
          split at member
          · cases member
          · rename_i going
            rw [if_neg going]
            rcases List.mem_cons.mp member with rfl | later
            · exact ⟨Nat.le_refl now, now_le_finish l now (sent + 1) rest⟩
            · exact ih now (sent + 1) later
      | pause ms =>
          unfold play at member ⊢
          split at member
          · cases member
          · rename_i later whole
            obtain ⟨after, before⟩ := ih later sent member
            exact ⟨Nat.le_trans (l.le_of_pause_ok now sent ms later whole) after, before⟩
      | crash => cases member
      | stop outcome => cases member

theorem now_le_of_mem_events (l : Limits) (now sent : Nat) (script : Script) (p : Nat × Event)
    (member : p ∈ (script.play l now sent).events) : now ≤ p.1 :=
  (bounds_of_mem_events l now sent script p member).1

theorem le_finish_of_mem_events (l : Limits) (now sent : Nat) (script : Script) (p : Nat × Event)
    (member : p ∈ (script.play l now sent).events) : p.1 ≤ (script.play l now sent).finish :=
  (bounds_of_mem_events l now sent script p member).2

def handed : Script → List Event
  | [] => []
  | .emit e :: rest | .write e :: rest => e :: handed rest
  | .pause _ :: rest => handed rest
  | .crash :: _ | .stop _ :: _ => []

theorem play_emit_of_never (now sent : Nat) (e : Event) (rest : Script) :
    play (.ofToken .never) now sent (.emit e :: rest) =
      (play (.ofToken .never) now (sent + 1) rest).afterEvent now e := rfl

theorem play_pause_of_never (now sent ms : Nat) (rest : Script) :
    play (.ofToken .never) now sent (.pause ms :: rest) =
      (play (.ofToken .never) (now + ms) sent rest).afterPause (now + ms) := rfl

theorem map_events_of_never (now sent : Nat) (script : Script) :
    (script.play (.ofToken .never) now sent).events.map (·.2) = script.handed := by
  induction script generalizing now sent with
  | nil => rfl
  | cons step rest ih =>
      cases step with
      | emit e | write e => exact congrArg (e :: ·) (ih now (sent + 1))
      | pause ms => exact ih (now + ms) sent
      | crash => rfl
      | stop outcome => rfl

theorem map_events_prefix (l : Limits) (now sent : Nat) (script : Script) :
    (script.play l now sent).events.map (·.2) <+: script.handed := by
  induction script generalizing now sent with
  | nil => exact List.nil_prefix
  | cons step rest ih =>
      cases step with
      | emit e | write e =>
          unfold play
          split
          · exact List.nil_prefix
          · exact List.prefix_cons_inj e |>.mpr (ih now (sent + 1))
      | pause ms =>
          unfold play
          split
          · exact List.nil_prefix
          · exact ih _ sent
      | crash => exact List.nil_prefix
      | stop outcome => exact List.nil_prefix

/-- Does a script do no more than pause, and hand over events to a token that is not cancelled? -/
def IsPaced (script : Script) : Prop :=
  ∀ step ∈ script, (∃ e, step = .emit e) ∨ ∃ ms, step = .pause ms

theorem isPaced_of_cons (step : Step) (rest : Script) (paced : IsPaced (step :: rest)) :
    rest.IsPaced := fun s member => paced s (List.mem_cons_of_mem step member)

theorem isPaced_append (first second : Script) (paced : first.IsPaced) (also : second.IsPaced) :
    IsPaced (first ++ second) := by
  intro step member
  rcases List.mem_append.mp member with before | behind
  · exact paced step before
  · exact also step behind

theorem handed_append (first second : Script) (paced : first.IsPaced) :
    handed (first ++ second) = first.handed ++ second.handed := by
  induction first with
  | nil => rfl
  | cons step rest ih =>
      have next := ih (isPaced_of_cons step rest paced)
      rcases paced step List.mem_cons_self with ⟨e, rfl⟩ | ⟨ms, rfl⟩
      · exact congrArg (e :: ·) next
      · exact next

theorem play_of_isCancelled (token : Token) (now sent : Nat) (script : Script)
    (paced : script.IsPaced) (cancelled : token.isCancelled now = true) :
    (script.play (.ofToken token) now sent).events = [] ∧
      (script.play (.ofToken token) now sent).finish = now := by
  cases script with
  | nil => exact ⟨rfl, rfl⟩
  | cons step rest =>
      rcases paced step List.mem_cons_self with ⟨e, rfl⟩ | ⟨ms, rfl⟩
      · simp [play, cancelled, Trace.ended]
      · simp [play, Limits.pause, cancelled, Trace.ended]

section Cancelled

variable (t now sent : Nat) (script : Script)

theorem play_of_late (late : (script.play (.ofToken .never) now sent).finish < t) :
    script.play (.ofToken (.cancelledFrom t)) now sent =
      script.play (.ofToken .never) now sent := by
  induction script generalizing now sent with
  | nil => rfl
  | cons step rest ih =>
      have before : now < t :=
        Nat.lt_of_le_of_lt (now_le_finish (.ofToken .never) now sent (step :: rest)) late
      have uncancelled : (Token.cancelledFrom t).isCancelled now = false :=
        decide_eq_false (Nat.not_le.mpr before)
      cases step with
      | emit e =>
          simp only [play, Limits.isCancelled_ofToken, uncancelled, Token.isCancelled_never,
            Limits.isFull_ofToken, Bool.or_self, Bool.false_eq_true, if_false] at late ⊢
          exact congrArg (Trace.afterEvent now e) (ih now (sent + 1) late)
      | write e => exact congrArg (Trace.afterEvent now e) (ih now (sent + 1) late)
      | pause ms =>
          -- The pause is over before the end, and so before the cancellation.
          have within : now + ms < t := by
            have end_le := now_le_finish (.ofToken .never) (now + ms) sent rest
            exact Nat.lt_of_le_of_lt end_le late
          have paused : (Limits.ofToken (.cancelledFrom t)).pause now sent ms = .ok (now + ms) := by
            simp only [Limits.pause, Limits.isCancelled_ofToken, uncancelled, Bool.false_eq_true,
              if_false]
            exact Token.pause_of_late t now ms within
          rw [play, paused]
          exact congrArg (Trace.afterPause (now + ms)) (ih (now + ms) sent late)
      | crash => rfl
      | stop outcome => rfl

/-- A token that is cancelled before the end does not make the end come before that. -/
theorem le_finish_of_early (early : t ≤ (script.play (.ofToken .never) now sent).finish) :
    t ≤ (script.play (.ofToken (.cancelledFrom t)) now sent).finish := by
  by_cases passed : t ≤ now
  · exact Nat.le_trans passed (now_le_finish _ now sent script)
  have uncancelled : (Token.cancelledFrom t).isCancelled now = false := decide_eq_false passed
  induction script generalizing now sent with
  | nil => exact early
  | cons step rest ih =>
      cases step with
      | emit e =>
          simp only [play, Limits.isCancelled_ofToken, uncancelled, Token.isCancelled_never,
            Limits.isFull_ofToken, Bool.or_self, Bool.false_eq_true, if_false] at early ⊢
          exact ih now (sent + 1) early passed uncancelled
      | write e => exact ih now (sent + 1) early passed uncancelled
      | pause ms =>
          have paused : (Limits.ofToken (.cancelledFrom t)).pause now sent ms =
              (Token.cancelledFrom t).pause now ms := by
            simp only [Limits.pause, Limits.isCancelled_ofToken, uncancelled, Bool.false_eq_true,
              if_false]
            rfl
          rw [play, paused]
          by_cases cut : t ≤ now + ms
          · rw [Token.pause_of_early t now ms cut]
            exact Nat.le_max_right now t
          · rw [Token.pause_of_late t now ms (Nat.not_le.mp cut)]
            exact ih (now + ms) sent early cut (decide_eq_false cut)
      | crash => exact early
      | stop outcome => exact early

end Cancelled

theorem finish_of_token (token : Token) (now sent : Nat) (script : Script) :
    let whole := (script.play (.ofToken .never) now sent).finish
    let cut := (script.play (.ofToken token) now sent).finish
    cut = whole ∨ (token.isCancelled whole = true ∧ token.isCancelled cut = true) := by
  intro whole cut
  rcases token with ⟨_ | t⟩
  · exact .inl rfl
  · by_cases late : whole < t
    · exact .inl (congrArg Trace.finish (play_of_late t now sent script late))
    · have early : t ≤ whole := Nat.not_lt.mp late
      exact .inr ⟨decide_eq_true early, decide_eq_true (le_finish_of_early t now sent script early)⟩

/-- A cancellation cuts off what would be handed over from then on, and nothing else. -/
theorem events_of_token (token : Token) (now sent : Nat) (script : Script)
    (paced : script.IsPaced) :
    (script.play (.ofToken token) now sent).events =
      token.keep (script.play (.ofToken .never) now sent).events := by
  induction script generalizing now sent with
  | nil => rfl
  | cons step rest ih =>
      have restPaced := isPaced_of_cons step rest paced
      rcases paced step List.mem_cons_self with ⟨e, rfl⟩ | ⟨ms, rfl⟩
      · cases cancelled : token.isCancelled now with
        | true =>
            rw [token.keep_of_isCancelled now _ (now_le_of_mem_events _ now sent _) cancelled]
            simp only [play, Limits.isCancelled_ofToken, cancelled, Bool.true_or, if_true]
            rfl
        | false =>
            rw [play_emit_of_never]
            simp only [play, Limits.isCancelled_ofToken, cancelled, Limits.isFull_ofToken,
              Bool.or_self, Bool.false_eq_true, if_false]
            exact (congrArg ((now, e) :: ·) (ih now (sent + 1) restPaced)).trans
              (token.keep_cons now e _ cancelled).symm
      · rw [play_pause_of_never, Trace.events_afterPause, play]
        cases cancelled : token.isCancelled (now + ms) with
        | true =>
            obtain ⟨cut, short⟩ := Limits.pause_ofToken_of_cancelled token now sent ms cancelled
            rw [token.keep_of_isCancelled (now + ms) _ (now_le_of_mem_events _ _ sent _) cancelled,
              short]
            rfl
        | false =>
            rw [Limits.pause_ofToken_of_going token now sent ms cancelled]
            exact ih (now + ms) sent restPaced

end Script

end Stream

end Playback
