import Playback.Chat.Rehearsal
import Playback.Proofs.Chat.Minutes
import Playback.Proofs.Chat.Waiting

namespace Playback.Chat

section

variable {σ : Type} [Chat σ]

/-- After a message at an instant a chat tells of one run, from some stage on, in order and at
whatever times. It tells that the run is over, and is free then. -/
def RunsOnce (free : σ → Prop) (baseline now : Nat) (asked : σ) : Prop :=
  ∃ stage told finish, Chat.status asked = stage.status baseline ∧
    Chat.changes asked = told.map (fun (time, stage) => (time, stage.status baseline)) ∧
    Stage.IsTold (stage :: told.map (·.2)) ∧ Stage.end? ((now, stage) :: told) = some finish ∧
    free (Chat.elapse asked finish) ∧
    Chat.status (Chat.elapse asked finish) = Stage.after.status baseline

/-- A chat that is free does nothing by itself; it takes every message, and runs once. -/
structure TakesTurns (free : σ → Prop) : Prop where
  idle : ∀ s, free s → (Chat.status s).isRunning = false
  still : ∀ s, free s → Chat.changes s = []
  elapse_free : ∀ s now, free s → free (Chat.elapse s now)
  elapse_status : ∀ s now, free s → Chat.status (Chat.elapse s now) = Chat.status s
  accepts : ∀ s now text, free s → (Chat.append s now text).2 = true
  runsOnce : ∀ s now text, free s →
    RunsOnce free (Chat.status s).completed now (Chat.append s now text).1

end

theorem Conversation.takesTurns {τ : Type} [Transport τ] :
    TakesTurns fun c : Conversation τ => c.run = none where
  idle := by
    intro c free
    change c.run.isSome = false
    rw [free]
    rfl
  still := by
    intro c free
    change c.changes = []
    simp [changes, finish?, free]
  elapse_free := by
    intro c now free
    exact (congrArg Conversation.run (c.elapse_of_idle now free)).trans free
  elapse_status := by
    intro c now free
    exact congrArg Conversation.status (c.elapse_of_idle now free)
  accepts := by
    intro c now text free
    exact congrArg Prod.snd (c.append_of_idle now text free)
  runsOnce := by
    intro c now text free
    have asked : Chat.append c now text = (c.asked now text, true) :=
      c.append_of_idle now text free
    have answered : Chat.elapse (c.asked now text) (c.nextTrace now).finish =
        c.answer now text := by
      rw [answer, c.append_of_idle now text free]
      rfl
    have finished := c.answer_run now text free
    have counted := c.answer_completed now text free
    rw [asked]
    refine ⟨.during, [((c.nextTrace now).finish, .after)], (c.nextTrace now).finish, rfl, rfl,
      ?_, rfl, ?_, ?_⟩
    · simp [Stage.IsTold, Stage.left]
    · rw [answered]
      exact finished
    · rw [answered]
      change Status.mk (c.answer now text).run.isSome (c.answer now text).completed = _
      rw [finished, counted]
      rfl

def Plan.runs : Plan → Bool
  | instant | count | later _ _ => true
  | _ => false

namespace Rehearsal

structure IsFree (r : Rehearsal) : Prop where
  isOpen : r.isClosed = false
  idle : r.status.isRunning = false
  still : r.changes = []
  runs : ∀ plan ∈ r.plans, plan.runs = true

theorem status_of_isFree (r : Rehearsal) (free : r.IsFree) :
    r.status = ⟨false, r.status.completed⟩ :=
  congrArg (Status.mk · r.status.completed) free.idle

theorem elapse_of_still (r : Rehearsal) (now : Nat) (still : r.changes = []) :
    r.elapse now = r := by
  rcases r with ⟨status, closed, plans, changes⟩
  subst still
  rfl

section Follow

variable (r : Rehearsal) (now : Nat) (free : r.IsFree)

include free

theorem runsOnce_finished :
    RunsOnce IsFree r.status.completed now { r with status := r.finished } := by
  have same : Chat.elapse { r with status := r.finished } now =
      { r with status := r.finished } :=
    elapse_of_still _ now free.still
  refine ⟨.after, [], now, rfl, free.still, ?_, rfl, ?_, ?_⟩
  · exact List.pairwise_singleton _ _
  · rw [same]
    exact ⟨free.isOpen, rfl, free.still, free.runs⟩
  · rw [same]
    rfl

theorem runsOnce_later (start run : Nat) :
    RunsOnce IsFree r.status.completed now (r.follow now (.later start run)).1 := by
  have finished : (r.follow now (.later start run)).1.elapse (now + start + run) =
      { r with status := r.finished, changes := [] } := by
    simp [follow, elapse]
  refine ⟨.before, [(now + start, .during), (now + start + run, .after)], now + start + run,
    status_of_isFree r free, rfl, ?_, rfl, ?_, ?_⟩
  · simp [Stage.IsTold, Stage.left]
  · change IsFree (Rehearsal.elapse _ _)
    rw [finished]
    exact ⟨free.isOpen, rfl, rfl, free.runs⟩
  · change (Rehearsal.elapse _ _).status = _
    rw [finished]
    rfl

theorem follow_of_runs (plan : Plan) (runs : plan.runs = true) :
    (r.follow now plan).2 = true ∧
      RunsOnce IsFree r.status.completed now (r.follow now plan).1 := by
  cases plan with
  | instant => exact ⟨rfl, runsOnce_finished r now free⟩
  | count =>
      have counted : { r.status with completed := r.status.completed + 1 } = r.finished := by
        rw [status_of_isFree r free]
        rfl
      rw [follow, counted]
      exact ⟨rfl, runsOnce_finished r now free⟩
  | later start run => exact ⟨rfl, runsOnce_later r now free start run⟩
  | _ => cases runs

theorem append_of_isFree (text : String) :
    (r.append now text).2 = true ∧
      RunsOnce IsFree r.status.completed now (r.append now text).1 := by
  unfold append
  rw [if_neg (Bool.eq_false_iff.mp free.isOpen)]
  cases plans : r.plans with
  | nil => exact follow_of_runs r now free .instant rfl
  | cons plan rest =>
      have all := free.runs
      rw [plans, List.forall_mem_cons] at all
      exact follow_of_runs { r with plans := rest } now
        ⟨free.isOpen, free.idle, free.still, all.2⟩ plan all.1

end Follow

theorem takesTurns : TakesTurns IsFree where
  idle r free := free.idle
  still r free := free.still
  elapse_free := by
    intro r now free
    have same : Chat.elapse r now = r := r.elapse_of_still now free.still
    rwa [same]
  elapse_status := by
    intro r now free
    exact congrArg Rehearsal.status (r.elapse_of_still now free.still)
  accepts r now text free := (append_of_isFree r now free text).1
  runsOnce r now text free := (append_of_isFree r now free text).2

end Rehearsal

/-- A chat of which it is noted how every message finds it: its status, and what was still to come.
-/
structure Attended (σ : Type) where
  chat : σ
  found : List (Status × List (Nat × Status))

namespace Attended

variable {σ : Type}

def start (chat : σ) : Attended σ := ⟨chat, []⟩

variable [Chat σ]

def append (a : Attended σ) (now : Nat) (text : String) : Attended σ × Bool :=
  let (chat, accepted) := Chat.append a.chat now text
  (⟨chat, a.found ++ [(Chat.status a.chat, Chat.changes a.chat)]⟩, accepted)

instance : Chat (Attended σ) where
  status a := Chat.status a.chat
  isClosed a := Chat.isClosed a.chat
  changes a := Chat.changes a.chat
  append := append
  elapse a now := { a with chat := Chat.elapse a.chat now }

theorem isView_chat : IsView (Attended.chat (σ := σ)) where
  status _ := rfl
  isClosed _ := rfl
  changes _ := rfl
  append _ _ _ := rfl
  elapse _ _ := rfl

end Attended

end Playback.Chat
