import Playback.Proofs.Cassette.Turn
import Playback.Proofs.Chat.Intake

namespace Playback

namespace Cassette

open Thread (Assembler)

theorem orderly_partEvents (parts : List Thread.Part) (id : String) (p : Part) :
    Assembler.Orderly ⟨parts, []⟩ (p.events id) ∧
      (Assembler.applyAll ⟨parts, []⟩ (p.events id)).growing = [] := by
  cases p with
  | text t =>
      have typed := Assembler.applyAll_typed id .text (.textDelta id)
        (fun parts t d => Assembler.grow_last_text parts id t d) (.textStart id) (.textEnd id)
        (fun _ => rfl) (fun _ => rfl) parts t
      have order := Assembler.orderly_typed parts (.textStart id) (.textEnd id) (.textDelta id) t
        (fun _ => not_false) not_false
      exact ⟨order, congrArg (·.growing) typed⟩
  | reasoning t =>
      have typed := Assembler.applyAll_typed id .reasoning (.reasoningDelta id)
        (fun parts t d => Assembler.grow_last_reasoning parts id t d) (.reasoningStart id)
        (.reasoningEnd id) (fun _ => rfl) (fun _ => rfl) parts t
      have order := Assembler.orderly_typed parts (.reasoningStart id) (.reasoningEnd id)
        (.reasoningDelta id) t (fun _ => not_false) not_false
      exact ⟨order, congrArg (·.growing) typed⟩
  | toolCall call tool args result =>
      cases result with
      | none => exact ⟨⟨fun _ => rfl, trivial⟩, rfl⟩
      | some output => exact ⟨⟨fun _ => rfl, fun _ => rfl, trivial⟩, rfl⟩

theorem orderly_partsEvents (a : Assembler) (idle : a.growing = []) (first : Nat)
    (parts : List Part) : a.Orderly (partsEvents first parts) := by
  induction parts generalizing a first with
  | nil => trivial
  | cons p rest ih =>
      obtain ⟨done, growing⟩ := a
      subst idle
      obtain ⟨here, between⟩ := orderly_partEvents done (Uuid.ofNat first) p
      exact (Assembler.orderly_append _ _ _).mpr ⟨here, ih _ between (first + 1)⟩

end Cassette

namespace Chat

open Agents (Store)
open Cassette (Reel)
open Thread (Assembler texts)

inductive Action where
  | append (now : Nat) (text : String)
  | elapse (now : Nat)
  | settle (now : Nat)
  | cancel (now : Nat)
  deriving DecidableEq, Repr

namespace Conversation

variable {τ : Type} [Transport τ]

def perform (c : Conversation τ) : Action → Conversation τ
  | .append now text => (c.append now text).1
  | .elapse now => c.elapse now
  | .settle now => (c.settle now).1
  | .cancel now => c.cancel now

def performAll (c : Conversation τ) (actions : List Action) : Conversation τ :=
  actions.foldl perform c

end Conversation

/-- The texts of the assistant in a thread, in order. -/
def said (thread : List Thread.Message) : List String :=
  thread.flatMap fun m => if m.role = .assistant then texts m.content else []

theorem said_append (first second : List Thread.Message) :
    said (first ++ second) = said first ++ said second :=
  List.flatMap_append

theorem said_user (text : String) : said [.user text] = [] := rfl

theorem said_systems (systems : List String) : said (systems.map .system) = [] := by
  rw [said, List.flatMap_map]
  exact List.flatMap_eq_nil_iff.mpr fun _ _ => rfl

theorem said_reply (parts : List Thread.Part) : said (Conversation.reply parts) = texts parts := by
  unfold Conversation.reply
  split
  · rename_i empty
    rw [List.isEmpty_iff.mp empty]
    rfl
  · simp [said, Thread.Message.assistant]

theorem Reel.orderly_send (reel : Reel) :
    Assembler.empty.Orderly (Transport.send reel).1.handed := by
  change Assembler.Orderly _ (Stream.Script.handed (reel.nextTurn.1.script reel.pacing))
  rw [Cassette.handed_turnScript]
  exact Cassette.orderly_partsEvents .empty rfl _ _

namespace Conversation

/-- The store has taken what the thread says, and what the run that is going on has assembled. -/
structure Agrees {τ : Type} (base : Store) (c : Conversation τ) : Prop where
  idle : c.run = none →
    c.store.map Store.unstamped = some (base.takeTexts (said c.thread)).unstamped
  running : ∀ r, c.run = some r →
    Intake.InStep (base.takeTexts (said c.thread)) ⟨r.assembler, r.trackers, c.store, c.dropped⟩ ∧
      r.assembler.Orderly (r.script.handed.drop r.seen)

theorem agrees_elapse {τ : Type} (base : Store) (c : Conversation τ) (h : c.Agrees base)
    (now : Nat) : Agrees base (c.elapse now) := by
  cases busy : c.run with
  | none =>
      rw [elapse_of_idle c now busy]
      exact h
  | some r =>
      -- What is due now comes next in the script, and so part by part.
      obtain ⟨step, order⟩ := h.running r busy
      obtain ⟨rest, ahead⟩ := c.due_prefix r now
      rw [← ahead, Assembler.orderly_append] at order
      have intake := Intake.inStep_takeAll _ _ step c.origin (c.due r now) order.1
      rw [elapse_of_running c r now busy]
      split
      · refine ⟨fun _ => ?_, nofun⟩
        rw [finish_thread, said_append, said_reply, Store.takeTexts_append]
        exact intake.store
      · refine ⟨nofun, ?_⟩
        intro r' going
        obtain rfl : (c.take r (c.due r now)).2 = r' := Option.some.inj going
        refine ⟨intake, ?_⟩
        have later : r.script.handed.drop (r.seen + (c.due r now).length) = rest := by
          rw [← List.drop_drop, ← ahead, ← List.length_map (·.2), List.drop_left]
        change Assembler.Orderly (Intake.assembler _) (r.script.handed.drop (r.seen + _))
        rw [later, Intake.takeAll_assembler]
        exact order.2

section Orderly

variable {τ : Type} [Transport τ] (base : Store)
  (orderly : ∀ t : τ, Assembler.empty.Orderly (Transport.send t).1.handed)

include orderly

theorem agrees_append (c : Conversation τ) (h : c.Agrees base) (now : Nat) (text : String) :
    Agrees base (c.append now text).1 := by
  cases busy : c.run with
  | some r =>
      rw [append_of_running c now text r busy]
      exact h
  | none =>
      rw [append_of_idle c now text busy]
      have same : said (c.thread ++ [.user text]) = said c.thread := by
        rw [said_append, said_user, List.append_nil]
      refine ⟨nofun, ?_⟩
      intro r started
      obtain rfl : c.nextRun now = r := Option.some.inj started
      refine ⟨?_, orderly c.transport⟩
      change Intake.InStep (base.takeTexts (said (c.thread ++ [.user text]))) _
      rw [same]
      refine ⟨h.idle busy, nofun, ?_, fun _ _ => rfl⟩
      intro early t shape
      simp [nextRun, Assembler.empty] at shape

theorem agrees_perform (c : Conversation τ) (h : c.Agrees base) (action : Action) :
    Agrees base (c.perform action) := by
  cases action with
  | append now text => exact agrees_append base orderly c h now text
  | elapse now => exact agrees_elapse base c h now
  | settle now =>
      change Agrees base (c.settle now).1
      unfold settle
      split
      · exact h
      · exact agrees_elapse base c h _
  | cancel now => exact ⟨h.idle, h.running⟩

theorem agrees_performAll (c : Conversation τ) (h : c.Agrees base) (actions : List Action) :
    Agrees base (c.performAll actions) := by
  induction actions generalizing c with
  | nil => exact h
  | cons action rest ih => exact ih _ (agrees_perform base orderly c h action)

end Orderly

/-- After anything that was done, when no run is going on, the store is but for stamps what a new
one makes of the assistant's texts in the thread, of each as a whole and by itself. -/
theorem store_agrees_with_thread (cassette : Cassette) (pacing : Pacing) (partSeed : Nat)
    (systems : List String) (autoExpand : Bool) (clock clock' origin : Instant) (seed seed' : Nat)
    (token : Token) (actions : List Action) (c : Conversation Reel)
    (done : c = (start (Reel.start cassette pacing partSeed) (systems.map .system)
      (some (.new autoExpand clock seed)) origin token).performAll actions)
    (idle : c.run = none) :
    c.store.map Store.unstamped =
      some ((Store.new autoExpand clock' seed').takeTexts (said c.thread)).unstamped := by
  have begun : Agrees (Store.new autoExpand clock seed)
      (start (Reel.start cassette pacing partSeed) (systems.map .system)
        (some (.new autoExpand clock seed)) origin token) := by
    refine ⟨fun _ => ?_, nofun⟩
    change some _ = some (Store.takeTexts _ (said (systems.map .system))).unstamped
    rw [said_systems]
    rfl
  have ended := agrees_performAll _ Reel.orderly_send _ begun actions
  rw [← done] at ended
  rw [ended.idle idle]
  exact congrArg some (Store.takeTexts_congr _ _ _ rfl)

theorem store_agrees_cut_in_marker :
    let cassette : Cassette := ⟨[⟨.user, []⟩, ⟨.assistant, [.text "a", .reasoning "b"]⟩,
      ⟨.user, []⟩, ⟨.assistant, [.text "<!--GRAM_AGENT:\x7b\x7d-->"]⟩, ⟨.assistant, [.text "c"]⟩]⟩
    let chat := (start (Reel.start cassette ⟨1, 0, 0, 0⟩ 0) (["d"].map .system)
      (some (.new true default 0)) default .never).performAll
        [.append 0 "e", .settle 0, .append 9 "f", .elapse 14, .cancel 25, .elapse 30,
          .append 40 "g", .elapse 50]
    chat.run = none ∧ said chat.thread = ["a", "<!--GRAM_AGENT:\x7b"] ∧
      chat.store.map Store.unstamped =
        some ((Store.new true default 1).takeTexts (said chat.thread)).unstamped := by
  intro cassette chat
  have idle : chat.run = none := by decide +kernel
  exact ⟨idle, by decide +kernel,
    store_agrees_with_thread cassette ⟨1, 0, 0, 0⟩ 0 ["d"] true default default default 0 1 .never
      _ chat rfl idle⟩

end Conversation

end Chat

end Playback
