import Playback.Cassette.Recording
import Playback.Cassette.Reel
import Playback.Proofs.Cassette.Turn

namespace Playback.Cassette

namespace Part

def isBlank (p : Part) : Bool := p = .text "" || p = .reasoning ""

theorem ofThread?_toThread (p : Part) :
    ofThread? p.toThread = if p.isBlank then none else some p := by
  cases p <;> simp [ofThread?, toThread, isBlank]

end Part

def Message.userLine (m : Message) : List Message :=
  if m.userText = "" then [] else [⟨.user, [.text m.userText]⟩]

def assistantLine (parts : List Part) : List Message :=
  let shown := parts.filter (!·.isBlank)
  if shown.isEmpty then [] else [⟨.assistant, shown⟩]

def served (c : Cassette) (k : Nat) : List Part :=
  ((Reel.start c .instant 0).skip k).nextTurn.1.parts

def normal (c : Cassette) : Cassette :=
  ⟨c.userMessages.zipIdx.flatMap fun (m, k) => m.userLine ++ assistantLine (c.served k)⟩

theorem ofThread?_user (m : Message) :
    [Thread.Message.user m.userText].filterMap Message.ofThread? = m.userLine := by
  unfold Message.userLine
  by_cases empty : m.userText = "" <;>
    simp [empty, Message.ofThread?, Thread.Message.user, Role.ofThread?, Part.ofThread?]

theorem messages_of_system (thread : List Thread.Message)
    (hidden : ∀ m ∈ thread, m.role = .system) : (ofThread thread).messages = [] := by
  apply List.filterMap_eq_nil_iff.mpr
  intro m member
  simp [Message.ofThread?, Role.ofThread?, hidden m member]

theorem filterMap_toThread (parts : List Part) :
    (parts.map Part.toThread).filterMap Part.ofThread? = parts.filter (!·.isBlank) := by
  rw [List.filterMap_map, ← List.filterMap_eq_filter]
  congr 1
  funext p
  change Part.ofThread? p.toThread = _
  rw [Part.ofThread?_toThread]
  cases h : p.isBlank <;> simp [h, Option.guard]

theorem ofThread?_assistant (parts : List Part) :
    [Thread.Message.assistant (parts.map Part.toThread)].filterMap Message.ofThread? =
      assistantLine parts := by
  have recorded : Message.ofThread? (.assistant (parts.map Part.toThread)) =
      if (parts.filter (!·.isBlank)).isEmpty then none
      else some ⟨.assistant, parts.filter (!·.isBlank)⟩ := by
    rw [← filterMap_toThread]
    rfl
  rw [List.filterMap_cons, recorded, assistantLine, List.filterMap_nil]
  cases (parts.filter (!·.isBlank)).isEmpty <;> simp

namespace Reel

def ahead (r : Reel) : List Message := r.cassette.messages.drop r.cursor

/-- What is recorded when messages of the user are answered from a reel. -/
def lines (r : Reel) : List Message → List Message
  | [] => []
  | m :: rest => m.userLine ++ assistantLine r.nextTurn.1.parts ++ r.nextTurn.2.lines rest

theorem lines_eq_flatMap (r : Reel) (users : List Message) :
    r.lines users = users.zipIdx.flatMap fun (m, k) =>
      m.userLine ++ assistantLine (r.skip k).nextTurn.1.parts := by
  induction users generalizing r with
  | nil => rfl
  | cons m rest ih =>
      rw [lines, ih, List.zipIdx_cons, List.flatMap_cons, List.zipIdx_succ, List.flatMap_map]
      rfl

theorem skip_at_other_pace (r : Reel) (pacing : Pacing) (seed k : Nat) :
    ({ r with pacing := pacing, seed := seed } : Reel).skip k =
      { r.skip k with pacing := pacing, seed := seed } := by
  induction k generalizing r with
  | zero => rfl
  | succ k ih => exact ih r.nextTurn.2

theorem parts_skip_start (c : Cassette) (pacing : Pacing) (seed k : Nat) :
    ((start c pacing seed).skip k).nextTurn.1.parts = c.served k := by
  have same := skip_at_other_pace (start c .instant 0) pacing seed k
  change (start c pacing seed).skip k = _ at same
  rw [same]
  rfl

theorem lines_start (c : Cassette) (pacing : Pacing) (seed : Nat) :
    (start c pacing seed).lines c.userMessages = c.normal.messages := by
  rw [lines_eq_flatMap]
  simp only [parts_skip_start]
  rfl

theorem nextTurn_of_exchange (r : Reel) (question answer : List Part) (rest : List Message)
    (ahead : r.ahead = ⟨.user, question⟩ :: ⟨.assistant, answer⟩ :: rest)
    (last : rest.takeWhile (·.role = .assistant) = []) :
    r.nextTurn.1.parts = answer ∧ r.nextTurn.2.ahead = rest := by
  have next : r.cassette.messages.drop (r.cursor + 1 + 1) = rest := by
    have twice := congrArg (List.drop 2) ahead
    simpa [Reel.ahead, List.drop_drop] using twice
  unfold Reel.ahead at ahead
  constructor
  · simp [nextTurn, ahead, last]
  · simp [nextTurn, ahead, last, Reel.ahead, next]

theorem parts_of_last_question (r : Reel) (question : List Part)
    (ahead : r.ahead = [⟨.user, question⟩]) : r.nextTurn.1.parts = [] := by
  unfold Reel.ahead at ahead
  simp [nextTurn, ahead]

end Reel

/-- The user and the assistant speak in turn, and nothing that they say is left out. -/
inductive IsDialogue : List Message → Prop
  | nil : IsDialogue []
  | question (text : String) (said : text ≠ "") : IsDialogue [⟨.user, [.text text]⟩]
  | exchange (text : String) (said : text ≠ "") (parts : List Part) (some : parts ≠ [])
      (shown : ∀ p ∈ parts, p ≠ .text "" ∧ p ≠ .reasoning "") (rest : List Message)
      (dialogue : IsDialogue rest) :
      IsDialogue (⟨.user, [.text text]⟩ :: ⟨.assistant, parts⟩ :: rest)

theorem userLine_of_text (text : String) (said : text ≠ "") :
    Message.userLine ⟨.user, [.text text]⟩ = [⟨.user, [.text text]⟩] := by
  have same : Message.userText ⟨.user, [.text text]⟩ = text := by
    simp [Message.userText, String.intercalate_singleton]
  rw [Message.userLine, same, if_neg said]

theorem assistantLine_of_shown (parts : List Part) (some : parts ≠ [])
    (shown : ∀ p ∈ parts, p ≠ .text "" ∧ p ≠ .reasoning "") :
    assistantLine parts = [⟨.assistant, parts⟩] := by
  have all : parts.filter (!·.isBlank) = parts := by
    rw [List.filter_eq_self]
    intro p member
    simp [Part.isBlank, shown p member]
  simp [assistantLine, all, some]

theorem takeWhile_of_isDialogue (messages : List Message) (dialogue : IsDialogue messages) :
    messages.takeWhile (·.role = .assistant) = [] := by
  cases dialogue <;> simp

theorem lines_of_isDialogue (r : Reel) (messages : List Message) (dialogue : IsDialogue messages)
    (ahead : r.ahead = messages) :
    r.lines (messages.filter (·.role = .user)) = messages := by
  induction dialogue generalizing r with
  | nil => rfl
  | question text said =>
      have none := r.parts_of_last_question [.text text] ahead
      have line := userLine_of_text text said
      simp [Reel.lines, none, line, assistantLine]
  | exchange text said parts some shown rest dialogue ih =>
      have last := takeWhile_of_isDialogue rest dialogue
      obtain ⟨turn, next⟩ := r.nextTurn_of_exchange [.text text] parts rest ahead last
      have user := userLine_of_text text said
      have assistant := assistantLine_of_shown parts some shown
      have later := ih r.nextTurn.2 next
      simp [Reel.lines, turn, user, assistant, later]

theorem normal_of_isDialogue (c : Cassette) (dialogue : IsDialogue c.messages) : c.normal = c := by
  have all := lines_of_isDialogue (Reel.start c .instant 0) c.messages dialogue rfl
  have lines := Reel.lines_start c .instant 0
  have messages : c.normal.messages = c.messages := lines.symm.trans all
  cases c
  exact congrArg Cassette.mk messages

end Playback.Cassette
