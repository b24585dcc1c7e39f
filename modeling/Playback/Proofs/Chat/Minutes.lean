import Playback.Proofs.Chat.Conversation

namespace Playback.Chat

open Playback.Stream (Event)

/-- A part of one chat that goes through everything as a chat of its own. -/
structure IsView {σ ρ : Type} [Chat σ] [Chat ρ] (view : σ → ρ) : Prop where
  status : ∀ s, Chat.status (view s) = Chat.status s
  isClosed : ∀ s, Chat.isClosed (view s) = Chat.isClosed s
  changes : ∀ s, Chat.changes (view s) = Chat.changes s
  append : ∀ s now text,
    Chat.append (view s) now text = (view (Chat.append s now text).1, (Chat.append s now text).2)
  elapse : ∀ s now, Chat.elapse (view s) now = view (Chat.elapse s now)

inductive Entry where
  | message (text : String)
  | event (e : Event)
  deriving DecidableEq, Repr

namespace Entry

def message? : Entry → Option String
  | message text => some text
  | event _ => none

def event? : Entry → Option Event
  | message _ => none
  | event e => some e

end Entry

structure Minutes (τ : Type) where
  chat : Conversation τ
  entries : List (Nat × Entry)

namespace Minutes

variable {τ : Type}

def start (chat : Conversation τ) : Minutes τ := ⟨chat, []⟩

def ofEvents (events : List (Nat × Event)) : List (Nat × Entry) :=
  events.map fun (time, e) => (time, .event e)

def messages (entries : List (Nat × Entry)) : List (Nat × String) :=
  entries.filterMap fun (time, entry) => entry.message?.map (time, ·)

def events (entries : List (Nat × Entry)) : List (Nat × Event) :=
  entries.filterMap fun (time, entry) => entry.event?.map (time, ·)

theorem messages_exchange (now : Nat) (text : String) (new : List (Nat × Event)) :
    messages ((now, .message text) :: ofEvents new) = [(now, text)] := by
  have none : messages (ofEvents new) = [] := by
    simp [messages, ofEvents, Entry.message?]
  exact congrArg ((now, text) :: ·) none

theorem events_exchange (now : Nat) (text : String) (new : List (Nat × Event)) :
    events ((now, .message text) :: ofEvents new) = new := by
  change events (ofEvents new) = new
  unfold events ofEvents
  rw [List.filterMap_map]
  exact List.filterMap_some

theorem keep_ofEvents (token : Token) (new : List (Nat × Event)) :
    token.keep (ofEvents new) = ofEvents (token.keep new) :=
  List.filter_map

def append [Transport τ] (m : Minutes τ) (now : Nat) (text : String) : Minutes τ × Bool :=
  let (chat, accepted) := m.chat.append now text
  (⟨chat, if accepted then m.entries ++ [(now, .message text)] else m.entries⟩, accepted)

def elapse (m : Minutes τ) (now : Nat) : Minutes τ :=
  let chat := m.chat.elapse now
  ⟨chat, m.entries ++ ofEvents (chat.log.drop m.chat.log.length)⟩

instance [Transport τ] : Chat (Minutes τ) where
  status m := m.chat.status
  isClosed _ := false
  changes m := m.chat.changes
  append := append
  elapse := elapse

theorem isView_chat [Transport τ] : IsView (Minutes.chat (τ := τ)) where
  status _ := rfl
  isClosed _ := rfl
  changes _ := rfl
  append _ _ _ := rfl
  elapse _ _ := rfl

theorem elapse_of_idle (m : Minutes τ) (now : Nat) (idle : m.chat.run = none) :
    m.elapse now = m := by
  have nothing : m.chat.log.drop m.chat.log.length = [] := List.drop_length
  unfold elapse
  dsimp only
  rw [m.chat.elapse_of_idle now idle, nothing]
  exact congrArg (Minutes.mk m.chat) (List.append_nil m.entries)

def asked [Transport τ] (m : Minutes τ) (now : Nat) (text : String) : Minutes τ :=
  ⟨m.chat.asked now text, m.entries ++ [(now, .message text)]⟩

section Idle

variable [Transport τ] (m : Minutes τ) (now : Nat) (text : String) (idle : m.chat.run = none)

include idle

theorem append_of_idle : m.append now text = (m.asked now text, true) := by
  unfold append
  rw [m.chat.append_of_idle now text idle]
  rfl

theorem elapse_asked :
    (m.asked now text).elapse (m.chat.nextTrace now).finish =
      ⟨m.chat.answer now text,
        m.entries ++ (now, .message text) :: ofEvents (m.chat.nextTrace now).events⟩ := by
  have answer : (m.chat.asked now text).elapse (m.chat.nextTrace now).finish =
      m.chat.answer now text := by
    rw [Conversation.answer, m.chat.append_of_idle now text idle]
  have log : (m.chat.answer now text).log = m.chat.log ++ (m.chat.nextTrace now).events := by
    rw [m.chat.answer_eq now text idle]
    rfl
  have new : (m.chat.answer now text).log.drop m.chat.log.length =
      (m.chat.nextTrace now).events := by
    rw [log, List.drop_left]
  unfold elapse
  change Minutes.mk ((m.chat.asked now text).elapse _) (m.entries ++ [(now, .message text)] ++
    ofEvents (((m.chat.asked now text).elapse _).log.drop m.chat.log.length)) = _
  rw [answer, new, List.append_assoc, List.singleton_append]

end Idle

end Minutes

end Playback.Chat
