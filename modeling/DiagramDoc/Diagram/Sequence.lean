import DiagramDoc.Diagram.Id

/-!
# Sequence diagrams

Participants, and the messages that they send to each other.
-/

namespace DiagramDoc

structure Participant where
  id : Nat
  name : Text
deriving DecidableEq

namespace Participant

def defaultName : Text := "Participant".toList

instance : Entity Participant := ⟨Participant.id, fun participant id => { participant with id }⟩

end Participant

inductive Line where
  | solid
  | dashed
deriving DecidableEq, Inhabited

namespace Line

def name : Line → Text
  | .solid => "solid".toList
  | .dashed => "dashed".toList

def ofName? (t : Text) : Option Line := [solid, dashed].find? (fun l => l.name == t)

theorem ofName?_name (l : Line) : ofName? l.name = some l := by
  cases l <;> decide

end Line

structure Message where
  id : Nat
  sender : Nat
  receiver : Nat
  label : Text := []
  line : Line := .solid
deriving DecidableEq

namespace Message

instance : Entity Message := ⟨Message.id, fun message id => { message with id }⟩

def touches (m : Message) (participant : Nat) : Bool :=
  m.sender == participant || m.receiver == participant

end Message

structure Sequence where
  participants : List Participant := []
  messages : List Message := []
deriving DecidableEq

namespace Sequence

def participant? (s : Sequence) (id : Nat) : Option Participant :=
  Entity.find? s.participants id

def joins (s : Sequence) (m : Message) : Bool :=
  (s.participant? m.sender).isSome && (s.participant? m.receiver).isSome

def connectedMessages (s : Sequence) : List Message := s.messages.filter s.joins

/-- Drops a participant together with its messages, and tells which messages these were. -/
def removeParticipant? (s : Sequence) (id : Nat) : Option (Sequence × List Nat) :=
  (Entity.remove? id s.participants).map fun participants =>
    ({ participants, messages := s.messages.filter fun m => !m.touches id },
      Entity.ids (s.messages.filter fun m => m.touches id))

end Sequence
end DiagramDoc
