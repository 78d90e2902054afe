import DiagramDoc.Proofs.Dialect.Linked
import DiagramDoc.Proofs.Dialect.Roll
import DiagramDoc.Proofs.Dialect.SequenceSpelling

/-!
# What the lines of a sequence diagram mean

Which handles the lines hold, what name they declare last for a handle, and which messages they send.
Reading them makes just the diagram that is described so. Two lines may declare one participant: a
handle can be written out, or be what is left of a name without its blanks.
-/

namespace DiagramDoc.Dialect.Seq

open Text

/-! ### What lines say -/

/-- The handles of a line, each of which stands for a participant. -/
def Line.handles : Line → List Text
  | .participant handle _ => [handle]
  | .message sender receiver _ _ => [sender, receiver]

/-- The name that a line declares for a handle. -/
def Line.declared? (handle : Text) : Line → Option Text
  | .participant other name => if other = handle then some name else none
  | .message _ _ _ _ => none

def Line.isMessage : Line → Bool
  | .participant _ _ => false
  | .message _ _ _ _ => true

/-- The handles of all lines, in the order of their first appearance. -/
def handlesIn (said : List Line) : List Text := (said.flatMap Line.handles).eraseDups

def declaredLast? (said : List Line) (handle : Text) : Option Text :=
  (said.filterMap (Line.declared? handle)).getLast?

/-- The message is the one that a line sends, if handles have these identifiers. -/
def SentBy (idOf : Text → Nat) : Line → Message → Prop
  | .message sender receiver line label, m =>
    m = { id := m.id, sender := idOf sender, receiver := idOf receiver,
          label := unescape label, line }
  | _, _ => False

/-- The diagram that lines describe: the participants of their handles, and the messages sent. -/
structure Describes (said : List Line) (idOf : Text → Nat) (s : Sequence) : Prop where
  participants : s.participants =
    (handlesIn said).map fun handle => ⟨idOf handle, (declaredLast? said handle).getD handle⟩
  messages : List.Forall₂ (SentBy idOf) (said.filter Line.isMessage) s.messages
  distinct : ((handlesIn said).map idOf ++ Entity.ids s.messages).Nodup

/-! ### Handles of a draft -/

namespace Draft

def roll (d : Draft) : Roll := ⟨d.scope, d.names, Entity.ids d.participants⟩

variable {d : Draft} {handle : Text}

theorem mention_known {id : Nat} (h : lookup? d.names handle = some id) :
    d.mention handle = (id, d) := by
  unfold mention resolve
  rw [h]
  rfl

theorem mention_new (h : lookup? d.names handle = none) :
    d.mention handle = ((d.scope.allot 'P' handle).1,
      { d with
        scope := (d.scope.allot 'P' handle).2
        names := (handle, (d.scope.allot 'P' handle).1) :: d.names
        participants := d.participants ++ [⟨(d.scope.allot 'P' handle).1, handle⟩] }) := by
  unfold mention resolve
  rw [h]
  rfl

theorem declare_known {id : Nat} (h : lookup? d.names handle = some id) (name : Text) :
    d.declare handle name =
      match Entity.update? (fun p : Participant => { p with name }) id d.participants with
      | some participants => { d with participants }
      | none => d := by
  unfold declare resolve
  rw [h]
  rfl

theorem declare_new (h : lookup? d.names handle = none) (name : Text) :
    d.declare handle name =
      { d with
        scope := (d.scope.allot 'P' handle).2
        names := (handle, (d.scope.allot 'P' handle).1) :: d.names
        participants := d.participants ++ [⟨(d.scope.allot 'P' handle).1, name⟩] } := by
  unfold declare resolve
  rw [h]
  rfl

theorem meets_mention (d : Draft) (handle : Text) :
    Roll.Meets 'P' handle (d.mention handle).1 d.roll (d.mention handle).2.roll := by
  cases h : lookup? d.names handle with
  | some id =>
    rw [mention_known h]
    exact .known h
  | none =>
    have hids : ∀ p : Participant, Entity.ids (d.participants ++ [p]) =
        Entity.ids d.participants ++ [p.id] := fun p => Entity.ids_append _ _
    rw [mention_new h]
    unfold roll
    rw [hids]
    exact .new h rfl

theorem meets_declare (d : Draft) (handle name : Text) :
    ∃ id, Roll.Meets 'P' handle id d.roll (d.declare handle name).roll := by
  cases h : lookup? d.names handle with
  | some id =>
    refine ⟨id, ?_⟩
    rw [declare_known h]
    split
    · next participants hp =>
      have hids : Entity.ids participants = Entity.ids d.participants :=
        Entity.ids_update? (by intro p; rfl) hp
      unfold roll
      rw [hids]
      exact .known h
    · exact .known h
  | none =>
    have hids : ∀ p : Participant, Entity.ids (d.participants ++ [p]) =
        Entity.ids d.participants ++ [p.id] := fun p => Entity.ids_append _ _
    refine ⟨(d.scope.allot 'P' handle).1, ?_⟩
    rw [declare_new h]
    unfold roll
    rw [hids]
    exact .new h rfl

/-- Meeting a handle sends no message. -/
theorem messages_mention (d : Draft) (handle : Text) :
    (d.mention handle).2.messages = d.messages := by
  cases h : lookup? d.names handle with
  | some id => simp [mention_known h]
  | none => simp [mention_new h]

theorem messages_declare (d : Draft) (handle name : Text) :
    (d.declare handle name).messages = d.messages := by
  cases h : lookup? d.names handle with
  | some id =>
    rw [declare_known h]
    split <;> simp
  | none => simp [declare_new h]

end Draft

/-! ### Messages of a draft -/

/-- A message is the one that a line sends by the names of a draft. -/
def SentIn (names : List (Text × Nat)) : Line → Message → Prop
  | .message sender receiver line label, m =>
    lookup? names sender = some m.sender ∧ lookup? names receiver = some m.receiver ∧
      m = { id := m.id, sender := m.sender, receiver := m.receiver, label := unescape label, line }
  | _, _ => False

theorem SentIn.mono {names names' : List (Text × Nat)}
    (h : ∀ handle id, lookup? names handle = some id → lookup? names' handle = some id) {l : Line}
    {m : Message} (hm : SentIn names l m) : SentIn names' l m := by
  cases l with
  | participant => exact hm
  | message => exact ⟨h _ _ hm.1, h _ _ hm.2.1, hm.2.2⟩

theorem SentIn.sentBy {r : Roll} {l : Line} {m : Message} (h : SentIn r.names l m) :
    SentBy r.idOf l m := by
  cases l with
  | participant => exact h
  | message sender receiver line label =>
    obtain ⟨hs, hr, hm⟩ := h
    show m = _
    rw [Roll.idOf_eq hs, Roll.idOf_eq hr]
    exact hm

/-! ### Names -/

/-- The participant of a handle for which a name was declared, or none. -/
def called (handle : Text) (declared : Option Text) (id : Nat) : Participant :=
  ⟨id, declared.getD handle⟩

section Names

variable {said : List Line} {d : Draft} {handle : Text} {names names' : Text → Option Text}

theorem declaredLast?_concat (said : List Line) (l : Line) (handle : Text) :
    declaredLast? (said ++ [l]) handle = (l.declared? handle).or (declaredLast? said handle) :=
  getLast?_filterMap_concat _ _ _

/-- No name was declared for a handle that is not there. -/
theorem declaredLast?_eq_none (h : handle ∉ said.flatMap Line.handles) :
    declaredLast? said handle = none := by
  unfold declaredLast?
  rw [List.getLast?_eq_none_iff, List.filterMap_eq_nil_iff]
  intro l hl
  cases l with
  | message => rfl
  | participant other name =>
    have hne : other ≠ handle := by
      rintro rfl
      exact h (List.mem_flatMap.mpr ⟨_, hl, List.mem_cons_self⟩)
    exact if_neg hne

theorem made_mention (h : Made called d.names names d.participants)
    (hn : lookup? d.names handle = none → names handle = none) :
    Made called (d.mention handle).2.names names (d.mention handle).2.participants := by
  cases hl : lookup? d.names handle with
  | some id => rwa [Draft.mention_known hl]
  | none =>
    have hnew := h.new hl (d.scope.allot 'P' handle).1 fun _ _ => rfl
    rw [hn hl] at hnew
    rw [Draft.mention_new hl]
    exact hnew

theorem made_declare {name : Text} (h : Made called d.names names d.participants)
    (hr : Roll.Enrolled (said.flatMap Line.handles) d.roll)
    (hd : (Entity.ids d.participants).Nodup) (hname : names' handle = some name)
    (hother : ∀ other, other ≠ handle → names' other = names other) :
    Made called (d.declare handle name).names names' (d.declare handle name).participants := by
  cases hl : lookup? d.names handle with
  | some id =>
    have hdistinct : (d.names.map Prod.snd).Nodup := hr.nodup_map_snd hd
    have hid : id ∈ Entity.ids d.participants := hr.mem_ids hl
    have hknown := h.known hdistinct hr.nodup hl (fun _ _ _ => rfl)
      (f := fun p : Participant => { p with name }) (fun s => by rw [hname]; rfl) hother
    rw [Draft.declare_known hl, Entity.update?_eq_map hd hid]
    exact hknown
  | none =>
    have hnew := h.new hl (d.scope.allot 'P' handle).1 hother
    rw [hname] at hnew
    rw [Draft.declare_new hl]
    exact hnew

theorem made_addMessage (h : Made called d.names names d.participants)
    (hn : ∀ handle, lookup? d.names handle = none → names handle = none) (sender receiver : Text)
    (line : DiagramDoc.Line) (label : Text) :
    Made called (d.addMessage sender receiver line label).names names
      (d.addMessage sender receiver line label).participants := by
  have hsender := made_mention h (hn sender)
  -- A receiver that is new behind the sender was new before it.
  exact made_mention hsender fun hnone =>
    hn receiver ((d.meets_mention sender).lookup?_of_none hnone)

end Names

/-! ### Lines one by one -/

/-- The draft of lines that say `said`, begun with nothing but a scope. As long as its participants
differ in their identifiers, they have the names that were declared last for their handles. -/
structure Draft.Follows (scope : Scope) (said : List Line) (d : Draft) : Prop where
  calls : Roll.Calls 'P' ⟨scope, [], []⟩ (said.flatMap Line.handles) d.roll
  messages : List.Forall₂ (SentIn d.names) (said.filter Line.isMessage) d.messages
  participants : (Entity.ids d.participants).Nodup →
    Made called d.names (declaredLast? said) d.participants

section Follows

variable {scope : Scope} {said : List Line} {d : Draft} {line : Text}

theorem follows_start (scope : Scope) : Draft.Follows scope [] { scope } :=
  ⟨.done, .nil, fun _ => rfl⟩

theorem Draft.Follows.enrolled (h : d.Follows scope said) :
    Roll.Enrolled (said.flatMap Line.handles) d.roll := h.calls.enrolled ⟨rfl, rfl⟩

theorem follows_addMessage (h : d.Follows scope said) (sender receiver : Text)
    (line : DiagramDoc.Line) (label : Text) :
    (d.addMessage sender receiver line label).Follows scope
      (said ++ [.message sender receiver line label]) := by
  have hsender := d.meets_mention sender
  have hreceiver := (d.mention sender).2.meets_mention receiver
  have hmessages : ((d.mention sender).2.mention receiver).2.messages = d.messages :=
    ((d.mention sender).2.messages_mention receiver).trans (d.messages_mention sender)
  constructor
  · have hcalls := ((h.calls.meet hsender).meet hreceiver).draw
    rw [List.append_assoc] at hcalls
    rw [List.flatMap_append, List.flatMap_singleton]
    exact hcalls
  · -- Handles that were known before the line, and the sender behind it, are known when it ends.
    have hold : List.Forall₂ (SentIn (d.addMessage sender receiver line label).names)
        (said.filter Line.isMessage) d.messages :=
      h.messages.imp fun _ _ hm =>
        hm.mono fun _ _ hi => hreceiver.lookup?_of_some (hsender.lookup?_of_some hi)
    rw [List.filter_append]
    show List.Forall₂ _ _ (((d.mention sender).2.mention receiver).2.messages ++ _)
    rw [hmessages]
    refine List.rel_append hold (.cons ⟨?_, hreceiver.lookup?_eq, rfl⟩ .nil)
    exact hreceiver.lookup?_of_some hsender.lookup?_eq
  · intro hd
    have hbefore := hd.sublist (hsender.ids_prefix.trans hreceiver.ids_prefix).sublist
    have hsame : declaredLast? (said ++ [.message sender receiver line label]) =
        declaredLast? said := funext fun other => declaredLast?_concat said _ other
    have hold : ∀ handle, lookup? d.names handle = none → declaredLast? said handle = none :=
      fun handle hn => declaredLast?_eq_none (h.enrolled.lookup?_eq_none_iff.mp hn)
    rw [hsame]
    exact made_addMessage (h.participants hbefore) hold sender receiver line label

theorem follows_declare (h : d.Follows scope said) (handle name : Text) :
    (d.declare handle name).Follows scope (said ++ [.participant handle name]) := by
  obtain ⟨id, hmeets⟩ := d.meets_declare handle name
  constructor
  · rw [List.flatMap_append, List.flatMap_singleton]
    exact h.calls.meet hmeets
  · have hnone : [Line.participant handle name].filter Line.isMessage = [] := rfl
    rw [List.filter_append, hnone, List.append_nil, d.messages_declare handle name]
    exact h.messages.imp fun _ _ hm => hm.mono fun _ _ hi => hmeets.lookup?_of_some hi
  · intro hd
    have hbefore := hd.sublist hmeets.ids_prefix.sublist
    refine made_declare (h.participants hbefore) h.enrolled hbefore ?_ ?_
    · rw [declaredLast?_concat, Line.declared?, if_pos rfl, Option.some_or]
    · intro other hne
      rw [declaredLast?_concat, Line.declared?, if_neg (Ne.symm hne), Option.none_or]

theorem follows_readLine_none (h : d.Follows scope said) (hl : readLine? line = none) :
    (d.readLine line).Follows scope said := by
  unfold Draft.readLine
  rw [hl]
  exact ⟨h.calls.note _ _, h.messages, h.participants⟩

theorem follows_readLine_some (h : d.Follows scope said) {l : Line} (hl : readLine? line = some l) :
    (d.readLine line).Follows scope (said ++ [l]) := by
  unfold Draft.readLine
  rw [hl]
  cases l with
  | participant handle name => exact follows_declare h handle name
  | message sender receiver kind label => exact follows_addMessage h sender receiver kind label

theorem follows_readLines (scope : Scope) (lines : List Text) :
    (lines.foldl Draft.readLine { scope }).Follows scope (lines.filterMap readLine?) :=
  foldl_said readLine? Draft.readLine (P := Draft.Follows scope) (follows_start scope)
    (fun _ _ _ hl h => follows_readLine_none h hl)
    (fun _ _ _ _ hl h => follows_readLine_some h hl) lines

end Follows

/-! ### The whole diagram -/

theorem describes_read {scope : Scope} {lines : List Text} (hc : scope.claimed = [])
    (hn : (read lines scope).2.next < EntityId.largest) :
    ∃ idOf, Describes (lines.filterMap readLine?) idOf (read lines scope).1 := by
  have hfollows := follows_readLines scope lines
  have hdistinct := hfollows.calls.nodup hc hn (accounts_read lines scope)
  have hparticipants := (List.nodup_append.mp hdistinct).1
  have hids : Entity.ids (read lines scope).1.participants = _ := hfollows.enrolled.ids_eq
  refine ⟨(lines.foldl Draft.readLine { scope }).roll.idOf, ?_, ?_, ?_⟩
  · have hnames : (lines.foldl Draft.readLine { scope }).names.reverse = _ :=
      hfollows.enrolled.reverse_names
    refine (hfollows.participants hparticipants).trans ?_
    rw [hnames, List.map_map]
    rfl
  · exact hfollows.messages.imp fun _ _ hm => hm.sentBy (r := Draft.roll _)
  · rwa [hids] at hdistinct

/-- Every message that a text sends is shown. -/
theorem connectedMessages_read (lines : List Text) (scope : Scope) :
    (read lines scope).1.connectedMessages = (read lines scope).1.messages :=
  List.filter_eq_self.mpr fun m hm => Sequence.joins_iff.mpr (linked_read lines scope m hm)

/-- Reading lines into any diagram makes the participants and messages that the lines mean together,
as long as counting does not come to its end, and all messages join participants. What a line says
is how it is spelled. -/
theorem exists_describes_connected_read (d : Diagram) (lines : List Text)
    (h : (read lines (Scope.ofDiagram d .sequence)).2.next < EntityId.largest) :
    (∀ line ∈ lines, ∀ handle name,
        readLine? line = some (.participant handle name) ↔ Declares line handle name) ∧
      (∀ line ∈ lines, ∀ sender receiver kind label,
        readLine? line = some (.message sender receiver kind label) ↔
          afterKeyword? "participant".toList line = none ∧
            MessageText line sender receiver kind label) ∧
      (∃ idOf, Describes (lines.filterMap readLine?) idOf
        (read lines (Scope.ofDiagram d .sequence)).1) ∧
      (read lines (Scope.ofDiagram d .sequence)).1.connectedMessages =
        (read lines (Scope.ofDiagram d .sequence)).1.messages :=
  ⟨fun _ _ _ _ => readLine?_eq_participant_iff, fun _ _ _ _ _ _ => readLine?_eq_message_iff,
    describes_read rfl h, connectedMessages_read _ _⟩

/-- Two declarations of one participant, the second behind a message that makes it. -/
def dialogue : List Text :=
  ["web -->> P4: a\\nb".toList, "participant \"w e b\"".toList, "P4->>db".toList, "note".toList,
   "participant P4 as Store".toList, "participant web as \"Web App\"".toList]

def talked : Diagram where
  counter := 6
  flowchart := { nodes := [{ id := 4, label := [] }] }

theorem exists_describes_connected_read_dialogue :
    (read dialogue (Scope.ofDiagram talked .sequence)).2.next = 11 ∧
      handlesIn (dialogue.filterMap readLine?) = ["web".toList, "P4".toList, "db".toList] ∧
      Declares "participant \"w e b\"".toList "web".toList "w e b".toList ∧
      MessageText "web -->> P4: a\\nb".toList "web".toList "P4".toList .dashed "a\\nb".toList ∧
      (∃ idOf, Describes (dialogue.filterMap readLine?) idOf
        (read dialogue (Scope.ofDiagram talked .sequence)).1) ∧
      (read dialogue (Scope.ofDiagram talked .sequence)).1.connectedMessages =
        (read dialogue (Scope.ofDiagram talked .sequence)).1.messages := by
  obtain ⟨hdeclares, hmessages, hdescribes, hconnected⟩ :=
    exists_describes_connected_read talked dialogue (by decide)
  exact ⟨by decide, by decide, (hdeclares _ (by decide) _ _).mp (by decide),
    ((hmessages _ (by decide) _ _ _ _).mp (by decide)).2, hdescribes, hconnected⟩

end DiagramDoc.Dialect.Seq
