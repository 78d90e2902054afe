import DiagramDoc.Proofs.Dialect.ReadText
import DiagramDoc.Proofs.Dialect.SequenceLines

/-!
# Reading a sequence diagram back

Participants are written first, each under a name that asks for its identifier, so the messages
behind them only name participants that are known. A tidy label comes back, as all labels of a
diagram that was read are.
-/

namespace DiagramDoc.Dialect.Seq

open Text

/-! ### Reading the written lines -/

def renamed (p : Participant) : Participant := { p with name := unifyBreaks p.name }

/-- A message as its line is read. -/
def reread (m : Message) : Message := { m with label := unescape (trim (escape m.label)) }

/-- Only blanks at the ends of a label are lost. -/
theorem reread_of_tidy {m : Message} (h : Tidy (unifyBreaks m.label)) :
    reread m = { m with label := unifyBreaks m.label } := by
  have ht : trim (escape m.label) = escape m.label := trim_escapeFor meaning_none h
  unfold reread
  rw [ht, unescape_escape]

/-- A message came back: blanks at the ends of its label may be lost, and its identifier is new. -/
structure CameBack (m m' : Message) : Prop where
  sender : m'.sender = m.sender
  receiver : m'.receiver = m.receiver
  line : m'.line = m.line
  label : Tidy (unifyBreaks m.label) → m'.label = unifyBreaks m.label

theorem cameBack_of_anonymous {messages messages' : List Message}
    (h : Entity.anonymous messages' = Entity.anonymous (messages.map reread)) :
    List.Forall₂ CameBack messages messages' := by
  induction messages generalizing messages' with
  | nil =>
    have hl := Entity.length_eq_of_anonymous h
    rw [List.length_eq_zero_iff.mp hl]
    exact .nil
  | cons m messages ih =>
    cases messages' with
    | nil => cases h
    | cons m' messages' =>
      obtain ⟨hm, hrest⟩ := List.cons.inj h
      have hfield : ∀ {β : Type} (f : Message → β),
          f (Entity.withId m' EntityId.missing) = f (Entity.withId (reread m) EntityId.missing) :=
        fun f => congrArg f hm
      have hlabel : m'.label = (reread m).label := hfield Message.label
      refine .cons ⟨hfield Message.sender, hfield Message.receiver, hfield Message.line,
        fun ht => ?_⟩ (ih hrest)
      rw [hlabel, reread_of_tidy ht]

/-- The draft has handed out just these identifiers, each to its own name. -/
structure Draft.Named (d : Draft) (ids : List Nat) : Prop where
  names : d.names = literalNames 'P' ids
  claimed : d.scope.claimed = ids

theorem readLine_participantLine {d : Draft} {ids : List Nat} {p : Participant} (h : d.Named ids)
    (hp : EntityId.InRange p.id) (hr : p.id ∉ d.scope.reserved) (hi : p.id ∉ ids) :
    ∃ scope, d.readLine (participantLine p) =
        { d with
          scope
          names := literalNames 'P' (p.id :: ids)
          participants := d.participants ++ [renamed p] } ∧
      scope.reserved = d.scope.reserved ∧ scope.claimed = p.id :: ids := by
  have hl : lookup? d.names (participantName p.id) = none := by
    rw [h.names]
    exact lookup?_literalNames_of_not_mem 'P' hi
  obtain ⟨hid, hres, hclaim⟩ := allot_literalName 'P' hp hr (h.claimed ▸ hi)
  refine ⟨(d.scope.allot 'P' (participantName p.id)).2, ?_, hres, h.claimed ▸ hclaim⟩
  have hid : (d.scope.allot 'P' (participantName p.id)).1 = p.id := hid
  unfold Draft.readLine
  rw [readLine?_participantLine p]
  unfold Draft.declare Draft.resolve
  dsimp only
  rw [hl]
  dsimp only
  rw [if_pos rfl, hid, h.names]
  rfl

theorem readLines_participantLine {participants : List Participant} {d : Draft} {ids : List Nat}
    (h : d.Named ids)
    (hp : ∀ id ∈ Entity.ids participants,
      EntityId.InRange id ∧ id ∉ d.scope.reserved ∧ id ∉ ids)
    (hd : (Entity.ids participants).Nodup) :
    ∃ scope, (participants.map participantLine).foldl Draft.readLine d =
      { d with
        scope
        names := literalNames 'P' ((Entity.ids participants).reverse ++ ids)
        participants := d.participants ++ participants.map renamed } := by
  induction participants generalizing d ids with
  | nil =>
    refine ⟨d.scope, ?_⟩
    rw [List.map_nil, List.foldl_nil, List.map_nil, List.append_nil, Entity.ids_nil,
      List.reverse_nil, List.nil_append, ← h.names]
  | cons p participants ih =>
    obtain ⟨⟨hrange, hres, hfree⟩, hrest⟩ := List.forall_mem_cons.mp hp
    obtain ⟨hnew, hd⟩ := List.nodup_cons.mp hd
    obtain ⟨scope, hline, hreserved, hclaimed⟩ := readLine_participantLine h hrange hres hfree
    have hnamed : (d.readLine (participantLine p)).Named (p.id :: ids) := by
      rw [hline]
      exact ⟨rfl, hclaimed⟩
    -- The identifier that this line claimed is none that the lines after it ask for.
    have hfree' : ∀ id ∈ Entity.ids participants, EntityId.InRange id ∧
        id ∉ (d.readLine (participantLine p)).scope.reserved ∧ id ∉ p.id :: ids := by
      intro id hid
      obtain ⟨hr, hres, hni⟩ := hrest id hid
      have hne : id ≠ p.id := by
        rintro rfl
        exact hnew hid
      rw [hline, hreserved]
      exact ⟨hr, hres, List.not_mem_cons_of_ne_of_not_mem hne hni⟩
    obtain ⟨last, hlast⟩ := ih hnamed hfree' hd
    refine ⟨last, ?_⟩
    rw [List.map_cons, List.foldl_cons, hlast, hline]
    simp only [List.map_cons, Entity.ids_cons, List.reverse_cons, List.append_assoc,
      List.singleton_append]
    rfl

theorem mention_known {d : Draft} {ids : List Nat} {id : Nat}
    (h : d.names = literalNames 'P' ids) (hid : id ∈ ids) :
    d.mention (participantName id) = (id, d) := by
  have hl : lookup? d.names (participantName id) = some id := by
    rw [h]
    exact lookup?_literalNames_of_mem 'P' hid
  unfold Draft.mention Draft.resolve
  rw [hl]
  rfl

theorem readLine_messageLine {d : Draft} {ids : List Nat} {m : Message}
    (h : d.names = literalNames 'P' ids) (hs : m.sender ∈ ids) (hr : m.receiver ∈ ids) :
    d.readLine (trim (messageLine m)) =
      { d with
        scope := d.scope.fresh.2
        messages := d.messages ++ [Entity.withId (reread m) d.scope.fresh.1] } := by
  unfold Draft.readLine
  rw [readLine?_messageLine]
  unfold Draft.addMessage
  dsimp only
  rw [mention_known h hs]
  dsimp only
  rw [mention_known h hr]
  rfl

theorem readLines_messageLine {messages : List Message} {d : Draft} {ids : List Nat}
    (h : d.names = literalNames 'P' ids)
    (hm : ∀ m ∈ messages, m.sender ∈ ids ∧ m.receiver ∈ ids) :
    ∃ scope added, ((messages.map messageLine).map trim).foldl Draft.readLine d =
        { d with scope, messages := d.messages ++ added } ∧
      Entity.anonymous added = Entity.anonymous (messages.map reread) := by
  induction messages generalizing d with
  | nil =>
    refine ⟨d.scope, [], ?_, rfl⟩
    rw [List.append_nil]
    rfl
  | cons m messages ih =>
    obtain ⟨⟨hs, hr⟩, hm⟩ := List.forall_mem_cons.mp hm
    have hline := readLine_messageLine h hs hr
    obtain ⟨scope, added, hadded, hanon⟩ :=
      ih (d := d.readLine (trim (messageLine m))) (hline ▸ h) hm
    refine ⟨scope, Entity.withId (reread m) d.scope.fresh.1 :: added, ?_, ?_⟩
    · rw [List.map_cons, List.map_cons, List.foldl_cons, hadded, hline]
      simp only [List.append_assoc, List.singleton_append]
    · exact Entity.anonymous_withId_cons hanon _ _

theorem mem_connectedMessages {s : Sequence} {m : Message} (h : m ∈ s.connectedMessages) :
    m ∈ s.messages ∧ m.sender ∈ Entity.ids s.participants ∧
      m.receiver ∈ Entity.ids s.participants := by
  obtain ⟨hm, hj⟩ := List.mem_filter.mp h
  exact ⟨hm, Sequence.joins_iff.mp hj⟩

/-- Reading the lines of a diagram back. -/
theorem read_writtenLines {s : Sequence} {scope : Scope}
    (hd : (Entity.ids s.participants).Nodup)
    (hp : ∀ id ∈ Entity.ids s.participants, EntityId.InRange id ∧ id ∉ scope.reserved)
    (hc : scope.claimed = []) :
    (read (writtenLines s) scope).1.participants = s.participants.map renamed ∧
      Entity.anonymous (read (writtenLines s) scope).1.messages =
        Entity.anonymous (s.connectedMessages.map reread) := by
  have hnamed : ({ scope } : Draft).Named [] := ⟨rfl, hc⟩
  have hfree : ∀ id ∈ Entity.ids s.participants, EntityId.InRange id ∧ id ∉ scope.reserved ∧
      id ∉ ([] : List Nat) := fun id hid => ⟨(hp id hid).1, (hp id hid).2, List.not_mem_nil⟩
  -- Both ends of a written message are written participants, so its line makes no participant.
  have hends : ∀ m ∈ s.connectedMessages, m.sender ∈ (Entity.ids s.participants).reverse ++ [] ∧
      m.receiver ∈ (Entity.ids s.participants).reverse ++ [] := by
    intro m hm
    obtain ⟨-, hs, hr⟩ := mem_connectedMessages hm
    exact ⟨by simpa using hs, by simpa using hr⟩
  obtain ⟨_, hparticipants⟩ := readLines_participantLine hnamed hfree hd
  obtain ⟨_, added, hmessages, hanon⟩ := readLines_messageLine
    (d := (s.participants.map participantLine).foldl Draft.readLine { scope })
    (by rw [hparticipants]) hends
  unfold read writtenLines
  rw [List.foldl_append, hmessages, hparticipants]
  exact ⟨List.nil_append _, hanon⟩

/-! ### How many participants are read

Names are told apart by their digits, so each line of a participant makes one, whether or not it
gets the identifier that it asks for. -/

def Draft.met (d : Draft) : List Text := d.names.map Prod.fst

theorem readLine_participantLine_new {d : Draft} {p : Participant}
    (h : participantName p.id ∉ d.met) :
    (d.readLine (participantLine p)).met = participantName p.id :: d.met ∧
      (d.readLine (participantLine p)).participants.length = d.participants.length + 1 := by
  unfold Draft.readLine
  rw [readLine?_participantLine]
  unfold Draft.declare Draft.resolve
  dsimp only
  rw [lookup?_eq_none.mpr h]
  exact ⟨rfl, List.length_append⟩

theorem readLine_messageLine_met {d : Draft} {m : Message} (hs : participantName m.sender ∈ d.met)
    (hr : participantName m.receiver ∈ d.met) :
    (d.readLine (trim (messageLine m))).met = d.met ∧
      (d.readLine (trim (messageLine m))).participants = d.participants := by
  have hknown : ∀ {name : Text}, name ∈ d.met → ∃ id, d.mention name = (id, d) := by
    intro name hm
    obtain ⟨id, hid⟩ := Option.ne_none_iff_exists'.mp fun hn => lookup?_eq_none.mp hn hm
    refine ⟨id, ?_⟩
    unfold Draft.mention Draft.resolve
    rw [hid]
    rfl
  obtain ⟨sender, hsender⟩ := hknown hs
  obtain ⟨receiver, hreceiver⟩ := hknown hr
  unfold Draft.readLine
  rw [readLine?_messageLine]
  unfold Draft.addMessage
  dsimp only
  rw [hsender]
  dsimp only
  rw [hreceiver]
  exact ⟨rfl, rfl⟩

theorem readLines_participantLine_new {participants : List Participant} {d : Draft}
    {ids : List Nat} (h : d.met = ids.map participantName)
    (hd : (Entity.ids participants ++ ids).Nodup) :
    ((participants.map participantLine).foldl Draft.readLine d).met =
        ((Entity.ids participants).reverse ++ ids).map participantName ∧
      ((participants.map participantLine).foldl Draft.readLine d).participants.length =
        d.participants.length + participants.length := by
  induction participants generalizing d ids with
  | nil => exact ⟨h, rfl⟩
  | cons p participants ih =>
    obtain ⟨hnew, -⟩ := List.nodup_cons.mp hd
    have hname : participantName p.id ∉ d.met := by
      rw [h]
      intro hm
      obtain ⟨id, hid, hname⟩ := List.mem_map.mp hm
      obtain rfl : id = p.id := literalName_injective hname
      exact hnew (List.mem_append_right _ hid)
    obtain ⟨hmet, hlength⟩ := readLine_participantLine_new hname
    have hnext : (d.readLine (participantLine p)).met = (p.id :: ids).map participantName := by
      rw [hmet, h]
      rfl
    obtain ⟨hall, hcount⟩ := ih hnext (List.perm_middle.nodup_iff.mpr hd)
    rw [List.map_cons, List.foldl_cons, Entity.ids_cons, List.reverse_cons, List.append_assoc,
      List.length_cons, hcount, hlength]
    exact ⟨hall, by omega⟩

theorem readLines_messageLine_met {messages : List Message} {d : Draft}
    (h : ∀ m ∈ messages, participantName m.sender ∈ d.met ∧ participantName m.receiver ∈ d.met) :
    (((messages.map messageLine).map trim).foldl Draft.readLine d).participants =
      d.participants := by
  induction messages generalizing d with
  | nil => rfl
  | cons m messages ih =>
    obtain ⟨⟨hs, hr⟩, hm⟩ := List.forall_mem_cons.mp h
    obtain ⟨hmet, hparticipants⟩ := readLine_messageLine_met hs hr
    rw [List.map_cons, List.map_cons, List.foldl_cons, ih (by rw [hmet]; exact hm), hparticipants]

theorem length_read {s : Sequence} (hd : (Entity.ids s.participants).Nodup) (scope : Scope) :
    (read (writtenLines s) scope).1.participants.length = s.participants.length := by
  have hnone : ({ scope } : Draft).met = ([] : List Nat).map participantName := rfl
  have hfree : (Entity.ids s.participants ++ []).Nodup := by rwa [List.append_nil]
  obtain ⟨hmet, hcount⟩ := readLines_participantLine_new hnone hfree
  have hends : ∀ m ∈ s.connectedMessages,
      participantName m.sender ∈
          ((s.participants.map participantLine).foldl Draft.readLine { scope }).met ∧
        participantName m.receiver ∈
          ((s.participants.map participantLine).foldl Draft.readLine { scope }).met := by
    intro m hm
    obtain ⟨-, hs, hr⟩ := mem_connectedMessages hm
    rw [hmet]
    exact ⟨List.mem_map_of_mem (by simpa using hs), List.mem_map_of_mem (by simpa using hr)⟩
  unfold read writtenLines
  dsimp only
  rw [List.foldl_append, readLines_messageLine_met hends, hcount]
  exact Nat.zero_add _

/-! ### Diagrams that were read -/

/-- What lines without carriage returns make of a diagram. -/
structure Draft.Settled (d : Draft) : Prop where
  participants : ∀ p ∈ d.participants, '\r' ∉ p.name
  messages : ∀ m ∈ d.messages, Neat m.label

theorem settled_mention {d : Draft} {handle : Text} (hd : d.Settled) (hh : '\r' ∉ handle) :
    (d.mention handle).2.Settled := by
  unfold Draft.mention Draft.resolve
  cases lookup? d.names handle with
  | some id => exact hd
  | none =>
    exact ⟨List.forall_mem_append.mpr ⟨hd.participants, List.forall_mem_singleton.mpr hh⟩,
      hd.messages⟩

theorem settled_declare {d : Draft} {handle name : Text} (hd : d.Settled) (hn : '\r' ∉ name) :
    (d.declare handle name).Settled := by
  unfold Draft.declare Draft.resolve
  cases lookup? d.names handle with
  | some id =>
    dsimp only
    simp only [Bool.false_eq_true, if_false]
    split
    · next participants hu =>
      exact ⟨Entity.forall_mem_update? (P := fun p : Participant => '\r' ∉ p.name)
        (fun _ _ => hn) hd.participants hu, hd.messages⟩
    · exact hd
  | none =>
    exact ⟨List.forall_mem_append.mpr ⟨hd.participants, List.forall_mem_singleton.mpr hn⟩,
      hd.messages⟩

theorem return_not_mem_displayName {t : Text} (h : '\r' ∉ t) : '\r' ∉ displayName t := by
  intro hm
  have hq : '\r' ∈ stripQuotes t := (mem_unescape hm).resolve_left (by decide)
  unfold stripQuotes at hq
  dsimp only at hq
  split at hq
  · exact h (mem_of_mem_trim (List.mem_of_mem_tail ((List.dropLast_sublist _).subset hq)))
  · exact h (mem_of_mem_trim hq)

theorem Declares.return_not_mem {line handle name : Text} (h : Declares line handle name)
    (hr : '\r' ∉ line) : '\r' ∉ name := by
  cases h with
  | @called rest _ after name hrest hword hname =>
    have hafter : after = trim (rest.dropWhile (!isBlank ·)) := (congrArg Prod.snd hword).symm
    refine return_not_mem_displayName fun hm => hr ((afterKeyword?_spec hrest).2.subset ?_)
    have hm := (afterKeyword?_spec hname).2.subset hm
    rw [hafter] at hm
    exact (List.dropWhile_suffix _).subset (mem_of_mem_trim hm)
  | alone hrest _ hname =>
    rw [← hname]
    exact return_not_mem_displayName fun hm => hr ((afterKeyword?_spec hrest).2.subset hm)

theorem LabelPart.neat {label part : Text} (h : LabelPart label part) (hr : '\r' ∉ part) :
    Neat (unescape label) := by
  cases h with
  | none => exact neat_nil
  | some _ text =>
    refine neat_unescape_trim fun hm => hr ?_
    exact List.mem_append_right _ (List.mem_cons_of_mem _ hm)

/-- One line keeps a draft settled. -/
theorem settled_readLine {d : Draft} {line : Text} (hd : d.Settled) (hr : '\r' ∉ line) :
    (d.readLine line).Settled := by
  unfold Draft.readLine
  cases hl : readLine? line with
  | none => exact ⟨hd.participants, hd.messages⟩
  | some l =>
    cases l with
    | participant handle name =>
      exact settled_declare hd ((readLine?_eq_participant_iff.mp hl).return_not_mem hr)
    | message sender receiver kind label =>
      obtain ⟨-, hsender, hreceiver, gap, shaft, head, gap', part, -, -, -, -, hpart, rfl⟩ :=
        readLine?_eq_message_iff.mp hl
      have hlabel := hpart.neat fun hm => hr (List.mem_append_right _ hm)
      have h := settled_mention
        (settled_mention hd fun hm => absurd (hsender.noBlank _ hm) (by decide))
        fun hm => absurd (hreceiver.noBlank _ hm) (by decide)
      exact ⟨h.participants, List.forall_mem_append.mpr
        ⟨h.messages, List.forall_mem_singleton.mpr hlabel⟩⟩

theorem settled_readLines {lines : List Text} {d : Draft} (hd : d.Settled)
    (hl : ∀ line ∈ lines, '\r' ∉ line) : (lines.foldl Draft.readLine d).Settled := by
  induction lines generalizing d with
  | nil => exact hd
  | cons line lines ih =>
    obtain ⟨hline, hrest⟩ := List.forall_mem_cons.mp hl
    exact ih (settled_readLine hd hline) hrest

/-- A diagram that was read has no carriage return in any name or label. -/
structure SettledChart (s : Sequence) : Prop where
  participants : ∀ p ∈ s.participants, '\r' ∉ p.name
  messages : ∀ m ∈ s.messages, Neat m.label

theorem settled_read {lines : List Text} (hl : ∀ line ∈ lines, '\r' ∉ line) (scope : Scope) :
    SettledChart (read lines scope).1 := by
  have h := settled_readLines (d := { scope })
    ⟨fun p hp => absurd hp List.not_mem_nil, fun m hm => absurd hm List.not_mem_nil⟩ hl
  exact ⟨h.participants, h.messages⟩

/-! ### Writing again -/

theorem connectedMessages_eq {s : Sequence}
    (h : ∀ m ∈ s.messages, m.sender ∈ Entity.ids s.participants ∧
      m.receiver ∈ Entity.ids s.participants) : s.connectedMessages = s.messages :=
  List.filter_eq_self.mpr fun m hm => Sequence.joins_iff.mpr (h m hm)

/-- A diagram that was read is written as it is when it was read again. -/
theorem write_read {s : Sequence} {scope : Scope} (hd : (Entity.ids s.participants).Nodup)
    (hp : ∀ id ∈ Entity.ids s.participants, EntityId.InRange id ∧ id ∉ scope.reserved)
    (hc : scope.claimed = []) (h : SettledChart s) :
    write (read (writtenLines s) scope).1 = write s := by
  have hneat : ∀ m ∈ s.connectedMessages, Neat m.label :=
    fun m hm => h.messages m (mem_connectedMessages hm).1
  obtain ⟨hparticipants, hmessages⟩ := read_writtenLines hd hp hc
  have hrenamed : s.participants.map renamed = s.participants := by
    refine (List.map_congr_left fun p hp => ?_).trans (List.map_id _)
    unfold renamed
    rw [unifyBreaks_of_not_mem (h.participants p hp)]
    rfl
  have hreread : s.connectedMessages.map reread = s.connectedMessages := by
    refine (List.map_congr_left fun m hm => ?_).trans (List.map_id _)
    rw [reread_of_tidy (hneat m hm).tidy_unifyBreaks, (hneat m hm).unifyBreaks_eq]
    rfl
  rw [hrenamed] at hparticipants
  rw [hreread] at hmessages
  -- The messages that come back have the ends of those written, so all of them are written.
  have hends : ∀ m ∈ (read (writtenLines s) scope).1.messages,
      m.sender ∈ Entity.ids s.participants ∧ m.receiver ∈ Entity.ids s.participants := by
    have hcongr := Entity.forall_anonymous (fun m : Message =>
      m.sender ∈ Entity.ids s.participants ∧ m.receiver ∈ Entity.ids s.participants)
    refine (hcongr _ fun _ _ => Iff.rfl).mp ?_
    rw [hmessages]
    exact (hcongr _ fun _ _ => Iff.rfl).mpr fun m hm => (mem_connectedMessages hm).2
  have hall : (read (writtenLines s) scope).1.connectedMessages =
      (read (writtenLines s) scope).1.messages := by
    refine connectedMessages_eq ?_
    rw [hparticipants]
    exact hends
  have hlines : ∀ messages : List Message,
      (Entity.anonymous messages).map messageLine = messages.map messageLine := by
    intro messages
    unfold Entity.anonymous
    rw [List.map_map]
    rfl
  have hsame : (read (writtenLines s) scope).1.messages.map messageLine =
      s.connectedMessages.map messageLine := by
    rw [← hlines, hmessages, hlines]
  unfold write
  rw [hall, hparticipants, hsame]

end DiagramDoc.Dialect.Seq

namespace DiagramDoc.Diagram

open Dialect

theorem Valid.participants_free {d : Diagram} (hv : d.Valid) (hc : d.counter ≤ 0x20000000000000) :
    (Entity.ids d.sequence.participants).Nodup ∧
      ∀ id ∈ Entity.ids d.sequence.participants, EntityId.InRange id ∧
        id ∉ (scopeFor d .sequence).reserved :=
  hv.free hc (List.sublist_append_left _ _)

/-- Reading the text of a valid sequence diagram back gives the same participants with the same
identifiers, and the messages between participants that exist; in names and tidy labels line breaks
are unified. -/
theorem readText_writeText_sequence {d : Diagram} (hv : d.Valid) (hk : d.kind = .sequence)
    (hc : d.counter ≤ 0x20000000000000) :
    ∃ e, readText d.writeText d = .ok e ∧ e.kind = .sequence ∧
      e.sequence.participants =
        d.sequence.participants.map (fun p => { p with name := Text.unifyBreaks p.name }) ∧
      List.Forall₂ Seq.CameBack d.sequence.connectedMessages e.sequence.messages ∧
      AgreesExcept .sequence e d := by
  have htext : d.writeText = Seq.write d.sequence := by
    unfold writeText
    rw [hk]
  have hheader : Grammar.ofHeader "sequenceDiagram".toList = .headed .sequence := by decide
  obtain ⟨hnodup, hfree⟩ := hv.participants_free hc
  obtain ⟨hparticipants, hmessages⟩ := Seq.read_writtenLines hnodup hfree rfl
  obtain ⟨counter, hread⟩ := readText_headed (Seq.contentLines_write d.sequence) hheader d
  rw [← htext] at hread
  exact ⟨_, hread, rfl, hparticipants, Seq.cameBack_of_anonymous hmessages,
    agreesExcept_readText hread hv⟩

/-- Names that look like text of the dialect, labels that look like arrows or stand between blanks,
and messages that name nobody. -/
def tangled : Diagram where
  kind := .sequence
  counter := 12
  sequence :=
    { participants :=
        [⟨9, " as \"P3\"\r\n".toList⟩, ⟨3, "'P9' ".toList⟩, ⟨4, []⟩]
      messages :=
        [{ id := 5, sender := 3, receiver := 9, label := "->>P4: \\n:\r\n".toList
           line := .dashed },
         { id := 6, sender := 4, receiver := 7, label := "lost".toList },
         { id := 7, sender := 4, receiver := 4, label := "  %% x ".toList },
         { id := 8, sender := 0, receiver := 3, label := [] },
         { id := 10, sender := 9, receiver := 3, label := " ".toList, line := .dashed }] }
  pie := { slices := [{ id := 11, label := "P3".toList, value := 1 }] }

theorem readText_writeText_tangled :
    tangled.sequence.connectedMessages.length = 3 ∧
    ∃ e, readText tangled.writeText tangled = .ok e ∧ e.kind = .sequence ∧
      e.sequence.participants = tangled.sequence.participants.map
        (fun p => { p with name := Text.unifyBreaks p.name }) ∧
      List.Forall₂ Seq.CameBack tangled.sequence.connectedMessages e.sequence.messages ∧
      AgreesExcept .sequence e tangled :=
  ⟨by decide, readText_writeText_sequence ⟨by decide, by decide, by decide⟩ rfl (by decide)⟩

end DiagramDoc.Diagram
