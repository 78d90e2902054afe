import DiagramDoc.Dialect.Sequence
import DiagramDoc.Proofs.Text.Trim

/-!
# How the lines of a sequence diagram are spelled

A declaration is the keyword with a handle and a name, or with a name alone. A message is two
handles around the first `->` of its line, each a word without blanks, and perhaps a label behind a
colon. What a line is read as is just what it is spelled as.
-/

namespace DiagramDoc.Dialect.Seq

open Text

/-- A line declares a participant by a handle and a name behind `as`, or by its name alone. -/
inductive Declares (line : Text) : Text → Text → Prop
  | called {rest handle after name : Text}
    (hrest : afterKeyword? "participant".toList line = some rest)
    (hword : splitWord rest = (handle, after))
    (hname : afterKeyword? "as".toList after = some name) (hne : name ≠ []) :
    Declares line handle (unescape (stripQuotes name))
  | alone {rest name : Text} (hrest : afterKeyword? "participant".toList line = some rest)
    (hne : rest ≠ []) (hname : unescape (stripQuotes rest) = name)
    (hno : ∀ name, afterKeyword? "as".toList (splitWord rest).2 = some name → name = []) :
    Declares line (name.filter fun c => !isBlank c) name

theorem readMessage?_ne_participant (line handle name : Text) :
    readMessage? line ≠ some (.participant handle name) := by
  intro h
  unfold readMessage? at h
  simp only [Option.bind_eq_bind, Option.bind_eq_some_iff, Option.some.injEq] at h
  obtain ⟨_, -, _, -, _, -, hline⟩ := h
  cases hline

theorem Declares.readLine?_eq {line handle name : Text} (h : Declares line handle name) :
    readLine? line = some (.participant handle name) := by
  unfold readLine?
  cases h with
  | @called rest _ after name hrest hword hname hne =>
    obtain ⟨c, text, rfl⟩ := List.exists_cons_of_ne_nil hne
    -- Nothing stands behind the first word of an empty text.
    have hrest' : rest ≠ [] := by
      rintro rfl
      cases hword
      cases hname
    rw [hrest]
    dsimp only
    unfold readParticipant?
    rw [if_neg hrest', hword]
    dsimp only
    rw [hname]
    rfl
  | @alone rest _ hrest hne hname hno =>
    rw [hrest]
    dsimp only
    unfold readParticipant?
    rw [if_neg hne]
    dsimp only
    split
    · next c text has => cases hno _ has
    · rw [← hname]
      rfl

theorem declares_of_readLine? {line handle name : Text}
    (h : readLine? line = some (.participant handle name)) : Declares line handle name := by
  unfold readLine? at h
  split at h
  · next rest hrest =>
    unfold readParticipant? at h
    split at h
    · cases h
    · next hne =>
      dsimp only at h
      split at h
      · next c text has =>
        cases h
        exact .called hrest rfl has (List.cons_ne_nil _ _)
      · next hno =>
        cases h
        refine .alone hrest hne rfl fun text has => ?_
        cases text with
        | nil => rfl
        | cons c text => exact absurd has (hno c text)
  · exact absurd h (readMessage?_ne_participant line handle name)

/-- How a declaration is written decides its handle, and nothing else declares a participant. -/
theorem readLine?_eq_participant_iff {line handle name : Text} :
    readLine? line = some (.participant handle name) ↔ Declares line handle name :=
  ⟨declares_of_readLine?, Declares.readLine?_eq⟩

/-! ### Messages -/

/-- What stands between the sender and `->`: a dash if the line is dashed. -/
inductive Shaft (before : Text) : DiagramDoc.Line → Text → Prop
  | solid (h : before.getLast? ≠ some '-') : Shaft before .solid []
  | dashed : Shaft before .dashed ['-']

/-- What stands between `->` and the receiver: every message may have a second angle bracket. -/
inductive Head (after : Text) : Text → Prop
  | single (h : after.head? ≠ some '>') : Head after []
  | double : Head after ['>']

/-- What stands behind the receiver: blanks, or a label after a colon. -/
inductive LabelPart : Text → Text → Prop
  | none {gap : Text} (h : Gap gap) : LabelPart [] gap
  | some {gap : Text} (h : Gap gap) (text : Text) : LabelPart (trim text) (gap ++ ':' :: text)

structure IsSender (t : Text) : Prop where
  ne_nil : t ≠ []
  noBlank : ∀ c ∈ t, isBlank c = false
  noSign : ¬ ['-', '>'] <:+: t

structure IsReceiver (t : Text) : Prop where
  ne_nil : t ≠ []
  noBlank : ∀ c ∈ t, isBlank c = false
  noColon : ':' ∉ t

/-- A line that is put together from the parts of a message. -/
structure MessageText (line sender receiver : Text) (kind : DiagramDoc.Line) (label : Text) :
    Prop where
  isSender : IsSender sender
  isReceiver : IsReceiver receiver
  spelled : ∃ gap shaft head gap' part, Gap gap ∧ Shaft (sender ++ gap) kind shaft ∧
    Head (gap' ++ receiver) head ∧ Gap gap' ∧ LabelPart label part ∧
    line = sender ++ gap ++ shaft ++ ['-', '>'] ++ head ++ gap' ++ receiver ++ part

/-- What `->` has its angle bracket in holds all of it. -/
theorem sign_infix_left {s rest : Text} (hr : '>' ∉ rest) (h : ['-', '>'] <:+: s ++ rest) :
    ['-', '>'] <:+: s := by
  induction s with
  | nil => exact absurd (h.subset (by simp)) hr
  | cons c s ih =>
    rw [List.cons_append] at h
    rcases List.infix_cons_iff.mp h with hstart | hin
    · obtain ⟨hc, htail⟩ := List.cons_prefix_cons.mp hstart
      cases s with
      | nil => exact absurd (htail.subset List.mem_cons_self) hr
      | cons d s =>
        rw [← hc, ← (List.cons_prefix_cons.mp htail).1]
        exact ⟨[], s, rfl⟩
    · exact List.infix_cons (ih hin)

section Sender

variable {t before sender gap shaft : Text} {kind : DiagramDoc.Line}

theorem Shaft.bracket_not_mem (h : Shaft before kind shaft) : '>' ∉ shaft := by
  cases h <;> decide

theorem sign_infix_iff (hg : Gap gap) (hs : Shaft (sender ++ gap) kind shaft) :
    ['-', '>'] <:+: sender ++ gap ++ shaft ++ ['-'] ↔ ['-', '>'] <:+: sender := by
  rw [List.append_assoc, List.append_assoc]
  constructor
  · refine sign_infix_left ?_
    rw [List.mem_append, List.mem_append, not_or, not_or]
    exact ⟨not_mem_of_gap hg (by decide), hs.bracket_not_mem, by decide⟩
  · exact fun h => h.trans (List.prefix_append _ _).isInfix

/-- A dash at the end of what stands before the sign is its shaft. -/
theorem exists_shaft_iff {P : Text → DiagramDoc.Line → Prop} :
    (match stripSuffix? ['-'] t with
      | some before => P before .dashed
      | none => P t .solid) ↔
      ∃ before kind shaft, Shaft before kind shaft ∧ t = before ++ shaft ∧ P before kind := by
  split
  · next s hs =>
    obtain rfl := stripSuffix?_eq_some_iff.mp hs
    constructor
    · exact fun h => ⟨s, .dashed, _, .dashed, rfl, h⟩
    · rintro ⟨before, kind, shaft, hshaft, ht, h⟩
      cases hshaft with
      | dashed => rwa [List.append_cancel_right ht]
      | solid hlast =>
        rw [List.append_nil] at ht
        rw [← ht, List.getLast?_concat] at hlast
        exact absurd rfl hlast
  · next hs =>
    constructor
    · intro h
      refine ⟨t, .solid, [], .solid fun hlast => ?_, (List.append_nil t).symm, h⟩
      obtain ⟨s, rfl⟩ := List.getLast?_eq_some_iff.mp hlast
      cases (stripSuffix?_append s ['-']).symm.trans hs
    · rintro ⟨before, kind, shaft, hshaft, rfl, h⟩
      cases hshaft with
      | dashed => cases (stripSuffix?_append before ['-']).symm.trans hs
      | solid => rwa [List.append_nil]

theorem senderWord_eq_some_iff {before : Text} {kind' : DiagramDoc.Line} :
    (if trimEnd before = [] ∨ (trimEnd before).any isBlank = true then none
      else some (trimEnd before, kind')) = some (sender, kind) ↔
      (sender ≠ [] ∧ ∀ c ∈ sender, isBlank c = false) ∧ trimEnd before = sender ∧ kind' = kind := by
  constructor
  · intro h
    split at h
    · cases h
    · next hne =>
      cases h
      obtain ⟨hne, hblank⟩ := not_or.mp hne
      exact ⟨⟨hne, by simpa using hblank⟩, rfl, rfl⟩
  · rintro ⟨⟨hne, hblank⟩, rfl, rfl⟩
    exact if_neg (not_or.mpr ⟨hne, by simpa using hblank⟩)

theorem readSender?_eq_some_iff :
    readSender? t = some (sender, kind) ↔
      (sender ≠ [] ∧ ∀ c ∈ sender, isBlank c = false) ∧
        ∃ gap shaft, Gap gap ∧ Shaft (sender ++ gap) kind shaft ∧ t = sender ++ gap ++ shaft := by
  have hread : readSender? t = some (sender, kind) ↔
      ∃ before kind' shaft, Shaft before kind' shaft ∧ t = before ++ shaft ∧
        (sender ≠ [] ∧ ∀ c ∈ sender, isBlank c = false) ∧ trimEnd before = sender ∧
          kind' = kind := by
    rw [← exists_shaft_iff]
    unfold readSender?
    cases stripSuffix? ['-'] t <;> exact senderWord_eq_some_iff
  rw [hread]
  constructor
  · rintro ⟨before, _, shaft, hshaft, rfl, hword, htrim, rfl⟩
    obtain ⟨gap, hgap, rfl⟩ := (trimEnd_eq_iff hword.2).mp htrim
    exact ⟨hword, gap, shaft, hgap, hshaft, rfl⟩
  · rintro ⟨hword, gap, shaft, hgap, hshaft, rfl⟩
    exact ⟨_, kind, shaft, hshaft, rfl, hword, (trimEnd_eq_iff hword.2).mpr ⟨gap, hgap, rfl⟩, rfl⟩

end Sender

section Receiver

variable {t part receiver label : Text}

/-- A receiver ends where blanks or a colon begin. -/
def endsName (c : Char) : Bool := isBlank c || c == ':'

theorem LabelPart.ends (h : LabelPart label part) : ∀ c ∈ part.head?, endsName c = true := by
  have hcons : ∀ {gap rest : Text}, Gap gap → (∀ c ∈ rest.head?, endsName c = true) →
      ∀ c ∈ (gap ++ rest).head?, endsName c = true := by
    rintro (_ | ⟨b, gap⟩) rest hgap hrest c hc
    · exact hrest c hc
    · cases hc
      exact Bool.or_eq_true_iff.mpr (.inl (hgap b List.mem_cons_self))
  cases h with
  | none hgap =>
    rw [← List.append_nil part]
    refine hcons hgap fun c hc => ?_
    cases hc
  | some hgap text =>
    refine hcons hgap fun c hc => ?_
    cases hc
    rfl

theorem labelPart_iff :
    LabelPart label part ↔
      trimStart part = [] ∧ label = [] ∨
        ∃ text, trimStart part = ':' :: text ∧ label = trim text := by
  constructor
  · rintro (hgap | ⟨hgap, text⟩)
    · left
      rw [← List.append_nil part, trimStart_gap hgap]
      exact ⟨rfl, rfl⟩
    · right
      rw [trimStart_gap hgap, trimStart_cons (by decide)]
      exact ⟨text, rfl, rfl⟩
  · obtain ⟨gap, hgap, hpart⟩ := exists_gap part
    rintro (⟨hnone, rfl⟩ | ⟨text, hsome, rfl⟩)
    · rw [hpart, hnone, List.append_nil]
      exact .none hgap
    · rw [hpart, hsome]
      exact .some hgap text

theorem isReceiver_iff : IsReceiver receiver ↔
    receiver ≠ [] ∧ ∀ c ∈ receiver, (!endsName c) = true := by
  constructor
  · rintro ⟨hne, hblank, hcolon⟩
    refine ⟨hne, fun c hc => ?_⟩
    have hc' : c ≠ ':' := fun h => hcolon (h ▸ hc)
    simp [endsName, hblank _ hc, hc']
  · rintro ⟨hne, h⟩
    refine ⟨hne, fun c hc => ?_, fun hc => absurd (h _ hc) (by decide)⟩
    have hc := h c hc
    simp only [endsName, Bool.not_eq_true', Bool.or_eq_false_iff] at hc
    exact hc.1

theorem readReceiver?_iff :
    readReceiver? t = some (receiver, label) ↔
      t.takeWhile (!endsName ·) = receiver ∧ receiver ≠ [] ∧
        LabelPart label (t.dropWhile (!endsName ·)) := by
  have hends : (fun c => !(isBlank c || c == ':')) = (!endsName ·) := rfl
  rw [labelPart_iff]
  unfold readReceiver?
  dsimp only
  rw [hends]
  split
  · next hnil =>
    refine iff_of_false (fun h => nomatch h) ?_
    rintro ⟨rfl, hne, -⟩
    exact hne hnil
  · next hne =>
    split
    · next hend =>
      rw [hend]
      constructor
      · intro h
        cases h
        exact ⟨rfl, hne, .inl ⟨rfl, rfl⟩⟩
      · rintro ⟨rfl, -, ⟨-, rfl⟩ | ⟨text, hcolon, -⟩⟩
        · rfl
        · cases hcolon
    · next text hcolon =>
      rw [hcolon]
      constructor
      · intro h
        cases h
        exact ⟨rfl, hne, .inr ⟨text, rfl, rfl⟩⟩
      · rintro ⟨rfl, -, ⟨hend, -⟩ | ⟨_, htext, rfl⟩⟩
        · cases hend
        · cases htext
          rfl
    · next hend hcolon =>
      refine iff_of_false (fun h => nomatch h) ?_
      rintro ⟨-, -, ⟨h, -⟩ | ⟨text, h, -⟩⟩
      · exact hend h
      · exact hcolon text h

theorem readReceiver?_eq_some_iff :
    readReceiver? t = some (receiver, label) ↔
      IsReceiver receiver ∧ ∃ part, LabelPart label part ∧ t = receiver ++ part := by
  rw [readReceiver?_iff, isReceiver_iff]
  constructor
  · rintro ⟨rfl, hne, hpart⟩
    refine ⟨⟨hne, fun c hc => List.all_eq_true.mp List.all_takeWhile c hc⟩, _, hpart, ?_⟩
    exact List.takeWhile_append_dropWhile.symm
  · rintro ⟨⟨hne, hname⟩, part, hpart, rfl⟩
    have hend : ∀ c ∈ part.head?, (!endsName c) = false := by
      intro c hc
      rw [hpart.ends c hc]
      rfl
    obtain ⟨htake, hdrop⟩ := span_append hname hend
    rw [htake, hdrop]
    exact ⟨rfl, hne, hpart⟩

end Receiver

section Message

variable {line sender receiver label : Text} {kind : DiagramDoc.Line}

theorem exists_head_iff {after : Text} {P : Text → Prop} :
    P ((stripPrefix? ['>'] after).getD after) ↔
      ∃ head rest, Head rest head ∧ after = head ++ rest ∧ P rest := by
  cases h : stripPrefix? ['>'] after with
  | some rest =>
    rw [stripPrefix?_eq_some_iff] at h
    constructor
    · exact fun hp => ⟨['>'], rest, .double, h, hp⟩
    · rintro ⟨head, rest', hhead, ha, hp⟩
      cases hhead with
      | double =>
        obtain rfl : rest = rest' := List.append_cancel_left (h.symm.trans ha)
        exact hp
      | single hne =>
        rw [List.nil_append] at ha
        rw [← ha, h] at hne
        exact absurd rfl hne
  | none =>
    constructor
    · intro hp
      refine ⟨[], after, .single fun hhead => ?_, rfl, hp⟩
      obtain ⟨rest, rfl⟩ := List.head?_eq_some_iff.mp hhead
      cases (stripPrefix?_append ['>'] rest).symm.trans h
    · rintro ⟨head, rest, hhead, rfl, hp⟩
      cases hhead with
      | double =>
        rw [stripPrefix?_append] at h
        cases h
      | single => exact hp

theorem IsReceiver.trimStart_gap (h : IsReceiver receiver) {gap : Text} (hgap : Gap gap)
    (part : Text) : trimStart (gap ++ (receiver ++ part)) = receiver ++ part := by
  obtain ⟨c, text, rfl⟩ := List.exists_cons_of_ne_nil h.ne_nil
  rw [Text.trimStart_gap hgap]
  exact trimStart_cons (h.noBlank c List.mem_cons_self) _

theorem head_append_iff {after part head : Text} (hne : after ≠ []) :
    Head (after ++ part) head ↔ Head after head := by
  have hsame : (after ++ part).head? = after.head? := by
    obtain ⟨c, text, rfl⟩ := List.exists_cons_of_ne_nil hne
    rfl
  constructor
  · rintro (hsingle | -)
    · exact .single (hsame ▸ hsingle)
    · exact .double
  · rintro (hsingle | -)
    · exact .single (hsame ▸ hsingle)
    · exact .double

theorem readMessage?_iff :
    readMessage? line = some (.message sender receiver kind label) ↔
      ∃ before after, cutAt? ['-', '>'] line = some (before, after) ∧
        readSender? before = some (sender, kind) ∧
        readReceiver? (trimStart ((stripPrefix? ['>'] after).getD after)) =
          some (receiver, label) := by
  unfold readMessage?
  simp only [Option.bind_eq_bind, Option.bind_eq_some_iff]
  constructor
  · rintro ⟨⟨before, after⟩, hcut, ⟨_, _⟩, hsender, ⟨_, _⟩, hreceiver, hline⟩
    cases hline
    exact ⟨before, after, hcut, hsender, hreceiver⟩
  · rintro ⟨before, after, hcut, hsender, hreceiver⟩
    exact ⟨_, hcut, _, hsender, _, hreceiver, rfl⟩

theorem messageText_of_readMessage?
    (h : readMessage? line = some (.message sender receiver kind label)) :
    MessageText line sender receiver kind label := by
  obtain ⟨before, after, hcut, hsender, hreceiver⟩ := readMessage?_iff.mp h
  obtain ⟨rfl, hsign⟩ := (cutAt?_eq_some_iff (by decide)).mp hcut
  obtain ⟨⟨hne, hblank⟩, gap, shaft, hgap, hshaft, rfl⟩ := readSender?_eq_some_iff.mp hsender
  obtain ⟨head, rest, hhead, rfl, hrest⟩ := exists_head_iff
    (P := fun rest => readReceiver? (trimStart rest) = some (receiver, label)).mp hreceiver
  obtain ⟨hname, part, hpart, htext⟩ := readReceiver?_eq_some_iff.mp hrest
  obtain ⟨gap', hgap', hgaps⟩ := exists_gap rest
  rw [htext, ← List.append_assoc] at hgaps
  rw [hgaps, head_append_iff (List.append_ne_nil_of_right_ne_nil gap' hname.ne_nil)] at hhead
  refine ⟨⟨hne, hblank, mt (sign_infix_iff hgap hshaft).mpr hsign⟩, hname, gap, shaft, head, gap',
    part, hgap, hshaft, hhead, hgap', hpart, ?_⟩
  rw [hgaps]
  simp only [List.append_assoc]

theorem MessageText.readMessage?_eq (h : MessageText line sender receiver kind label) :
    readMessage? line = some (.message sender receiver kind label) := by
  obtain ⟨hname, hname', gap, shaft, head, gap', part, hgap, hshaft, hhead, hgap', hpart, rfl⟩ := h
  refine readMessage?_iff.mpr
    ⟨sender ++ gap ++ shaft, head ++ (gap' ++ (receiver ++ part)), ?_, ?_, ?_⟩
  · refine (cutAt?_eq_some_iff (by decide)).mpr ⟨by simp only [List.append_assoc], ?_⟩
    exact mt (sign_infix_iff hgap hshaft).mp hname.noSign
  · exact readSender?_eq_some_iff.mpr
      ⟨⟨hname.ne_nil, hname.noBlank⟩, gap, shaft, hgap, hshaft, rfl⟩
  · refine exists_head_iff
      (P := fun rest => readReceiver? (trimStart rest) = some (receiver, label)).mpr
      ⟨head, _, ?_, rfl, ?_⟩
    · rw [← List.append_assoc,
        head_append_iff (List.append_ne_nil_of_right_ne_nil gap' hname'.ne_nil)]
      exact hhead
    · show readReceiver? (trimStart (gap' ++ (receiver ++ part))) = some (receiver, label)
      rw [hname'.trimStart_gap hgap' part]
      exact readReceiver?_eq_some_iff.mpr ⟨hname', part, hpart, rfl⟩

/-- What is read as a message is spelled like one, and does not begin like a declaration. -/
theorem readLine?_eq_message_iff :
    readLine? line = some (.message sender receiver kind label) ↔
      afterKeyword? "participant".toList line = none ∧
        MessageText line sender receiver kind label := by
  unfold readLine?
  cases h : afterKeyword? "participant".toList line with
  | none => exact ⟨fun hm => ⟨rfl, messageText_of_readMessage? hm⟩, fun hm => hm.2.readMessage?_eq⟩
  | some rest =>
    refine iff_of_false (fun hread => ?_) fun hno => nomatch hno.1
    dsimp only at hread
    unfold readParticipant? at hread
    split at hread
    · cases hread
    · dsimp only at hread
      split at hread <;> cases hread

end Message

end DiagramDoc.Dialect.Seq
