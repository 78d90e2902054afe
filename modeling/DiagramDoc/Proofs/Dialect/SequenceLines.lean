import DiagramDoc.Proofs.Dialect.Line
import DiagramDoc.Proofs.Dialect.Name
import DiagramDoc.Proofs.Dialect.SequenceSpelling

/-!
# What the written lines of a sequence diagram say

The line of a participant or of a message is read as just that, whatever stands in its name or
label: names stand in quotes, and a label stands at the end of its line, where blanks are trimmed.
-/

namespace DiagramDoc.Dialect.Seq

open Text

/-! ### The line of a participant -/

theorem participantName_spec (id : Nat) :
    ∃ c rest, participantName id = 'P' :: c :: rest ∧ c.isDigit = true ∧
      ∀ d ∈ rest, d.isDigit = true := by
  obtain ⟨c, rest, he⟩ := List.exists_cons_of_ne_nil (toText_ne_nil id)
  have hall : ∀ d ∈ c :: rest, d.isDigit = true := fun d hd => isDigit_of_mem_toText (he ▸ hd)
  obtain ⟨hc, hrest⟩ := List.forall_mem_cons.mp hall
  exact ⟨c, rest, congrArg ('P' :: ·) he, hc, hrest⟩

/-- The characters of a participant's name. -/
theorem mem_participantName {id : Nat} {c : Char} (h : c ∈ participantName id) :
    c = 'P' ∨ c.isDigit = true :=
  (List.mem_cons.mp h).imp_right isDigit_of_mem_toText

theorem isBlank_of_mem_participantName {id : Nat} {c : Char} (h : c ∈ participantName id) :
    isBlank c = false := by
  rcases mem_participantName h with rfl | hd
  · decide
  · exact isBlank_of_isDigit hd

theorem not_mem_participantName {c : Char} (hp : c ≠ 'P') (hd : c.isDigit = false) (id : Nat) :
    c ∉ participantName id := by
  intro h
  rcases mem_participantName h with he | he
  · exact hp he
  · rw [hd] at he
    cases he

def quotedName (name : Text) : Text := '"' :: (escape name ++ ['"'])

theorem trim_quotedName (name : Text) : trim (quotedName name) = quotedName name :=
  trim_eq_self (by decide) (by decide) (escape name)

theorem displayName_quotedName (name : Text) :
    displayName (quotedName name) = unifyBreaks name := by
  have hlast : (quotedName name).getLast? = some '"' :=
    List.getLast?_concat (l := '"' :: escape name)
  have hquotes : 2 ≤ (quotedName name).length ∧
      (quotedName name).head? = (quotedName name).getLast? ∧
      ((quotedName name).head? = some '"' ∨ (quotedName name).head? = some '\'') := by
    refine ⟨?_, by rw [hlast]; rfl, .inl rfl⟩
    unfold quotedName
    simp
  have hinner : (quotedName name).tail.dropLast = escape name := List.dropLast_concat
  unfold displayName stripQuotes
  rw [trim_quotedName]
  dsimp only
  rw [if_pos hquotes, hinner, unescape_escape]

/-- What follows the keyword in the line of a participant. -/
def declaration (p : Participant) : Text :=
  participantName p.id ++ ' ' :: ("as ".toList ++ quotedName p.name)

theorem participantLine_eq (p : Participant) :
    participantLine p = "participant".toList ++ ' ' :: declaration p := by
  unfold participantLine declaration quotedName
  simp

theorem trim_declaration (p : Participant) : trim (declaration p) = declaration p := by
  have he : declaration p = 'P' ::
      (EntityId.toText p.id ++ ' ' :: ("as ".toList ++ '"' :: escape p.name) ++ ['"']) := by
    unfold declaration quotedName participantName
    simp
  rw [he]
  exact trim_eq_self (by decide) (by decide) _

theorem splitWord_declaration (p : Participant) :
    splitWord (declaration p) = (participantName p.id, "as ".toList ++ quotedName p.name) := by
  have hrest : trim (' ' :: ("as ".toList ++ quotedName p.name)) =
      "as ".toList ++ quotedName p.name := by
    rw [trim_cons_blank (by decide)]
    exact trim_cons_append (b := 'a') (by decide) "s ".toList (List.cons_ne_nil _ _)
      (trim_quotedName p.name)
  have hblank : ∀ c ∈ (' ' :: ("as ".toList ++ quotedName p.name)).head?, isBlank c = true := by
    rintro c ⟨⟩
    rfl
  unfold declaration
  rw [splitWord_append (fun c hc => isBlank_of_mem_participantName hc) hblank, hrest]

theorem readLine?_participantLine (p : Participant) :
    readLine? (participantLine p) =
      some (.participant (participantName p.id) (unifyBreaks p.name)) := by
  have hkey : afterKeyword? "participant".toList (participantLine p) = some (declaration p) := by
    have hk : afterKeyword? "participant".toList ("participant".toList ++ ' ' :: declaration p) =
        some (trim (declaration p)) := afterKeyword?_append (by decide) (' ' :: declaration p)
    rw [participantLine_eq, hk, trim_declaration]
  have has : afterKeyword? "as".toList ("as ".toList ++ quotedName p.name) =
      some (quotedName p.name) := by
    show some (trim (quotedName p.name)) = some (quotedName p.name)
    rw [trim_quotedName]
  have hdeclares := Declares.called hkey (splitWord_declaration p) has (List.cons_ne_nil _ _)
  rw [← displayName_quotedName p.name]
  exact hdeclares.readLine?_eq

/-! ### The line of a message -/

/-- What stands behind the sign in the line of a message, once the line is trimmed. -/
def addressed (m : Message) : Text :=
  participantName m.receiver ++
    if escape m.label = [] then [] else ':' :: trimEnd (' ' :: escape m.label)

theorem trim_messageLine (m : Message) :
    trim (messageLine m) = participantName m.sender ++ (lineSign m.line ++ addressed m) := by
  have hline : messageLine m = participantName m.sender ++ (lineSign m.line ++
      (participantName m.receiver ++
        if escape m.label = [] then [] else ':' :: ' ' :: escape m.label)) := by
    unfold messageLine
    simp
  have hstart : ∀ t, trim (participantName m.sender ++ t) =
      trimEnd (participantName m.sender ++ t) := fun t =>
    congrArg trimEnd (trimStart_cons (c := 'P') (by decide) _)
  rw [hline, hstart]
  unfold addressed
  split
  · -- The line ends with the name of the receiver.
    obtain ⟨c, rest, hname, hc, hrest⟩ := participantName_spec m.receiver
    have hall : ∀ d ∈ c :: rest, isBlank d = false := List.forall_mem_cons.mpr
      ⟨isBlank_of_isDigit hc, fun d hd => isBlank_of_isDigit (hrest d hd)⟩
    rw [List.append_nil, hname, ← List.append_assoc, trimEnd_append_cons (c := 'P') (by decide),
      trimEnd_of_forall hall]
  · rw [← List.append_assoc, ← List.append_assoc, trimEnd_append_cons (c := ':') (by decide)]
    simp

theorem afterKeyword?_messageLine (m : Message) :
    afterKeyword? "participant".toList (trim (messageLine m)) = none := by
  have hall : ∀ n : Fin 10, (Digits.digit n).toLower ≠ 'a' := by decide
  obtain ⟨c, rest, hname, hc, -⟩ := participantName_spec m.sender
  obtain ⟨n, rfl⟩ := Digits.exists_digit hc
  have hline : ∃ t, (trim (messageLine m)).take "participant".toList.length =
      'P' :: Digits.digit n :: t := by
    rw [trim_messageLine, hname]
    exact ⟨_, rfl⟩
  obtain ⟨t, ht⟩ := hline
  have hs : sameIgnoringCase ('P' :: Digits.digit n :: t) "participant".toList = false := by
    refine beq_eq_false_iff_ne.mpr fun he => hall n ?_
    exact (List.cons.inj (List.cons.inj he).2).1
  unfold afterKeyword?
  rw [ht, hs]
  rfl

theorem isSender_participantName (id : Nat) : IsSender (participantName id) where
  ne_nil := List.cons_ne_nil _ _
  noBlank _ hc := isBlank_of_mem_participantName hc
  noSign h := not_mem_participantName (by decide) (by decide) id (h.subset List.mem_cons_self)

theorem isReceiver_participantName (id : Nat) : IsReceiver (participantName id) where
  ne_nil := List.cons_ne_nil _ _
  noBlank _ hc := isBlank_of_mem_participantName hc
  noColon := not_mem_participantName (by decide) (by decide) id

theorem exists_shaft_lineSign (id : Nat) (line : DiagramDoc.Line) :
    ∃ shaft, Shaft (participantName id) line shaft ∧ lineSign line = shaft ++ ['-', '>', '>'] := by
  cases line with
  | solid =>
    refine ⟨[], .solid fun h => ?_, rfl⟩
    exact not_mem_participantName (by decide) (by decide) id (List.mem_of_mem_getLast? h)
  | dashed => exact ⟨['-'], .dashed, rfl⟩

theorem labelPart_escape (label : Text) : LabelPart (trim (escape label))
    (if escape label = [] then [] else ':' :: trimEnd (' ' :: escape label)) := by
  have hgap : Gap [] := List.forall_mem_nil _
  split
  · next h =>
    rw [h]
    exact .none hgap
  · rw [← trim_cons_blank (c := ' ') (by decide) (escape label), ← trim_trimEnd]
    exact .some hgap _

theorem messageText_messageLine (m : Message) :
    MessageText (trim (messageLine m)) (participantName m.sender) (participantName m.receiver)
      m.line (trim (escape m.label)) := by
  have hgap : Gap [] := List.forall_mem_nil _
  obtain ⟨shaft, hshaft, hsign⟩ := exists_shaft_lineSign m.sender m.line
  refine ⟨isSender_participantName _, isReceiver_participantName _, [], shaft, ['>'], [], _, hgap,
    ?_, .double, hgap, labelPart_escape m.label, ?_⟩
  · rw [List.append_nil]
    exact hshaft
  · rw [trim_messageLine, hsign]
    unfold addressed
    simp

theorem readLine?_messageLine (m : Message) :
    readLine? (trim (messageLine m)) =
      some (.message (participantName m.sender) (participantName m.receiver) m.line
        (trim (escape m.label))) :=
  readLine?_eq_message_iff.mpr ⟨afterKeyword?_messageLine m, messageText_messageLine m⟩

/-! ### The lines as they stand in a text -/

theorem written_participantLine (p : Participant) : Written (participantLine p) where
  noFeed := by
    have hn : '\n' ∉ participantName p.id := not_mem_participantName (by decide) (by decide) p.id
    have he : '\n' ∉ escape p.name := lineFeed_not_mem_escapeFor p.name
    unfold participantLine
    simp [hn, he]
  trimmed := by
    rw [participantLine_eq]
    exact trim_cons_append (b := 'p') (by decide) "articipant ".toList (List.cons_ne_nil _ _)
      (trim_declaration p)
  content := isContent_cons (by decide) _

theorem written_messageLine (m : Message) :
    '\n' ∉ messageLine m ∧ isContent (trim (messageLine m)) = true := by
  constructor
  · have hn : ∀ id, '\n' ∉ participantName id := not_mem_participantName (by decide) (by decide)
    have he : '\n' ∉ escape m.label := lineFeed_not_mem_escapeFor m.label
    have hs : '\n' ∉ lineSign m.line := by cases m.line <;> decide
    unfold messageLine
    dsimp only
    split <;> simp [hn, he, hs]
  · rw [trim_messageLine]
    exact isContent_cons (by decide) _

/-- The lines that count in the text of a diagram. -/
def writtenLines (s : Sequence) : List Text :=
  s.participants.map participantLine ++ (s.connectedMessages.map messageLine).map trim

theorem contentLines_write (s : Sequence) :
    contentLines (write s) = "sequenceDiagram".toList :: writtenLines s := by
  have hall : ∀ line ∈ s.participants.map participantLine ++ s.connectedMessages.map messageLine,
      '\n' ∉ line ∧ isContent (trim line) = true := by
    refine List.forall_mem_append.mpr ⟨List.forall_mem_map.mpr fun p _ => ?_,
      List.forall_mem_map.mpr fun m _ => written_messageLine m⟩
    have hw := written_participantLine p
    exact ⟨hw.noFeed, by rw [hw.trimmed]; exact hw.content⟩
  have htrim : (s.participants.map participantLine).map trim =
      s.participants.map participantLine :=
    (List.map_congr_left (List.forall_mem_map.mpr fun p _ =>
      (written_participantLine p).trimmed)).trans (List.map_id _)
  unfold write
  rw [contentLines_written (by decide) (by decide) (by decide) hall, List.map_append, htrim]
  rfl

end DiagramDoc.Dialect.Seq
