import DiagramDoc.Proofs.Json.Numeral

/-!
# Reading printed values

A value that was printed is read as the same value, but for the last bits of its numbers. It has to
lie within the depth that the reader goes to, and its whole numbers have to have 64 bits at most.
-/

namespace DiagramDoc.Json

open Digits

/-! ### Strings -/

theorem valueIn?_hexDigit : ∀ d : Fin 16, valueIn? 16 (hexDigit d) = some d.val := by decide

theorem readCodePoint?_control {c : Char} (h : c.toNat < 0x20) (t : Text) :
    readCodePoint? ('0' :: '0' :: hexDigit (c.toNat / 16) :: hexDigit (c.toNat % 16) :: t) =
      some (c, t) := by
  have hzero : valueIn? 16 '0' = some 0 := by decide
  have hhigh := valueIn?_hexDigit ⟨c.toNat / 16, by omega⟩
  have hlow := valueIn?_hexDigit ⟨c.toNat % 16, by omega⟩
  dsimp only at hhigh hlow
  have hunit : readUnit? ('0' :: '0' :: hexDigit (c.toNat / 16) :: hexDigit (c.toNat % 16) :: t) =
      some (c.toNat, t) := by
    have hvalue : ((0 * 16 + 0) * 16 + c.toNat / 16) * 16 + c.toNat % 16 = c.toNat := by omega
    unfold readUnit?
    dsimp only
    rw [hzero, hhigh, hlow]
    show some (((0 * 16 + 0) * 16 + c.toNat / 16) * 16 + c.toNat % 16, t) = _
    rw [hvalue]
  unfold readCodePoint?
  rw [hunit]
  simp only [Option.bind_eq_bind, Option.bind_some]
  rw [if_neg (by omega), if_neg (by omega), Char.ofNat_toNat]

/-- A character is read back from the way it is written in a string. -/
theorem readString?_escapeChar (fuel : Nat) (done : Text) (c : Char) (t : Text) :
    readString? (fuel + 1) done (escapeChar c ++ t) = readString? fuel (c :: done) t := by
  unfold escapeChar
  split
  case h_8 hquote hback _ _ _ _ _ =>
    split
    · next hc =>
      show (readCodePoint?
        ('0' :: '0' :: hexDigit (c.toNat / 16) :: hexDigit (c.toNat % 16) :: t) >>= _) = _
      rw [readCodePoint?_control hc]
      rfl
    · next hc =>
      show readString? (fuel + 1) done (c :: t) = _
      rw [readString?.eq_def]
      dsimp only
      split
      · next he => cases he
      · next he => exact absurd (List.cons.inj he).1 hquote
      · next he => exact absurd (List.cons.inj he).1 hback
      · next he => exact absurd (List.cons.inj he).1 hback
      · next he =>
        obtain ⟨rfl, rfl⟩ := List.cons.inj he
        exact if_neg hc
  all_goals rfl

theorem one_le_length_escapeChar (c : Char) : 1 ≤ (escapeChar c).length := by
  unfold escapeChar
  split
  case h_8 => split <;> exact Nat.le_add_left _ _
  all_goals exact Nat.le_add_left _ _

theorem readString?_escaped (t : Text) {fuel : Nat} (done rest : Text)
    (h : (t.flatMap escapeChar).length < fuel) :
    readString? fuel done (t.flatMap escapeChar ++ '"' :: rest) =
      some (done.reverse ++ t, rest) := by
  induction t generalizing fuel done with
  | nil =>
    obtain ⟨fuel, rfl⟩ := Nat.exists_eq_add_one_of_ne_zero (Nat.ne_of_gt h)
    show some (done.reverse, rest) = _
    rw [List.append_nil]
  | cons c t ih =>
    have hc := one_le_length_escapeChar c
    obtain ⟨fuel, rfl⟩ := Nat.exists_eq_add_one_of_ne_zero (Nat.ne_of_gt (Nat.zero_lt_of_lt h))
    rw [List.flatMap_cons, List.length_append] at h
    rw [List.flatMap_cons, List.append_assoc, readString?_escapeChar, ih (c :: done) (by omega),
      List.reverse_cons, List.append_assoc]
    rfl

/-- The text behind the opening quote of a string. -/
theorem readString?_quote (t rest : Text) :
    readString? (t.flatMap escapeChar ++ '"' :: rest).length []
        (t.flatMap escapeChar ++ '"' :: rest) = some (t, rest) := by
  refine readString?_escaped t [] rest ?_
  rw [List.length_append, List.length_cons]
  omega

theorem quote_append (t rest : Text) :
    quote t ++ rest = '"' :: (t.flatMap escapeChar ++ '"' :: rest) := by
  unfold quote
  rw [List.cons_append, List.append_assoc]
  rfl

/-! ### Gaps -/

theorem skipGap_of_not_isGap {c : Char} (h : isGap c = false) (t : Text) :
    skipGap (c :: t) = c :: t :=
  List.dropWhile_cons_of_neg (by rw [h]; exact Bool.false_ne_true)

theorem skipGap_newline (k : Nat) (t : Text) : skipGap (newline k ++ t) = skipGap t := by
  refine List.dropWhile_append_of_pos fun c hc => ?_
  rcases List.mem_cons.mp hc with rfl | hc
  · rfl
  · rw [List.eq_of_mem_replicate hc]
    rfl

/-- Gaps before a value do not count. -/
theorem readValue?_congr {s t : Text} (h : skipGap s = skipGap t) (fuel depth : Nat) :
    readValue? fuel depth s = readValue? fuel depth t := by
  cases fuel with
  | zero => rw [readValue?, readValue?]
  | succ fuel => rw [readValue?, readValue?, h]

theorem readItems?_congr {s t : Text} (h : skipGap s = skipGap t) (fuel depth : Nat)
    (done : List Json) : readItems? fuel depth done s = readItems? fuel depth done t := by
  cases fuel with
  | zero => rw [readItems?, readItems?]
  | succ fuel => rw [readItems?, readItems?, readValue?_congr h]

theorem readMembers?_congr {s t : Text} (h : skipGap s = skipGap t) (fuel depth : Nat)
    (done : List (Text × Json)) :
    readMembers? fuel depth done s = readMembers? fuel depth done t := by
  cases fuel with
  | zero => rw [readMembers?, readMembers?]
  | succ fuel => rw [readMembers?, readMembers?, h]

/-! ### Values that come back -/

mutual

/-- A value as it is read when it was printed. -/
def restored : Json → Json
  | real x => real x.restored
  | array items => array (restoredItems items)
  | object members => object (restoredMembers members)
  | v => v

def restoredItems : List Json → List Json
  | [] => []
  | item :: items => restored item :: restoredItems items

def restoredMembers : List (Text × Json) → List (Text × Json)
  | [] => []
  | (name, value) :: members => (name, restored value) :: restoredMembers members

end

mutual

/-- A value whose numbers are read, with at most `depth` arrays and objects inside each other. -/
def Fits (depth : Nat) : Json → Prop
  | integer i => IsWide i
  | real x => x.isFinite = true
  | array items => 0 < depth ∧ FitsItems (depth - 1) items
  | object members => 0 < depth ∧ FitsMembers (depth - 1) members
  | _ => True

def FitsItems (depth : Nat) : List Json → Prop
  | [] => True
  | item :: items => Fits depth item ∧ FitsItems depth items

def FitsMembers (depth : Nat) : List (Text × Json) → Prop
  | [] => True
  | (_, value) :: members => Fits depth value ∧ FitsMembers depth members

end

/-! ### Numbers as values -/

/-- A text that begins as a number does. -/
def NumberHead (t : Text) : Prop := ∃ c rest, t = c :: rest ∧ (c.isDigit = true ∨ c = '-')

theorem numberHead_ofInt (i : Int) : NumberHead (Digits.ofInt i) := by
  obtain ⟨c, rest, hc⟩ := List.exists_cons_of_ne_nil (ofNat_ne_nil i.natAbs)
  have hdigit : c.isDigit = true := isDigit_of_mem_ofNat (hc ▸ List.mem_cons_self)
  unfold Digits.ofInt
  split
  · exact ⟨'-', _, rfl, .inr rfl⟩
  · exact ⟨c, rest, hc, .inl hdigit⟩

theorem numberHead_realText {x : Number} (h : x.isFinite = true) : NumberHead (realText x) := by
  obtain ⟨n, -, ht, hn, -⟩ := exists_value? h
  obtain ⟨c, rest, hc⟩ := List.exists_cons_of_ne_nil hn.whole_ne
  have hdigit : c.isDigit = true := hn.whole c (hc ▸ List.mem_cons_self)
  rw [ht]
  unfold Numeral.text Number.signed
  split
  · exact ⟨'-', _, rfl, .inr rfl⟩
  · exact ⟨c, _, by rw [hc]; rfl, .inl hdigit⟩

/-- Where a number begins, nothing else does. -/
theorem ne_of_numberHead {c : Char} (h : c.isDigit = true ∨ c = '-') :
    isGap c = false ∧ c ≠ ']' ∧ c ≠ 'n' ∧ c ≠ 't' ∧ c ≠ 'f' ∧ c ≠ '"' ∧ c ≠ '[' ∧ c ≠ '\x7b' := by
  have hall : ∀ d : Fin 10, isGap (digit d) = false ∧ digit d ≠ ']' ∧ digit d ≠ 'n' ∧
      digit d ≠ 't' ∧ digit d ≠ 'f' ∧ digit d ≠ '"' ∧ digit d ≠ '[' ∧ digit d ≠ '\x7b' := by
    decide
  rcases h with h | rfl
  · obtain ⟨d, rfl⟩ := exists_digit h
    exact hall d
  · decide

theorem readValue?_number {t : Text} (h : NumberHead t) (fuel depth : Nat) (rest : Text) :
    readValue? (fuel + 1) depth (t ++ rest) = readNumber? (t ++ rest) := by
  obtain ⟨c, u, rfl, hc⟩ := h
  obtain ⟨hgap, -, hn, ht, hf, hquote, hbracket, hbrace⟩ := ne_of_numberHead hc
  rw [readValue?, List.cons_append, skipGap_of_not_isGap hgap]
  split
  · next he => exact absurd (List.cons.inj he).1 hn
  · next he => exact absurd (List.cons.inj he).1 ht
  · next he => exact absurd (List.cons.inj he).1 hf
  · next he => exact absurd (List.cons.inj he).1 hquote
  · next he => exact absurd (List.cons.inj he).1 hbracket
  · next he => exact absurd (List.cons.inj he).1 hbrace
  · rfl

/-! ### Arrays and objects -/

/-- A value begins neither with a gap nor with the end of an array. -/
theorem exists_head {depth : Nat} {v : Json} (h : Fits depth v) (indent : Nat) :
    ∃ c t, pretty indent v = c :: t ∧ isGap c = false ∧ c ≠ ']' := by
  have hnumber : ∀ t, NumberHead t → ∃ c u, t = c :: u ∧ isGap c = false ∧ c ≠ ']' := by
    rintro t ⟨c, u, rfl, hc⟩
    obtain ⟨hgap, hend, -⟩ := ne_of_numberHead hc
    exact ⟨c, u, rfl, hgap, hend⟩
  cases v with
  | null => exact ⟨'n', _, by rw [pretty]; rfl, by decide, by decide⟩
  | boolean flag =>
    cases flag with
    | true => exact ⟨'t', _, by rw [pretty]; rfl, by decide, by decide⟩
    | false => exact ⟨'f', _, by rw [pretty]; rfl, by decide, by decide⟩
  | integer i =>
    rw [pretty]
    exact hnumber _ (numberHead_ofInt i)
  | real x =>
    rw [Fits] at h
    rw [pretty]
    exact hnumber _ (numberHead_realText h)
  | text t => exact ⟨'"', _, by rw [pretty]; rfl, by decide, by decide⟩
  | array items =>
    cases items with
    | nil => exact ⟨'[', _, by rw [pretty], by decide, by decide⟩
    | cons item items => exact ⟨'[', _, by rw [pretty], by decide, by decide⟩
  | object members =>
    cases members with
    | nil => exact ⟨'\x7b', _, by rw [pretty], by decide, by decide⟩
    | cons member members => exact ⟨'\x7b', _, by rw [pretty], by decide, by decide⟩

section Step

variable {fuel depth : Nat} {t u : Text} {c : Char}

theorem readValue?_bracket (hd : 0 < depth) (ht : skipGap t = c :: u) (hgap : isGap c = false)
    (hc : c ≠ ']') : readValue? (fuel + 1) depth ('[' :: t) = readItems? fuel (depth - 1) [] t := by
  have hskip : skipGap t = skipGap (c :: u) := ht.trans (skipGap_of_not_isGap hgap u).symm
  rw [readValue?, skipGap_of_not_isGap (by decide : isGap '[' = false)]
  show (if depth = 0 then none else _) = _
  rw [if_neg (Nat.ne_of_gt hd), ht, readItems?_congr hskip]
  split
  · next he => exact absurd (List.cons.inj he).1 hc
  · rfl

theorem readValue?_brace (hd : 0 < depth) (ht : skipGap t = '"' :: u) :
    readValue? (fuel + 1) depth ('\x7b' :: t) = readMembers? fuel (depth - 1) [] t := by
  have hskip : skipGap t = skipGap ('"' :: u) :=
    ht.trans (skipGap_of_not_isGap (by decide) u).symm
  rw [readValue?, skipGap_of_not_isGap (by decide : isGap '\x7b' = false)]
  show (if depth = 0 then none else _) = _
  rw [if_neg (Nat.ne_of_gt hd), ht, readMembers?_congr hskip]
  rfl

variable {item value : Json} {items : List Json} {members : List (Text × Json)} {name w rest : Text}

theorem readItems?_comma (hv : readValue? fuel depth t = some (item, w))
    (hw : skipGap w = ',' :: rest) :
    readItems? (fuel + 1) depth items t = readItems? fuel depth (item :: items) rest := by
  rw [readItems?, hv]
  simp only [Option.bind_eq_bind, Option.bind_some]
  rw [hw]
  rfl

theorem readItems?_bracket (hv : readValue? fuel depth t = some (item, w))
    (hw : skipGap w = ']' :: rest) :
    readItems? (fuel + 1) depth items t = some (array (item :: items).reverse, rest) := by
  rw [readItems?, hv]
  simp only [Option.bind_eq_bind, Option.bind_some]
  rw [hw]
  rfl

theorem readMembers?_step (ht : skipGap t = quote name ++ ':' :: u)
    (hv : readValue? fuel depth u = some (value, w)) :
    readMembers? (fuel + 1) depth members t =
      match skipGap w with
      | ',' :: rest => readMembers? fuel depth ((name, value) :: members) rest
      | '\x7d' :: rest => some (object ((name, value) :: members).reverse, rest)
      | _ => none := by
  rw [readMembers?, ht, quote_append]
  show Option.bind (readString? (name.flatMap escapeChar ++ '"' :: ':' :: u).length []
    (name.flatMap escapeChar ++ '"' :: ':' :: u)) _ = _
  rw [readString?_quote, Option.bind_some]
  dsimp only
  rw [skipGap_of_not_isGap (by decide)]
  show Option.bind (readValue? fuel depth u) _ = _
  rw [hv]
  rfl

theorem readMembers?_comma (ht : skipGap t = quote name ++ ':' :: u)
    (hv : readValue? fuel depth u = some (value, w)) (hw : skipGap w = ',' :: rest) :
    readMembers? (fuel + 1) depth members t =
      readMembers? fuel depth ((name, value) :: members) rest := by
  rw [readMembers?_step ht hv, hw]
  rfl

theorem readMembers?_brace (ht : skipGap t = quote name ++ ':' :: u)
    (hv : readValue? fuel depth u = some (value, w)) (hw : skipGap w = '\x7d' :: rest) :
    readMembers? (fuel + 1) depth members t =
      some (object ((name, value) :: members).reverse, rest) := by
  rw [readMembers?_step ht hv, hw]
  rfl

end Step

theorem prettyItems_cons (indent : Nat) (item : Json) (items : List Json) :
    prettyItems indent (item :: items) =
      ',' :: (newline indent ++ pretty indent item ++ prettyItems indent items) := by
  rw [prettyItems]

theorem prettyMembers_cons (indent : Nat) (name : Text) (value : Json)
    (members : List (Text × Json)) :
    prettyMembers indent ((name, value) :: members) =
      ',' :: (newline indent ++ quote name ++ [':', ' '] ++ pretty indent value ++
        prettyMembers indent members) := by
  rw [prettyMembers]

theorem stops_comma (t : Text) : Stops (',' :: t) := by
  rintro c ⟨⟩
  decide

theorem stops_newline (k : Nat) (t : Text) : Stops (newline k ++ t) := by
  rintro c ⟨⟩
  decide

theorem stops_items (indent k : Nat) (items : List Json) (t : Text) :
    Stops (prettyItems indent items ++ (newline k ++ t)) := by
  cases items with
  | nil =>
    rw [prettyItems]
    exact stops_newline k t
  | cons item items =>
    rw [prettyItems]
    exact stops_comma _

theorem stops_members (indent k : Nat) (members : List (Text × Json)) (t : Text) :
    Stops (prettyMembers indent members ++ (newline k ++ t)) := by
  cases members with
  | nil =>
    rw [prettyMembers]
    exact stops_newline k t
  | cons member members =>
    rw [prettyMembers]
    exact stops_comma _

theorem skipGap_item {depth : Nat} {item : Json} (h : Fits depth item) (indent : Nat)
    (items : List Json) (s : Text) :
    skipGap ((newline indent ++ pretty indent item ++ prettyItems indent items) ++ s) =
      pretty indent item ++ (prettyItems indent items ++ s) := by
  obtain ⟨c, t, hc, hgap, -⟩ := exists_head h indent
  rw [List.append_assoc, List.append_assoc, skipGap_newline, hc, List.cons_append,
    skipGap_of_not_isGap hgap]

theorem skipGap_member (indent : Nat) (name : Text) (value : Json) (members : List (Text × Json))
    (s : Text) :
    skipGap ((newline indent ++ quote name ++ [':', ' '] ++ pretty indent value ++
        prettyMembers indent members) ++ s) =
      quote name ++ ':' :: ' ' :: (pretty indent value ++ (prettyMembers indent members ++ s)) := by
  simp only [List.append_assoc]
  rw [skipGap_newline, quote_append, skipGap_of_not_isGap (by decide), quote_append]
  rfl

theorem pretty_array_append (indent : Nat) (item : Json) (items : List Json) (rest : Text) :
    pretty indent (array (item :: items)) ++ rest =
      '[' :: ((newline (indent + 1) ++ pretty (indent + 1) item ++
        prettyItems (indent + 1) items) ++ (newline indent ++ ']' :: rest)) := by
  rw [pretty]
  simp only [List.cons_append, List.append_assoc, List.nil_append]

theorem pretty_object_append (indent : Nat) (name : Text) (value : Json)
    (members : List (Text × Json)) (rest : Text) :
    pretty indent (object ((name, value) :: members)) ++ rest =
      '\x7b' :: ((newline (indent + 1) ++ quote name ++ [':', ' '] ++ pretty (indent + 1) value ++
        prettyMembers (indent + 1) members) ++ (newline indent ++ '\x7d' :: rest)) := by
  rw [pretty]
  simp only [List.cons_append, List.append_assoc, List.nil_append]

/-! ### Reading what was printed -/

mutual

/-- A printed value is read wherever it stands, if a number is not continued behind it. -/
theorem readValue?_pretty (v : Json) {depth indent fuel : Nat} {rest : Text} (h : Fits depth v)
    (hrest : Stops rest) (hf : (pretty indent v).length ≤ fuel) :
    readValue? fuel depth (pretty indent v ++ rest) = some (restored v, rest) := by
  obtain ⟨c, t, hhead, hgap, hend⟩ := exists_head h indent
  obtain ⟨fuel, rfl⟩ : ∃ n, fuel = n + 1 := by
    rw [hhead, List.length_cons] at hf
    exact Nat.exists_eq_add_one_of_ne_zero (by omega)
  match v with
  | null => rw [pretty]; rfl
  | boolean flag =>
    rw [pretty]
    cases flag <;> rfl
  | integer i =>
    rw [Fits] at h
    rw [pretty, readValue?_number (numberHead_ofInt i), readNumber?_ofInt h hrest]
    rfl
  | real x =>
    rw [Fits] at h
    rw [pretty, readValue?_number (numberHead_realText h), readNumber?_realText h hrest]
    rfl
  | text t =>
    rw [pretty, quote_append, readValue?, skipGap_of_not_isGap (by decide)]
    show (readString? _ [] _).map _ = _
    rw [readString?_quote]
    rfl
  | array [] =>
    rw [Fits] at h
    rw [pretty]
    show (if depth = 0 then none else some (array [], rest)) = _
    rw [if_neg (Nat.ne_of_gt h.1)]
    rfl
  | array (item :: items) =>
    rw [Fits] at h
    obtain ⟨hd, hitems⟩ := h
    have hitem := hitems
    rw [FitsItems] at hitem
    obtain ⟨c, t, hc, hgap, hend⟩ := exists_head hitem.1 (indent + 1)
    have hskip := skipGap_item hitem.1 (indent + 1) items (newline indent ++ ']' :: rest)
    rw [hc, List.cons_append] at hskip
    rw [pretty] at hf
    simp only [List.length_cons, List.length_append] at hf
    rw [pretty_array_append, hc, readValue?_bracket hd hskip hgap hend, ← hc,
      readItems?_pretty (item :: items) (prettyItems_cons _ _ _) hitems ?_]
    · rfl
    · simp only [List.length_append]
      omega
  | object [] =>
    rw [Fits] at h
    rw [pretty]
    show (if depth = 0 then none else some (object [], rest)) = _
    rw [if_neg (Nat.ne_of_gt h.1)]
    rfl
  | object ((name, value) :: members) =>
    rw [Fits] at h
    obtain ⟨hd, hmembers⟩ := h
    have hskip := skipGap_member (indent + 1) name value members (newline indent ++ '\x7d' :: rest)
    rw [quote_append] at hskip
    rw [pretty] at hf
    simp only [List.length_cons, List.length_append] at hf
    rw [pretty_object_append, readValue?_brace hd hskip,
      readMembers?_pretty ((name, value) :: members) (prettyMembers_cons _ _ _ _) hmembers ?_]
    · rfl
    · simp only [List.length_append, List.length_cons]
      omega

theorem readItems?_pretty (items : List Json) {depth indent fuel : Nat} {t : Text}
    (ht : prettyItems indent items = ',' :: t) (h : FitsItems depth items) (hf : t.length < fuel)
    (done : List Json) (k : Nat) (rest : Text) :
    readItems? fuel depth done (t ++ (newline k ++ ']' :: rest)) =
      some (array (done.reverse ++ restoredItems items), rest) := by
  match items with
  | [] =>
    rw [prettyItems] at ht
    cases ht
  | item :: items =>
    rw [FitsItems] at h
    rw [prettyItems] at ht
    obtain rfl := (List.cons.inj ht).2
    obtain ⟨fuel, rfl⟩ := Nat.exists_eq_add_one_of_ne_zero (Nat.ne_of_gt (Nat.zero_lt_of_lt hf))
    simp only [List.length_append] at hf
    have hvalue : readValue? fuel depth ((newline indent ++ pretty indent item ++
        prettyItems indent items) ++ (newline k ++ ']' :: rest)) =
          some (restored item, prettyItems indent items ++ (newline k ++ ']' :: rest)) := by
      rw [List.append_assoc, List.append_assoc, readValue?_congr (skipGap_newline indent _)]
      exact readValue?_pretty item h.1 (stops_items indent k items _) (by omega)
    cases items with
    | nil =>
      rw [prettyItems, List.nil_append] at hvalue
      have hend : skipGap (newline k ++ ']' :: rest) = ']' :: rest := by
        rw [skipGap_newline, skipGap_of_not_isGap (by decide)]
      rw [prettyItems, readItems?_bracket hvalue hend, List.reverse_cons]
      rfl
    | cons next items =>
      have hnext := prettyItems_cons indent next items
      rw [hnext, List.length_cons] at hf
      rw [hnext, List.cons_append] at hvalue
      rw [hnext, readItems?_comma hvalue (skipGap_of_not_isGap (by decide) _),
        readItems?_pretty (next :: items) hnext h.2 (by omega), List.reverse_cons,
        List.append_assoc]
      rfl

theorem readMembers?_pretty (members : List (Text × Json)) {depth indent fuel : Nat} {t : Text}
    (ht : prettyMembers indent members = ',' :: t) (h : FitsMembers depth members)
    (hf : t.length < fuel) (done : List (Text × Json)) (k : Nat) (rest : Text) :
    readMembers? fuel depth done (t ++ (newline k ++ '\x7d' :: rest)) =
      some (object (done.reverse ++ restoredMembers members), rest) := by
  match members with
  | [] =>
    rw [prettyMembers] at ht
    cases ht
  | (name, value) :: members =>
    rw [FitsMembers] at h
    rw [prettyMembers] at ht
    obtain rfl := (List.cons.inj ht).2
    obtain ⟨fuel, rfl⟩ := Nat.exists_eq_add_one_of_ne_zero (Nat.ne_of_gt (Nat.zero_lt_of_lt hf))
    simp only [List.length_append] at hf
    have hvalue : readValue? fuel depth (' ' :: (pretty indent value ++
        (prettyMembers indent members ++ (newline k ++ '\x7d' :: rest)))) =
          some (restored value, prettyMembers indent members ++ (newline k ++ '\x7d' :: rest)) := by
      rw [readValue?_congr (List.dropWhile_cons_of_pos (by decide) : skipGap (' ' :: _) = _)]
      exact readValue?_pretty value h.1 (stops_members indent k members _) (by omega)
    have hskip := skipGap_member indent name value members (newline k ++ '\x7d' :: rest)
    cases members with
    | nil =>
      rw [prettyMembers, List.nil_append] at hvalue hskip
      have hend : skipGap (newline k ++ '\x7d' :: rest) = '\x7d' :: rest := by
        rw [skipGap_newline, skipGap_of_not_isGap (by decide)]
      rw [prettyMembers, readMembers?_brace hskip hvalue hend, List.reverse_cons]
      rfl
    | cons next members =>
      obtain ⟨other, after⟩ := next
      have hnext := prettyMembers_cons indent other after members
      rw [hnext] at hf
      simp only [List.length_cons] at hf
      rw [hnext, List.cons_append] at hvalue
      rw [hnext] at hskip
      rw [hnext, readMembers?_comma hskip hvalue (skipGap_of_not_isGap (by decide) _),
        readMembers?_pretty ((other, after) :: members) hnext h.2 (by omega), List.reverse_cons,
        List.append_assoc]
      rfl

end

/-- A printed value is read as the value it was, but for the last bits of its numbers. -/
theorem read?_pretty {v : Json} (h : Fits maxDepth v) : read? (pretty 0 v) = some (restored v) := by
  have hstops : Stops [] := nofun
  have hfuel : (pretty 0 v).length ≤ 2 * (pretty 0 v).length + 1 := by omega
  have hread := readValue?_pretty v h hstops hfuel
  rw [List.append_nil] at hread
  unfold read? readWithin?
  rw [hread]
  rfl

end DiagramDoc.Json
