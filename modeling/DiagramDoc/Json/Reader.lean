import DiagramDoc.Json.Numeral

/-!
# Reading JSON text

The grammar of JSON, taken strictly: nothing but blanks around the one value, at most 127 arrays
and objects inside each other, no control characters in strings, no half surrogates, and no number
beyond the largest finite one.
-/

namespace DiagramDoc.Json

def isGap (c : Char) : Bool := c == ' ' || c == '\t' || c == '\n' || c == '\r'

def skipGap (t : Text) : Text := t.dropWhile isGap

/-- The value of four hexadecimal digits at the start of a text, and the rest. -/
def readUnit? : Text → Option (Nat × Text)
  | a :: b :: c :: d :: rest => do
    let a ← Digits.valueIn? 16 a
    let b ← Digits.valueIn? 16 b
    let c ← Digits.valueIn? 16 c
    let d ← Digits.valueIn? 16 d
    some (((a * 16 + b) * 16 + c) * 16 + d, rest)
  | _ => none

/-- The character after `\u`. A high surrogate needs a low one directly after it. -/
def readCodePoint? (t : Text) : Option (Char × Text) := do
  let (high, rest) ← readUnit? t
  if 0xD800 ≤ high ∧ high < 0xDC00 then
    match rest with
    | '\\' :: 'u' :: rest => do
      let (low, rest) ← readUnit? rest
      if 0xDC00 ≤ low ∧ low < 0xE000 then
        some (Char.ofNat (0x10000 + (high - 0xD800) * 0x400 + (low - 0xDC00)), rest)
      else none
    | _ => none
  else if 0xDC00 ≤ high ∧ high < 0xE000 then none
  else some (Char.ofNat high, rest)

def escaped? (c : Char) : Option Char :=
  match c with
  | '"' => some '"'
  | '\\' => some '\\'
  | '/' => some '/'
  | 'b' => some '\x08'
  | 'f' => some '\x0c'
  | 'n' => some '\n'
  | 'r' => some '\r'
  | 't' => some '\t'
  | _ => none

/-- The rest of a string up to its closing quote; `done` holds what was read, last one first. -/
def readString? : Nat → Text → Text → Option (Text × Text)
  | 0, _, _ => none
  | fuel + 1, done, t =>
    match t with
    | [] => none
    | '"' :: rest => some (done.reverse, rest)
    | '\\' :: 'u' :: rest => do
      let (c, rest) ← readCodePoint? rest
      readString? fuel (c :: done) rest
    | '\\' :: c :: rest => do
      let c ← escaped? c
      readString? fuel (c :: done) rest
    | c :: rest => if c.toNat < 0x20 then none else readString? fuel (c :: done) rest

def readFraction? : Text → Option (Option Text × Text)
  | '.' :: rest =>
    let (digits, rest) := Decimal.readDigits rest
    if digits = [] then none else some (some digits, rest)
  | t => some (none, t)

def readExponent? : Text → Option (Option Int × Text)
  | [] => some (none, [])
  | c :: rest =>
    if c = 'e' ∨ c = 'E' then
      let (negative, rest) := Decimal.readSign rest
      let (digits, rest) := Decimal.readDigits rest
      if digits = [] then none
      else
        let size : Int := Digits.toNat digits
        some (some (if negative then -size else size), rest)
    else some (none, c :: rest)

/-- A whole part of more than one digit does not begin with zero. -/
def readNumber? (t : Text) : Option (Json × Text) := do
  let (negative, t) := match t with
    | '-' :: rest => (true, rest)
    | t => (false, t)
  let (whole, t) := Decimal.readDigits t
  if whole = [] ∨ (whole.head? = some '0' ∧ 1 < whole.length) then none
  else do
    let (fraction, t) ← readFraction? t
    let (exponent, t) ← readExponent? t
    let value ← Numeral.value? ⟨negative, whole, fraction, exponent⟩
    some (value, t)

mutual

/-- One value, gaps before it skipped. `depth` tells how many arrays and objects may be opened. -/
def readValue? : Nat → Nat → Text → Option (Json × Text)
  | 0, _, _ => none
  | fuel + 1, depth, t =>
    match skipGap t with
    | 'n' :: 'u' :: 'l' :: 'l' :: rest => some (null, rest)
    | 't' :: 'r' :: 'u' :: 'e' :: rest => some (boolean true, rest)
    | 'f' :: 'a' :: 'l' :: 's' :: 'e' :: rest => some (boolean false, rest)
    | '"' :: rest => (readString? rest.length [] rest).map fun (s, rest) => (text s, rest)
    | '[' :: rest =>
      if depth = 0 then none
      else
        match skipGap rest with
        | ']' :: rest => some (array [], rest)
        | rest => readItems? fuel (depth - 1) [] rest
    | '\x7b' :: rest =>
      if depth = 0 then none
      else
        match skipGap rest with
        | '\x7d' :: rest => some (object [], rest)
        | rest => readMembers? fuel (depth - 1) [] rest
    | rest => readNumber? rest

/-- The items of an array up to its bracket; `done` holds those read, last one first. -/
def readItems? : Nat → Nat → List Json → Text → Option (Json × Text)
  | 0, _, _, _ => none
  | fuel + 1, depth, done, t => do
    let (item, t) ← readValue? fuel depth t
    match skipGap t with
    | ',' :: rest => readItems? fuel depth (item :: done) rest
    | ']' :: rest => some (array (item :: done).reverse, rest)
    | _ => none

def readMembers? : Nat → Nat → List (Text × Json) → Text → Option (Json × Text)
  | 0, _, _, _ => none
  | fuel + 1, depth, done, t =>
    match skipGap t with
    | '"' :: rest => do
      let (name, t) ← readString? rest.length [] rest
      match skipGap t with
      | ':' :: rest => do
        let (value, t) ← readValue? fuel depth rest
        match skipGap t with
        | ',' :: rest => readMembers? fuel depth ((name, value) :: done) rest
        | '\x7d' :: rest => some (object ((name, value) :: done).reverse, rest)
        | _ => none
      | _ => none
    | _ => none

end

def maxDepth : Nat := 127

/-- The value that a whole text stands for, with a given number of arrays and objects inside each
other. -/
def readWithin? (depth : Nat) (t : Text) : Option Json := do
  let (value, rest) ← readValue? (2 * t.length + 1) depth t
  if skipGap rest = [] then some value else none

def read? (t : Text) : Option Json := readWithin? maxDepth t

end DiagramDoc.Json
