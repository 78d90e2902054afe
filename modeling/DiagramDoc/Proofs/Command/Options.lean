import DiagramDoc.Command.Options
import DiagramDoc.Proofs.Text.Field
import Mathlib.Data.List.Forall2
import Mathlib.Data.List.Perm.Basic
import Mathlib.Data.Option.Basic

/-!
# Command lines in any order

A command line is put together from phrases: words of their own, and options with their values. It
is read if the words are a command with its operands and each option is given at most once. Where
the options stand among the words and among each other makes no difference.
-/

namespace DiagramDoc.Command

/-- What stands together in a command line. -/
inductive Phrase where
  | plain (word : Text)
  | data (value : Text)
  | logLevel (name : Text)
  | marker
deriving DecidableEq

namespace Phrase

def words : Phrase → List Text
  | plain word => [word]
  | data value => ["--data".toList, value]
  | logLevel name => ["--log-level".toList, name]
  | marker => ["--marker".toList]

def plain? : Phrase → Option Text
  | plain word => some word
  | _ => none

def data? : Phrase → Option Text
  | data value => some value
  | _ => none

def logLevel? : Phrase → Option Text
  | logLevel name => some name
  | _ => none

end Phrase

def spell (phrases : List Phrase) : List Text := phrases.flatMap Phrase.words

def plainWords (phrases : List Phrase) : List Text := phrases.filterMap Phrase.plain?

def dataValues (phrases : List Phrase) : List Text := phrases.filterMap Phrase.data?

def levelNames (phrases : List Phrase) : List Text := phrases.filterMap Phrase.logLevel?

/-- No word of its own could be taken for an option. -/
def Undashed (phrases : List Phrase) : Prop := ∀ word ∈ plainWords phrases, word.head? ≠ some '-'

namespace Action

/-- The command of an action and its operands. -/
def words : Action → List Text
  | writeText _ => ["text".toList]
  | writeTable => ["csv".toList]
  | readText source => ["import".toList, source]
  | normalize => ["normalize".toList]
  | schema => ["schema".toList]

def isMarked : Action → Bool
  | writeText marked => marked
  | _ => false

end Action

/-- The phrases are the words of a command, in this order, and among them, wherever they stand, the
options that were given. -/
structure Spells (phrases : List Phrase) (o : Options) : Prop where
  undashed : Undashed phrases
  plain : plainWords phrases = o.action.words
  data : dataValues phrases = o.data.toList
  noData : o.action = .schema → o.data = none
  logLevel : List.Forall₂ (fun name level => Text.sameIgnoringCase (LogLevel.name level) name)
    (levelNames phrases) o.logLevel.toList
  marker : phrases.count .marker = o.action.isMarked.toNat

/-! ### Levels -/

theorem LogLevel.ofWord?_eq_some_iff {word : Text} {level : LogLevel} :
    LogLevel.ofWord? word = some level ↔ Text.sameIgnoringCase level.name word = true := by
  refine Text.find?_name_eq_some_iff (fun level => ?_) (fun level level' h => ?_)
  · cases level <;> decide
  · revert h
    cases level <;> cases level' <;> decide

/-! ### Room for one value -/

theorem toList_injective {α : Type} : Function.Injective (Option.toList (α := α)) := by
  intro o o' h
  cases o <;> cases o' <;> simp_all

theorem toNat_injective : Function.Injective Bool.toNat := by
  intro b b' h
  cases b <;> cases b' <;> simp_all

/-- A value is taken in only where there is none. -/
theorem toList_eq_append_cons {α : Type} {o o' : Option α} {a : α} {values : List α} :
    o'.toList = o.toList ++ a :: values ↔
      o = none ∧ o'.toList = (some a).toList ++ values := by
  cases o with
  | none => simp
  | some _ => cases o' <;> simp

theorem toNat_eq_add_succ {b b' : Bool} {n : Nat} :
    b'.toNat = b.toNat + (n + 1) ↔ b = false ∧ b'.toNat = true.toNat + n := by
  cases b with
  | false =>
    rw [Bool.toNat_false, Bool.toNat_true, Nat.zero_add, Nat.add_comm]
    exact (and_iff_right rfl).symm
  | true =>
    have hroom := Bool.toNat_le b'
    refine ⟨fun h => ?_, fun h => nomatch h.1⟩
    rw [h, Bool.toNat_true] at hroom
    exact absurd hroom (by omega)

/-! ### Reading words on -/

namespace Words

/-- What was read before, and what the phrases say. -/
structure Gathers (w : Words) (phrases : List Phrase) (w' : Words) : Prop where
  plain : w'.plain = w.plain ++ plainWords phrases
  data : w'.data.toList = w.data.toList ++ dataValues phrases
  logLevel : ∃ levels, List.Forall₂ (fun name level => LogLevel.ofWord? name = some level)
    (levelNames phrases) levels ∧ w'.logLevel.toList = w.logLevel.toList ++ levels
  marker : w'.marker.toNat = w.marker.toNat + phrases.count .marker

section Equations

variable {w w' : Words} {word : Text} {rest : List Text}

theorem readOn_plain (h : word.head? ≠ some '-') :
    w.readOn (word :: rest) = { w with plain := w.plain ++ [word] }.readOn rest := by
  have hne : ∀ option : Text, option.head? = some '-' → word ≠ option := by
    rintro option ho rfl
    exact h ho
  rw [readOn.eq_def]
  dsimp only
  rw [if_neg (hne _ rfl), if_neg (hne _ rfl), if_neg (hne _ rfl), if_neg h]

theorem readOn_data {value : Text} :
    w.readOn ("--data".toList :: value :: rest) = some w' ↔
      w.data = none ∧ { w with data := some value }.readOn rest = some w' := by
  rw [readOn.eq_def]
  dsimp only
  rw [if_pos rfl]
  cases w.data <;> simp

theorem readOn_marker :
    w.readOn ("--marker".toList :: rest) = some w' ↔
      w.marker = false ∧ { w with marker := true }.readOn rest = some w' := by
  rw [readOn.eq_def]
  dsimp only
  rw [if_neg (by decide), if_pos rfl]
  cases w.marker <;> simp

theorem readOn_logLevel {name : Text} :
    w.readOn ("--log-level".toList :: name :: rest) = some w' ↔
      ∃ level, w.logLevel = none ∧ LogLevel.ofWord? name = some level ∧
        { w with logLevel := some level }.readOn rest = some w' := by
  rw [readOn.eq_def]
  dsimp only
  rw [if_neg (by decide), if_neg (by decide), if_pos rfl]
  cases w.logLevel with
  | none =>
    dsimp only
    cases LogLevel.ofWord? name <;> simp
  | some _ => simp

/-- An option at the end has no value. -/
theorem readOn_unvalued {option : Text}
    (h : option = "--data".toList ∨ option = "--log-level".toList) : w.readOn [option] = none := by
  rw [readOn.eq_def]
  dsimp only
  rcases h with rfl | rfl
  · rw [if_pos rfl]
    cases w.data <;> rfl
  · rw [if_neg (by decide), if_neg (by decide), if_pos rfl]
    cases w.logLevel <;> rfl

theorem readOn_unknown (hdata : word ≠ "--data".toList) (hmarker : word ≠ "--marker".toList)
    (hlevel : word ≠ "--log-level".toList) (hdash : word.head? = some '-') :
    w.readOn (word :: rest) = none := by
  rw [readOn.eq_def]
  dsimp only
  rw [if_neg hdata, if_neg hmarker, if_neg hlevel, if_pos hdash]

end Equations

section Gathers

variable {w w' : Words} {phrases : List Phrase}

theorem gathers_nil : Gathers w [] w' ↔ w = w' := by
  constructor
  · rintro ⟨hplain, hdata, ⟨levels, hnames, hlevel⟩, hmarker⟩
    cases hnames
    have hplain : w'.plain = w.plain := hplain.trans (List.append_nil _)
    have hdata : w'.data = w.data := toList_injective (hdata.trans (List.append_nil _))
    have hlevel : w'.logLevel = w.logLevel := toList_injective (hlevel.trans (List.append_nil _))
    have hmarker : w'.marker = w.marker := toNat_injective hmarker
    cases w
    cases w'
    rw [Words.mk.injEq]
    exact ⟨hplain.symm, hdata.symm, hmarker.symm, hlevel.symm⟩
  · rintro rfl
    exact ⟨(List.append_nil _).symm, (List.append_nil _).symm,
      ⟨[], .nil, (List.append_nil _).symm⟩, rfl⟩

theorem count_marker_cons {phrase : Phrase} (h : phrase ≠ .marker) :
    (phrase :: phrases).count .marker = phrases.count .marker := List.count_cons_of_ne h

theorem gathers_plain {word : Text} :
    Gathers w (.plain word :: phrases) w' ↔
      Gathers { w with plain := w.plain ++ [word] } phrases w' := by
  have hplain : w.plain ++ plainWords (.plain word :: phrases) =
      w.plain ++ [word] ++ plainWords phrases := by
    rw [List.append_assoc]
    rfl
  have hcount := @count_marker_cons phrases (.plain word) nofun
  constructor
  · rintro ⟨hw, hdata, hlevel, hmarker⟩
    exact ⟨hw.trans hplain, hdata, hlevel, hcount ▸ hmarker⟩
  · rintro ⟨hw, hdata, hlevel, hmarker⟩
    exact ⟨hw.trans hplain.symm, hdata, hlevel, hcount ▸ hmarker⟩

theorem gathers_data {value : Text} :
    Gathers w (.data value :: phrases) w' ↔
      w.data = none ∧ Gathers { w with data := some value } phrases w' := by
  have hcount := @count_marker_cons phrases (.data value) nofun
  constructor
  · rintro ⟨hplain, hdata, hlevel, hmarker⟩
    obtain ⟨hw, hdata⟩ := toList_eq_append_cons.mp hdata
    exact ⟨hw, hplain, hdata, hlevel, hcount ▸ hmarker⟩
  · rintro ⟨hw, hplain, hdata, hlevel, hmarker⟩
    exact ⟨hplain, toList_eq_append_cons.mpr ⟨hw, hdata⟩, hlevel, hcount ▸ hmarker⟩

theorem gathers_logLevel {name : Text} :
    Gathers w (.logLevel name :: phrases) w' ↔
      ∃ level, w.logLevel = none ∧ LogLevel.ofWord? name = some level ∧
        Gathers { w with logLevel := some level } phrases w' := by
  have hcount := @count_marker_cons phrases (.logLevel name) nofun
  constructor
  · rintro ⟨hplain, hdata, ⟨levels, hall, hlevel⟩, hmarker⟩
    cases hall with
    | cons hname hnames =>
      obtain ⟨hw, hlevel⟩ := toList_eq_append_cons.mp hlevel
      exact ⟨_, hw, hname, hplain, hdata, ⟨_, hnames, hlevel⟩, hcount ▸ hmarker⟩
  · rintro ⟨level, hw, hname, hplain, hdata, ⟨levels, hnames, hlevel⟩, hmarker⟩
    refine ⟨hplain, hdata, ⟨level :: levels, .cons hname hnames, ?_⟩, hcount ▸ hmarker⟩
    exact toList_eq_append_cons.mpr ⟨hw, hlevel⟩

theorem gathers_marker :
    Gathers w (.marker :: phrases) w' ↔
      w.marker = false ∧ Gathers { w with marker := true } phrases w' := by
  have hcount : (Phrase.marker :: phrases).count .marker = phrases.count .marker + 1 :=
    List.count_cons_self
  constructor
  · rintro ⟨hplain, hdata, hlevel, hmarker⟩
    rw [hcount] at hmarker
    obtain ⟨hw, hmarker⟩ := toNat_eq_add_succ.mp hmarker
    exact ⟨hw, hplain, hdata, hlevel, hmarker⟩
  · rintro ⟨hw, hplain, hdata, hlevel, hmarker⟩
    refine ⟨hplain, hdata, hlevel, ?_⟩
    rw [hcount]
    exact toNat_eq_add_succ.mpr ⟨hw, hmarker⟩

end Gathers

theorem readOn_spell {phrases : List Phrase} (h : Undashed phrases) {w w' : Words} :
    w.readOn (spell phrases) = some w' ↔ Gathers w phrases w' := by
  induction phrases generalizing w with
  | nil =>
    rw [gathers_nil]
    exact Option.some_inj
  | cons phrase phrases ih =>
    cases phrase with
    | plain word =>
      obtain ⟨hword, hrest⟩ := List.forall_mem_cons.mp h
      rw [gathers_plain, ← ih hrest]
      exact Eq.congr_left (readOn_plain hword)
    | data value =>
      rw [gathers_data, ← ih h]
      exact readOn_data
    | logLevel name =>
      simp only [gathers_logLevel, ← ih h]
      exact readOn_logLevel
    | marker =>
      rw [gathers_marker, ← ih h]
      exact readOn_marker

/-! ### Whole command lines -/

/-- Words that can be read are put together from phrases. -/
theorem exists_spell {words : List Text} {w w' : Words} (h : w.readOn words = some w') :
    ∃ phrases, words = spell phrases ∧ Undashed phrases := by
  induction w, words using readOn.induct with
  | case1 w => exact ⟨[], rfl, nofun⟩
  | case2 w value rest _ ih =>
    obtain ⟨phrases, rfl, hu⟩ := ih (readOn_data.mp h).2
    exact ⟨.data value :: phrases, rfl, hu⟩
  | case3 w rest hno =>
    cases rest with
    | nil => cases (readOn_unvalued (.inl rfl)).symm.trans h
    | cons value rest => exact absurd rfl (hno value rest (readOn_data.mp h).1)
  | case4 w rest hmarker => cases hmarker.symm.trans (readOn_marker.mp h).1
  | case5 w rest _ _ ih =>
    obtain ⟨phrases, rfl, hu⟩ := ih (readOn_marker.mp h).2
    exact ⟨.marker :: phrases, rfl, hu⟩
  | case6 w value rest _ level hlevel _ _ ih =>
    obtain ⟨level', -, hlevel', h⟩ := readOn_logLevel.mp h
    obtain rfl := Option.some.inj (hlevel.symm.trans hlevel')
    obtain ⟨phrases, rfl, hu⟩ := ih h
    exact ⟨.logLevel value :: phrases, rfl, hu⟩
  | case7 w value rest _ hlevel =>
    obtain ⟨level, -, hlevel', -⟩ := readOn_logLevel.mp h
    cases hlevel.symm.trans hlevel'
  | case8 w rest hno =>
    cases rest with
    | nil => cases (readOn_unvalued (.inr rfl)).symm.trans h
    | cons value rest =>
      obtain ⟨level, hnone, -⟩ := readOn_logLevel.mp h
      exact absurd rfl (hno value rest hnone)
  | case9 w word rest hdata hmarker hlevel hdash =>
    cases (readOn_unknown hdata hmarker hlevel hdash).symm.trans h
  | case10 w word rest _ _ _ hdash ih =>
    rw [readOn_plain hdash] at h
    obtain ⟨phrases, rfl, hu⟩ := ih h
    exact ⟨.plain word :: phrases, rfl, List.forall_mem_cons.mpr ⟨hdash, hu⟩⟩

theorem action?_eq_some_iff {w : Words} {a : Action} :
    w.action? = some a ↔
      w.plain = a.words ∧ ∀ marked, a = .writeText marked → w.marker = marked := by
  constructor
  · intro h
    unfold action? at h
    split at h
    · cases h
    · next command operands hplain =>
      rw [hplain]
      split_ifs at h with htext hnone hcsv hnone himport hnormalize hnone hschema hnone
      · cases h
        rw [htext, hnone]
        exact ⟨rfl, fun marked he => Action.writeText.inj he⟩
      · cases h
        rw [hcsv, hnone]
        exact ⟨rfl, nofun⟩
      · split at h
        · cases h
          rw [himport]
          exact ⟨rfl, nofun⟩
        · cases h
      · cases h
        rw [hnormalize, hnone]
        exact ⟨rfl, nofun⟩
      · cases h
        rw [hschema, hnone]
        exact ⟨rfl, nofun⟩
  · rintro ⟨hplain, hmarker⟩
    unfold action?
    rw [hplain]
    cases a with
    | writeText marked =>
      rw [hmarker marked rfl]
      rfl
    | _ => rfl

theorem suits_iff {w : Words} {a : Action}
    (h : ∀ marked, a = .writeText marked → w.marker = marked) :
    w.suits a = true ↔ w.marker = a.isMarked ∧ (a = .schema → w.data = none) := by
  cases a with
  | writeText marked => exact ⟨fun _ => ⟨h marked rfl, nofun⟩, fun _ => rfl⟩
  | schema => simp [suits, Action.isMarked]
  | _ => simp [suits, Action.isMarked]

end Words

/-- Reading ends well if the words were those of an action and of options that suit it. -/
theorem read?_eq_some_iff {words : List Text} {o : Options} :
    Options.read? words = some o ↔
      ({} : Words).readOn words = some ⟨o.action.words, o.data, o.action.isMarked, o.logLevel⟩ ∧
        (o.action = .schema → o.data = none) := by
  unfold Options.read?
  constructor
  · intro h
    split at h
    · cases h
    · next w hread =>
      split at h
      · cases h
      · next action haction =>
        split at h
        · next hsuits =>
          cases h
          obtain ⟨hplain, hmarked⟩ := Words.action?_eq_some_iff.mp haction
          obtain ⟨hmarker, hdata⟩ := (Words.suits_iff hmarked).mp hsuits
          rw [hread, ← hplain, ← hmarker]
          exact ⟨rfl, hdata⟩
        · cases h
  · rintro ⟨hread, hdata⟩
    rw [hread]
    dsimp only
    have hmarked : ∀ marked, o.action = .writeText marked → o.action.isMarked = marked := by
      intro marked he
      rw [he]
      rfl
    rw [Words.action?_eq_some_iff.mpr ⟨rfl, hmarked⟩]
    dsimp only
    rw [if_pos ((Words.suits_iff hmarked).mpr ⟨rfl, hdata⟩)]

/-- What is read from phrases is what they spell. -/
theorem read?_spell {phrases : List Phrase} {o : Options} (h : Undashed phrases) :
    Options.read? (spell phrases) = some o ↔ Spells phrases o := by
  rw [read?_eq_some_iff, Words.readOn_spell h]
  constructor
  · rintro ⟨⟨hplain, hdata, ⟨levels, hnames, hlevel⟩, hmarker⟩, hnone⟩
    exact {
      undashed := h
      plain := hplain.symm
      data := hdata.symm
      noData := hnone
      logLevel := by
        simp only [← LogLevel.ofWord?_eq_some_iff]
        exact hlevel ▸ hnames
      marker := by simpa using hmarker.symm }
  · intro hs
    have hnames := hs.logLevel
    simp only [← LogLevel.ofWord?_eq_some_iff] at hnames
    refine ⟨⟨hs.plain.symm, hs.data.symm, ⟨_, hnames, rfl⟩, ?_⟩, hs.noData⟩
    simpa using hs.marker.symm

/-! ### Phrases in another order -/

section Order

variable {phrases phrases' : List Phrase} {o : Options}

theorem eq_of_perm_of_length_le {α : Type} {l l' : List α} (h : l.Perm l') (hl : l.length ≤ 1) :
    l = l' := by
  match l with
  | [] => exact h.nil_eq
  | [a] => exact h.singleton_eq

theorem Undashed.congr (h : plainWords phrases = plainWords phrases') :
    Undashed phrases ↔ Undashed phrases' := by
  unfold Undashed
  rw [h]

theorem Spells.of_perm (h : Spells phrases o) (hperm : phrases.Perm phrases')
    (hplain : plainWords phrases = plainWords phrases') : Spells phrases' o := by
  have hdata : dataValues phrases = dataValues phrases' := by
    refine eq_of_perm_of_length_le (hperm.filterMap _) ?_
    rw [h.data]
    exact Option.length_toList_le
  have hlevel : levelNames phrases = levelNames phrases' := by
    refine eq_of_perm_of_length_le (hperm.filterMap _) ?_
    rw [h.logLevel.length_eq]
    exact Option.length_toList_le
  exact {
    undashed := (Undashed.congr hplain).mp h.undashed
    plain := hplain ▸ h.plain
    data := hdata ▸ h.data
    noData := h.noData
    logLevel := hlevel ▸ h.logLevel
    marker := (hperm.count_eq _).symm.trans h.marker }

end Order

/-- A command line is read if it is put together from the words of a command, in their order, and
from options that are given at most once, and it is read as this command with these options. Two
that differ only in where their options stand are read alike. -/
theorem read?_spelled :
    (∀ words o, Options.read? words = some o ↔
        ∃ phrases, words = spell phrases ∧ Spells phrases o) ∧
      ∀ phrases phrases', Undashed phrases → phrases.Perm phrases' →
        plainWords phrases = plainWords phrases' →
          Options.read? (spell phrases) = Options.read? (spell phrases') := by
  refine ⟨fun words o => ⟨fun h => ?_, ?_⟩, fun phrases phrases' hu hperm hplain => ?_⟩
  · obtain ⟨phrases, rfl, hu⟩ := Words.exists_spell (read?_eq_some_iff.mp h).1
    exact ⟨phrases, rfl, (read?_spell hu).mp h⟩
  · rintro ⟨phrases, rfl, hs⟩
    exact (read?_spell hs.undashed).mpr hs
  · have hu' : Undashed phrases' := (Undashed.congr hplain).mp hu
    refine Option.ext fun o => ?_
    rw [read?_spell hu, read?_spell hu']
    exact ⟨fun h => h.of_perm hperm hplain, fun h => h.of_perm hperm.symm hplain.symm⟩

/-- An option as the value of another, and options before and between the words. -/
def scattered : List Phrase :=
  [.logLevel "Debug".toList, .plain "import".toList, .data "--marker".toList, .plain "a.mmd".toList]

def gathered : List Phrase :=
  [.plain "import".toList, .plain "a.mmd".toList, .data "--marker".toList, .logLevel "Debug".toList]

theorem read?_spelled_scattered :
    Options.read?
        (["--log-level", "Debug", "import", "--data", "--marker", "a.mmd"].map String.toList) =
      some ⟨.readText "a.mmd".toList, some "--marker".toList, some .debug⟩ ∧
    Options.read?
        (["import", "a.mmd", "--data", "--marker", "--log-level", "Debug"].map String.toList) =
      some ⟨.readText "a.mmd".toList, some "--marker".toList, some .debug⟩ := by
  obtain ⟨hread, horder⟩ := read?_spelled
  have hundashed : Undashed scattered :=
    List.forall_mem_cons.mpr ⟨by decide, List.forall_mem_singleton.mpr (by decide)⟩
  have hspells : Spells scattered
      ⟨.readText "a.mmd".toList, some "--marker".toList, some .debug⟩ :=
    ⟨hundashed, rfl, rfl, nofun, .cons (by decide) .nil, rfl⟩
  have hscattered := (hread _ _).mpr ⟨scattered, rfl, hspells⟩
  have hsame := horder scattered gathered hundashed (by decide) rfl
  exact ⟨hscattered, hsame.symm.trans hscattered⟩

end DiagramDoc.Command
