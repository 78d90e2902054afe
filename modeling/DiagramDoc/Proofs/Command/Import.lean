import DiagramDoc.Proofs.Command.Run
import DiagramDoc.Proofs.Dialect.Counter
import DiagramDoc.Proofs.Document.Links
import DiagramDoc.Proofs.Document.Reloaded
import DiagramDoc.Proofs.Store

/-!
# Importing a text and printing it

What an import saves is loaded again by the next command, but for the numbers, which go through JSON
text. So the text that is printed is the text of what was read, if the numbers that it shows come
back.
-/

namespace DiagramDoc

namespace Diagram

variable {stamp stamp' : Nat} {p : Text} {t u : Tree}

/-- A valid diagram that was saved is loaded with its numbers as its document keeps them. -/
theorem load_save_reloaded {d : Diagram} (hv : d.Valid) (h1 : 1 ≤ d.counter)
    (hc : d.counter ≤ EntityId.largestRead) (hedges : ∀ e ∈ d.flowchart.edges, e.Storable)
    (hmessages : ∀ m ∈ d.sequence.messages, m.Storable)
    (hs : ((Tree.disk stamp).save p d).run t = (.ok (), u)) :
    ((Tree.disk stamp').load p).run u = (.ok d.reloaded, u) := by
  have hlargest : EntityId.largestRead ≤ EntityId.largest := by decide
  have hids : ∀ id ∈ d.entityIds, id ≤ EntityId.largest := by
    intro id hid
    have hb := hv.below id hid
    omega
  have hread := read?_toDocument hids (Nat.le_trans hc hlargest) hedges hmessages
  have hload := Tree.load_of_read stamp' (Tree.read_save hs) hread
  rwa [ofJson_restored_toJson hv h1 hc hedges hmessages] at hload

end Diagram

namespace Command

variable {stamp : Nat} {program : Text} {words : List Text} {o : Options} {t u : Tree}

/-- An import that ends well has read the source into the loaded diagram and saved the outcome. -/
theorem readText_eq_ok {data source text output : Text} {previous : Diagram}
    (hsource : t.read source = .ok text)
    (hload : ((Tree.disk stamp).load data).run t = (.ok previous, t))
    (hrun : (readText (Tree.disk stamp) data source).run t = (.ok output, u)) :
    ∃ d, Diagram.readText text previous = .ok d ∧
      ((Tree.disk stamp).save data d).run t = (.ok (), u) := by
  have hread : ((Tree.disk stamp).read source).run t = (t.read source, t) := rfl
  unfold readText at hrun
  obtain ⟨found, _, hfound, hrun⟩ := run_bind_eq hrun
  cases (hread.trans (by rw [hsource])).symm.trans hfound
  obtain ⟨loaded, _, hloaded, hrun⟩ := run_bind_eq hrun
  cases hload.symm.trans hloaded
  dsimp only at hrun
  cases hd : Diagram.readText text previous with
  | error e =>
    rw [hd] at hrun
    cases hrun
  | ok d =>
    rw [hd] at hrun
    exact ⟨d, rfl, saveSilently_eq_ok hrun⟩

theorem run_text {d : Diagram} (ho : Options.read? words = some o)
    (ha : o.action = .writeText false)
    (hload : ((Tree.disk stamp).load (o.data.getD defaultDataFile)).run t = (.ok d, t)) :
    (run (Tree.disk stamp) program words).run t = (⟨0, d.writeText ++ ['\n'], []⟩, t) := by
  have hexecute : execute (Tree.disk stamp) o =
      withDiagram (Tree.disk stamp) (o.data.getD defaultDataFile) Diagram.writeText := by
    unfold execute
    rw [ha]
    rfl
  exact run_print ho hexecute hload program

section Import

variable {stamp' : Nat} {program' : Text} {words' : List Text} {o' : Options}
  {source text content : Text} {raw : Json} {outcome : Outcome}

/-- After an import that ended well, the text that is printed from the same data file is the text of
what was imported, if the values and scores that it shows come back from the file. -/
theorem run_text_run_import
    (ho : Options.read? words = some o) (ha : o.action = .readText source)
    (ho' : Options.read? words' = some o') (ha' : o'.action = .writeText false)
    (hdata : o'.data.getD defaultDataFile = o.data.getD defaultDataFile)
    (hsource : t.read source = .ok text)
    (hcontent : t.read (o.data.getD defaultDataFile) = .ok content)
    (hraw : Json.read? content = some raw)
    (hcounter : (Diagram.ofJson raw).counter < 0x10000000000000)
    (hlength : text.length < 0x8000000000000)
    (hliterals : ∀ id ∈ Dialect.literals text, id < 0x10000000000000)
    (hrun : (run (Tree.disk stamp) program words).run t = (outcome, u))
    (hcode : outcome.code = 0) :
    ∃ d, Diagram.readText text (Diagram.ofJson raw) = .ok d ∧
      (d.ShownSurvive → (run (Tree.disk stamp') program' words').run u =
        (⟨0, d.writeText ++ ['\n'], []⟩, u)) := by
  have hlargest : EntityId.largest = 0xFFFFFFFFFFFFFFFF := rfl
  have hread : EntityId.largestRead = 0x1FFFFFFFFFFFFF := rfl
  obtain ⟨output, hexecute⟩ := execute_eq_ok ho hrun hcode
  unfold execute at hexecute
  rw [ha] at hexecute
  obtain ⟨d, hd, hsave⟩ :=
    readText_eq_ok hsource (Tree.load_of_read stamp hcontent hraw) hexecute
  obtain ⟨hv, hpos⟩ : (Diagram.ofJson raw).Valid ∧ 1 ≤ (Diagram.ofJson raw).counter :=
    Diagram.valid_ofJson (by omega)
  have hbound := Diagram.counter_readText_le hd hv hpos hliterals (by omega)
  have hc : d.counter ≤ EntityId.largestRead := by omega
  obtain ⟨hvd, hnext⟩ := Diagram.valid_readText hd (by omega)
  have hpos' := (Diagram.ofJson raw).nextId_pos
  obtain ⟨hedges, hmessages⟩ := Diagram.storable_readText hd hv (Diagram.storable_ofJson raw)
    fun _ id hid => by
      have hb := hvd.below id hid
      omega
  refine ⟨d, hd, fun hshown => ?_⟩
  rw [← Diagram.writeText_reloaded hshown]
  refine run_text ho' ha' ?_
  rw [hdata]
  exact Diagram.load_save_reloaded hvd (by omega) hc hedges hmessages hsave

end Import

def deskData : Text := "\x7b\"nextId\": 41, \"nodes\": [7]\x7d".toList

/-- A text and a data file, side by side. -/
def desk (text : Text) : Tree :=
  ⟨[(["s.mmd".toList], .file (.text text)), (["d.json".toList], .file (.text deskData))]⟩

def deskDocument : Json :=
  .object [("nextId".toList, .integer 41), ("nodes".toList, .array [.integer 7])]

def importing : List Text := ["import", "s.mmd", "--data", "d.json"].map String.toList

def printing : List Text := ["--data", "d.json", "text"].map String.toList

/-- What importing a text says, and the desk after it. -/
def imported (text : Text) : Outcome × Tree :=
  (run (Tree.disk 1) [] importing).run (desk text)

theorem run_desk (text : Text) : (run (Tree.disk 1) [] importing).run (desk text) =
    ((imported text).1, (imported text).2) := by rw [Prod.mk.eta, imported]

/-- What printing says after a text was imported. -/
def printed (text : Text) : Outcome × Tree :=
  (run (Tree.disk 2) [] printing).run (imported text).2

theorem read?_importing : Options.read? importing =
    some ⟨.readText "s.mmd".toList, some "d.json".toList, none⟩ := by decide

theorem read?_printing : Options.read? printing =
    some ⟨.writeText false, some "d.json".toList, none⟩ := by decide

theorem read_source (text : Text) : (desk text).read "s.mmd".toList = .ok text := rfl

theorem read_data (text : Text) : (desk text).read "d.json".toList = .ok deskData := rfl

theorem read?_data : Json.read? deskData = some deskDocument := by decide +kernel

def namedNodes : Text := "graph LR\nN7-->|x|N4503599627370495\nstyle N7 fill:red".toList

/-- A value that is not finite, and a zero with a sign. -/
def oddValues : Text := "pie title \\n\nA: 2.5\nb: -0.0\nc: 1e999".toList

/-- A score that is no number, and one that is not whole. -/
def oddScores : Text := "journey\na: x: Me\nb: 2.25".toList

theorem run_text_run_import_desk :
    (∃ d, Diagram.readText namedNodes (Diagram.ofJson deskDocument) = .ok d ∧
      printed namedNodes = (⟨0, d.writeText ++ ['\n'], []⟩, (imported namedNodes).2)) ∧
    (∃ d, Diagram.readText oddValues (Diagram.ofJson deskDocument) = .ok d ∧
      printed oddValues = (⟨0, d.writeText ++ ['\n'], []⟩, (imported oddValues).2)) ∧
    ∃ d, Diagram.readText oddScores (Diagram.ofJson deskDocument) = .ok d ∧
      printed oddScores = (⟨0, d.writeText ++ ['\n'], []⟩, (imported oddScores).2) := by
  have hall : ∀ text ∈ [namedNodes, oddValues, oddScores],
      ∃ d, Diagram.readText text (Diagram.ofJson deskDocument) = .ok d ∧
        printed text = (⟨0, d.writeText ++ ['\n'], []⟩, (imported text).2) := by
    intro text ht
    have hcode : (imported text).1.code = 0 := by
      revert text
      decide +kernel
    have hshown : (Diagram.readText text (Diagram.ofJson deskDocument)).toOption.any
        (fun d => decide d.ShownSurvive) = true := by
      revert text
      decide +kernel
    have hliterals : ∀ id ∈ Dialect.literals text, id < 0x10000000000000 := by
      revert text
      decide +kernel
    have hlength : text.length < 0x8000000000000 := by
      revert text
      decide +kernel
    obtain ⟨d, hd, hprinted⟩ : ∃ d, Diagram.readText text (Diagram.ofJson deskDocument) = .ok d ∧
        (d.ShownSurvive → (run (Tree.disk 2) [] printing).run (imported text).2 =
          (⟨0, d.writeText ++ ['\n'], []⟩, (imported text).2)) :=
      run_text_run_import read?_importing rfl read?_printing rfl rfl (read_source text)
        (read_data text) read?_data (by decide +kernel) hlength hliterals (run_desk text) hcode
    obtain ⟨d', hd', hs⟩ := Diagram.exists_readText hshown
    cases hd.symm.trans hd'
    exact ⟨d, hd, hprinted (of_decide_eq_true hs)⟩
  exact ⟨hall _ (.head _), hall _ (.tail _ (.head _)), hall _ (.tail _ (.tail _ (.head _)))⟩

/-- Whatever was imported well is printed as it was read. -/
def PrintsImported (text : Text) : Prop :=
  ∀ (stamp stamp' : Nat) (program program' : Text) (words words' : List Text) (o o' : Options)
    (source content : Text) (raw : Json) (outcome : Outcome) (t u : Tree),
    Options.read? words = some o → o.action = .readText source →
    Options.read? words' = some o' → o'.action = .writeText false →
    o'.data.getD defaultDataFile = o.data.getD defaultDataFile →
    t.read source = .ok text → t.read (o.data.getD defaultDataFile) = .ok content →
    Json.read? content = some raw → (Diagram.ofJson raw).counter < 0x10000000000000 →
    text.length < 0x8000000000000 → (∀ id ∈ Dialect.literals text, id < 0x10000000000000) →
    (run (Tree.disk stamp) program words).run t = (outcome, u) → outcome.code = 0 →
    ∃ d, Diagram.readText text (Diagram.ofJson raw) = .ok d ∧
      (run (Tree.disk stamp') program' words').run u = (⟨0, d.writeText ++ ['\n'], []⟩, u)

theorem not_printsImported_of {text : Text} (hlength : text.length < 0x8000000000000)
    (hliterals : ∀ id ∈ Dialect.literals text, id < 0x10000000000000)
    (hcode : (imported text).1.code = 0)
    (hdiffers : (Diagram.readText text (Diagram.ofJson deskDocument)).toOption.any
      (fun d => decide ((printed text).1.output ≠ d.writeText ++ ['\n'])) = true) :
    ¬ PrintsImported text := by
  intro h
  obtain ⟨d, hd, hprinted⟩ := h 1 2 [] [] importing printing _ _ _ _ _ _ (desk text) _
    read?_importing rfl read?_printing rfl rfl (read_source text) (read_data text) read?_data
    (by decide +kernel) hlength hliterals (run_desk text) hcode
  obtain ⟨d', hd', hne⟩ := Diagram.exists_readText hdiffers
  cases hd.symm.trans hd'
  refine of_decide_eq_true hne ?_
  unfold printed
  rw [hprinted]

def zeroScore : Text := "journey\na: 0: Me".toList

def longValue : Text := "pie\nA: 94.52706955539223".toList

/-- A score of zero is loaded as the default score, and a long decimal as one of its neighbours. -/
theorem not_printsImported : ¬ PrintsImported zeroScore ∧ ¬ PrintsImported longValue :=
  ⟨not_printsImported_of (by decide) (by decide +kernel) (by decide +kernel) (by decide +kernel),
    not_printsImported_of (by decide) (by decide +kernel) (by decide +kernel) (by decide +kernel)⟩

end Command
end DiagramDoc
