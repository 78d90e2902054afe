import DiagramDoc.Proofs.Command.Harmless

/-!
# Normalizing twice

Whatever the data path led to, what normalizing leaves there is a fixed point of normalizing. A
document that could be read is printed after it as before.
-/

namespace DiagramDoc

theorem Diagram.reread_starter : Json.read? starter.toDocument = some starter.toJson ∧
    ofJson starter.toJson = starter := by decide +kernel

namespace Command

def Action.Prints (action : Action) : Prop :=
  action = .writeTable ∨ ∃ marked, action = .writeText marked

/-- Every command that prints the document at a path says the same in both trees, with no error, and
leaves them as they are. -/
def PrintsAlike (data : Text) (t u : Tree) : Prop :=
  ∀ (stamp : Nat) (program : Text) (words : List Text) (o : Options),
    Options.read? words = some o → o.action.Prints → o.data.getD defaultDataFile = data →
      ∃ output, (run (Tree.disk stamp) program words).run t = (⟨0, output, []⟩, t) ∧
        (run (Tree.disk stamp) program words).run u = (⟨0, output, []⟩, u)

theorem Action.Prints.exists_use {o : Options} (h : o.action.Prints) :
    ∃ use : Diagram → Text, ∀ {m : Type → Type} [Monad m] (disk : Disk m),
      execute disk o = withDiagram disk (o.data.getD defaultDataFile) use := by
  rcases h with ha | ⟨marked, ha⟩
  · exact ⟨Diagram.writeTable, fun disk => by unfold execute; rw [ha]⟩
  · exact ⟨_, fun disk => by unfold execute; rw [ha]⟩

theorem printsAlike_of_load {data : Text} {t u : Tree} {d : Diagram}
    (ht : ∀ stamp, ((Tree.disk stamp).load data).run t = (.ok d, t))
    (hu : ∀ stamp, ((Tree.disk stamp).load data).run u = (.ok d, u)) : PrintsAlike data t u := by
  intro stamp program words o ho haction hdata
  obtain ⟨use, huse⟩ := haction.exists_use
  have hexecute := huse (Tree.disk stamp)
  rw [hdata] at hexecute
  exact ⟨_, run_print ho hexecute (ht stamp) program, run_print ho hexecute (hu stamp) program⟩

variable {σ : Type} {disk : Disk (StateM σ)} {tree : σ → Tree} {s s' : σ} {program data : Text}
  {words : List Text} {o : Options} {outcome : Outcome}

theorem exists_normalize (ho : Options.read? words = some o) (ha : o.action = .normalize)
    (hdata : o.data.getD defaultDataFile = data)
    (hrun : (run disk program words).run s = (outcome, s')) :
    (∃ output, outcome = ⟨0, output, []⟩ ∧ (normalize disk data).run s = (.ok output, s')) ∨
      ∃ e, outcome = ⟨1, [], "mermaid-magic: ".toList ++ RunError.message e⟩ ∧
        (normalize disk data).run s = (.error e, s') := by
  have hexecute : execute disk o = normalize disk data := by
    unfold execute
    rw [ha, ← hdata]
  rw [← hexecute]
  exact exists_execute ho hrun

section Normalized

variable {output : Text} (hdisk : disk.Faithful tree)
  (hjson : ∀ content raw, (tree s).read data = .ok content → Json.read? content = some raw →
    Json.read? (Diagram.ofJson raw).toDocument = some (Diagram.ofJson raw).toJson)
  (hrun : (normalize disk data).run s = (.ok output, s'))
include hdisk hjson hrun

/-- What is left by normalizing is the document of a diagram that is loaded from it again. -/
theorem exists_document_normalize : ∃ d : Diagram, (tree s').read data = .ok d.toDocument ∧
    Json.read? d.toDocument = some d.toJson ∧ Diagram.ofJson d.toJson = d := by
  unfold normalize at hrun
  obtain ⟨loaded, s₁, hload, hrun⟩ := run_bind_eq hrun
  cases loaded with
  | error e => cases hrun
  | ok d =>
    refine ⟨d, hdisk.read_save (saveSilently_eq_ok hrun), ?_⟩
    rcases hdisk.load_eq_ok hload with ⟨content, raw, hread, hraw, rfl⟩ | rfl
    · exact ⟨hjson content raw hread hraw, Diagram.reread_ofJson raw⟩
    · exact Diagram.reread_starter

theorem printsAlike_normalize {content : Text} {raw : Json}
    (hread : (tree s).read data = .ok content) (hraw : Json.read? content = some raw) :
    PrintsAlike data (tree s) (tree s') := by
  have hends := ends_normalize hdisk hread hraw hrun
  generalize tree s' = u at hends ⊢
  cases hends with
  | well _ hstores =>
    exact printsAlike_of_load (fun stamp => Tree.load_of_read stamp hread hraw)
      (hstores.loads (hjson content raw hread hraw))

end Normalized

/-- Normalizing the document of a diagram that is loaded from it changes no file. -/
theorem at?_normalize {d : Diagram} {result : Except RunError Text} (hdisk : disk.Faithful tree)
    (hread : (tree s).read data = .ok d.toDocument)
    (hj : Json.read? d.toDocument = some d.toJson) (hd : Diagram.ofJson d.toJson = d)
    (hrun : (normalize disk data).run s = (result, s')) :
    (tree s').read data = .ok d.toDocument ∧
      ∀ place, (tree s').at? place = (tree s).at? place := by
  have hends := ends_normalize hdisk hread hj hrun
  rw [hd] at hends
  generalize tree s' = u at hends ⊢
  cases hends with
  | failed _ => exact ⟨hread, fun _ => rfl⟩
  | well _ hstores => exact ⟨hstores.rewrites.read_eq, hstores.rewrites.at?_eq hread⟩

/-- Whatever the data path led to: once normalizing has ended well, doing it again changes no file,
and if there was a document to be read, it is printed as before. -/
theorem run_normalize_twice {words' : List Text} {o' : Options}
    (hdisk : disk.Faithful tree)
    (ho : Options.read? words = some o) (ha : o.action = .normalize)
    (hdata : o.data.getD defaultDataFile = data)
    (ho' : Options.read? words' = some o') (ha' : o'.action = .normalize)
    (hdata' : o'.data.getD defaultDataFile = data)
    (hjson : ∀ content raw, (tree s).read data = .ok content → Json.read? content = some raw →
      Json.read? (Diagram.ofJson raw).toDocument = some (Diagram.ofJson raw).toJson)
    (hrun : (run disk program words).run s = (outcome, s')) (hcode : outcome.code = 0) :
    (∃ content, (tree s').read data = .ok content ∧
      ∀ program' again s'', (run disk program' words').run s' = (again, s'') →
        (tree s'').read data = .ok content ∧
          ∀ place, (tree s'').at? place = (tree s').at? place) ∧
    ∀ content raw, (tree s).read data = .ok content → Json.read? content = some raw →
      PrintsAlike data (tree s) (tree s') := by
  rcases exists_normalize ho ha hdata hrun with ⟨output, -, hfirst⟩ | ⟨e, rfl, -⟩
  · refine ⟨?_, fun content raw => printsAlike_normalize hdisk hjson hfirst⟩
    obtain ⟨d, hread, hj, hd⟩ := exists_document_normalize hdisk hjson hfirst
    refine ⟨d.toDocument, hread, fun program' again s'' hagain => ?_⟩
    rcases exists_normalize ho' ha' hdata' hagain with ⟨_, -, hsecond⟩ | ⟨_, -, hsecond⟩ <;>
      exact at?_normalize hdisk hread hj hd hsecond
  · cases hcode

/-- A folder whose file of a document breaks off. -/
def spoiled : Tree :=
  ⟨[(["docs".toList], .folder), (["docs".toList, "d.json".toList], .file (.text ['\x7b']))]⟩

def tidyingAgain : List Text :=
  ["normalize", "--log-level", "off", "--data", "docs//./d.json"].map String.toList

def tidied (t : Tree) : Tree := ((run (Tree.disk 1) [] tidying).run t).2

theorem run_normalize_twice_cupboard :
    (∀ t ∈ [⟨[]⟩, spoiled, cupboard], ∃ content,
      (tidied t).read "docs//./d.json".toList = .ok content ∧
        ((run (Tree.disk 1) [] tidyingAgain).run (tidied t)).2.read "docs//./d.json".toList =
          .ok content) ∧
      PrintsAlike "docs//./d.json".toList cupboard (tidied cupboard) := by
  have hcomputed : (∀ t ∈ [⟨[]⟩, spoiled, cupboard],
        ((run (Tree.disk 1) [] tidying).run t).1.code = 0) ∧
      Json.read? ['\x7b'] = none ∧ Json.read? untidyText = some untidyDocument ∧
      Json.read? (Diagram.ofJson untidyDocument).toDocument =
        some (Diagram.ofJson untidyDocument).toJson := by decide +kernel
  obtain ⟨hcode, hbroken, hraw, hjson⟩ := hcomputed
  have hread : cupboard.read "docs//./d.json".toList = .ok untidyText := rfl
  have hgiven : ∀ t ∈ [⟨[]⟩, spoiled, cupboard], ∀ content raw,
      t.read "docs//./d.json".toList = .ok content → Json.read? content = some raw →
        Json.read? (Diagram.ofJson raw).toDocument = some (Diagram.ofJson raw).toJson := by
    refine List.forall_mem_cons.mpr ⟨?_, List.forall_mem_cons.mpr ⟨?_, ?_⟩⟩
    · intro content raw h
      cases h
    · intro content raw h hc
      cases h
      cases hbroken.symm.trans hc
    · refine List.forall_mem_singleton.mpr fun content raw h hc => ?_
      cases hread.symm.trans h
      cases hraw.symm.trans hc
      exact hjson
  have hread? : Options.read? tidying =
      some ⟨.normalize, some "docs//./d.json".toList, none⟩ := rfl
  have hagain? : Options.read? tidyingAgain =
      some ⟨.normalize, some "docs//./d.json".toList, some .off⟩ := rfl
  have htwice := fun t ht => run_normalize_twice (Tree.faithful_disk 1)
    hread? rfl rfl hagain? rfl rfl (hgiven t ht) (run_pair (Tree.disk 1) tidying t) (hcode t ht)
  refine ⟨fun t ht => ?_, ?_⟩
  · obtain ⟨content, hfirst, hagain⟩ := (htwice t ht).1
    exact ⟨content, hfirst, (hagain _ _ _ (run_pair (Tree.disk 1) tidyingAgain (tidied t))).1⟩
  · exact (htwice cupboard (.tail _ (.tail _ (.head _)))).2 _ _ hread hraw

end Command
end DiagramDoc
