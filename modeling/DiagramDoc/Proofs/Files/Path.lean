import DiagramDoc.Proofs.Files.Tree
import DiagramDoc.Proofs.Number.Digits
import DiagramDoc.Proofs.Text.Trim
import DiagramDoc.Store

/-!
# Folders and temporary names

The folder of a path is where the segments in front of its last name lead, and a temporary name is
one more name in there.
-/

namespace DiagramDoc

namespace Path

variable {p name : Text} {init : List Text}

theorem segments_append_cons (s t : Text) : segments (s ++ '/' :: t) = segments s ++ segments t :=
  Text.splitOn_append_sep '/' s t

theorem segments_of_not_mem (h : '/' ∉ name) : segments name = [name] :=
  Text.splitOn_of_not_mem h

theorem not_mem_of_mem_segments {segment : Text} (h : segment ∈ segments p) : '/' ∉ segment :=
  Text.not_mem_of_mem_splitOn '/' p segment h

theorem segments_child (parent : Text) (h : '/' ∉ name) :
    ∃ init, segments (child parent name) = init ++ [name] := by
  unfold child
  split
  · next hslash =>
    obtain ⟨start, rfl⟩ := List.getLast?_eq_some_iff.mp hslash
    refine ⟨segments start, ?_⟩
    rw [List.append_assoc, List.singleton_append, segments_append_cons, segments_of_not_mem h]
  · exact ⟨segments parent, by rw [segments_append_cons, segments_of_not_mem h]⟩

theorem exists_idle (segments : List Text) :
    ∃ blanks, segments = dropIdleEnd segments ++ blanks ∧ ∀ s ∈ blanks, isIdle s = true :=
  ⟨segments.rtakeWhile isIdle, List.rdropWhile_append_rtakeWhile.symm,
    fun _ => List.mem_rtakeWhile_imp⟩

theorem dropIdleEnd_concat (h : isIdle name = false) (init : List Text) :
    dropIdleEnd (init ++ [name]) = init ++ [name] :=
  List.rdropWhile_concat_neg isIdle init name (by simp [h])

theorem parent?_eq {head : Text} {middle : List Text}
    (hs : segments p = head :: (middle ++ [name])) (hidle : isIdle name = false) :
    parent? p =
      match dropIdleEnd middle with
      | [] => some (if head = [] then ['/'] else head)
      | upper => some (Text.join ['/'] (head :: upper)) := by
  unfold parent?
  rw [hs]
  dsimp only
  rw [dropIdleEnd_concat hidle]
  split
  · next hnil => exact absurd hnil (List.concat_ne_nil _ _)
  · have hlast : (middle ++ [name]).dropLast = middle := List.dropLast_concat
    cases hmiddle : dropIdleEnd middle <;> simp only [hlast, hmiddle]

theorem ancestors_eq (p : Text) : ancestors p = [] ∨ ∃ rest, ancestors p = p :: rest := by
  unfold ancestors ancestorsWithin
  split
  · exact .inl rfl
  · split
    · exact .inl rfl
    · exact .inr ⟨_, rfl⟩

theorem slash_not_mem_fileName (h : fileName? p = some name) : '/' ∉ name := by
  unfold fileName? at h
  cases hs : segments p with
  | nil => exact absurd hs (Text.splitOn_ne_nil _ _)
  | cons head rest =>
    rw [hs] at h
    dsimp only at h
    split at h
    · cases h
    · cases h
      refine not_mem_of_mem_segments (p := p) ?_
      rw [hs]
      obtain ⟨blanks, hrest, -⟩ := exists_idle rest
      cases hlast : (dropIdleEnd rest).getLast? with
      | none => exact List.mem_cons_self
      | some last =>
        refine List.mem_cons_of_mem _ ?_
        rw [hrest]
        exact List.mem_append_left _ (List.mem_of_getLast? hlast)

end Path

namespace Disk

variable {p name : Text} {init : List Text} {t : Tree} {folder : Place}

theorem folderOf_eq {folder : Text} (h : Path.parent? p = some folder) (hne : folder ≠ []) :
    folderOf p = folder := by
  obtain ⟨c, rest, rfl⟩ := List.exists_cons_of_ne_nil hne
  unfold folderOf
  rw [h]

/-- The folder of a path leads where the segments in front of the last name lead. -/
theorem locate_folderOf (hs : Path.segments p = init ++ [name]) (hidle : Path.isIdle name = false)
    (h : t.Leads [] init folder .folder) : t.locate (folderOf p) = .ok (folder, .folder) := by
  refine Tree.locate_eq_ok.mpr ?_
  cases init with
  | nil =>
    -- Only a name: the folder is the one that every path starts in.
    have hname : name ≠ [] := by
      rintro rfl
      cases hidle
    have hparent : Path.parent? p = some [] := by
      unfold Path.parent?
      rw [hs]
      exact if_neg hname
    have hfolder : folderOf p = ['.'] := by
      unfold folderOf
      rw [hparent]
    cases h
    rw [hfolder]
    exact ⟨List.cons_ne_nil _ _, .idle rfl (.here [])⟩
  | cons head middle =>
    have hslash : ∀ segment ∈ head :: middle, '/' ∉ segment := by
      intro segment hm
      refine Path.not_mem_of_mem_segments (p := p) ?_
      rw [hs]
      exact List.mem_append_left _ hm
    obtain ⟨blanks, hmiddle, hblanks⟩ := Path.exists_idle middle
    have hparent := Path.parent?_eq hs hidle
    generalize Path.dropIdleEnd middle = upper at hmiddle hparent
    rw [hmiddle] at h hslash
    have hkept : t.Leads [] (head :: upper) folder .folder := Tree.Leads.of_append_idle hblanks h
    cases upper with
    | nil =>
      dsimp only at hparent
      by_cases hhead : head = []
      · rw [if_pos hhead] at hparent
        rw [folderOf_eq hparent (List.cons_ne_nil _ _)]
        rw [hhead] at hkept
        exact ⟨List.cons_ne_nil _ _, .idle rfl hkept⟩
      · rw [if_neg hhead] at hparent
        rw [folderOf_eq hparent hhead, Path.segments_of_not_mem (hslash head List.mem_cons_self)]
        exact ⟨hhead, hkept⟩
    | cons next upper =>
      have hjoin : Text.join ['/'] (head :: next :: upper) ≠ [] := by
        rw [Text.join_cons_cons]
        simp
      rw [folderOf_eq hparent hjoin]
      refine ⟨hjoin, ?_⟩
      unfold Path.segments
      rwa [Text.splitOn_join fun segment hm => hslash segment (List.mem_append_left _ hm)]

theorem slash_not_mem_temporaryName (stamp : Nat) (h : '/' ∉ name) :
    '/' ∉ temporaryName name stamp := by
  have hdigits : '/' ∉ Digits.ofNat stamp := fun hm => by
    cases Digits.isDigit_of_mem_ofNat hm
  unfold temporaryName
  simp only [List.mem_append, List.mem_cons, not_or]
  exact ⟨⟨by decide, h⟩, by decide, hdigits⟩

theorem temporaryName_idle (name : Text) (stamp : Nat) :
    Path.isIdle (temporaryName name stamp) = false := rfl

theorem temporaryName_dots (name : Text) (stamp : Nat) :
    Path.isDoubleDot (temporaryName name stamp) = false := rfl

end Disk
end DiagramDoc
