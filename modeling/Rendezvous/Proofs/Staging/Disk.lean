import Rendezvous.Proofs.Text.Segments
import Rendezvous.Staging.Disk

/-!
# What steps on a disk leave

A step is described by what is under each path after it: creating and writing change one path,
removing empties all paths in a directory and leaves the others alone.  From this follows what a run
of steps keeps (`takeAll_induction`), and for a workspace that all files written into it stay in it
(`Workspace.Confines`): reading one gives what was written there, and once the workspace is removed at
most the directory above it is left (`paths_remove_subset`).
-/

namespace Rendezvous

open Text

/-! ## Steps -/

namespace Disk

variable {d d' : Disk} {path p directory : String} {e : Entry} {contents : Decoded}

@[simp] theorem at?_empty : empty.at? p = none := rfl

theorem mem_paths : p ∈ d.paths ↔ ∃ e, d.at? p = some e := by
  rw [paths, Table.mem_keys_iff, Option.isSome_iff_exists]
  rfl

theorem file?_eq_some : d.file? p = some contents ↔ d.at? p = some (.file contents) := by
  unfold file?
  split
  · next found hfound => rw [hfound, Option.some.injEq, Option.some.injEq, Entry.file.injEq]
  · next hnone =>
    constructor
    · rintro ⟨⟩
    · exact fun h => absurd h (hnone contents)

/-- Making an entry puts it under its path and under no other. -/
theorem put?_eq_some (h : d.put? path e = some d') :
    isFileName (lastPart path.toList) = true ∧
      ∀ p, d'.at? p = if path = p then some e else d.at? p := by
  unfold put? at h
  split at h
  · next hname =>
    obtain rfl := Option.some.inj h
    exact ⟨hname, fun p => d.entries.get?_insert path p e⟩
  · cases h

theorem at?_of_createDirectory? (h : createDirectory? path d = some d') (p : String) :
    d'.at? p = if path = p then some .directory else d.at? p := by
  unfold createDirectory? at h
  split at h
  · next hthere =>
    obtain rfl := Option.some.inj h
    by_cases hp : path = p
    · rw [if_pos hp, ← hp, hthere]
    · rw [if_neg hp]
  · cases h
  · exact (put?_eq_some h).2 p

theorem at?_of_writeFile? (h : writeFile? path contents d = some d') (p : String) :
    d'.at? p = if path = p then some (.file contents) else d.at? p := by
  unfold writeFile? at h
  split at h
  · cases h
  · exact (put?_eq_some h).2 p

@[simp] theorem at?_removeAll :
    (d.removeAll directory).at? p = if isWithin directory p then none else d.at? p := by
  have hget : (d.removeAll directory).at? p = if !isWithin directory p then d.at? p else none :=
    d.entries.get?_filterKeys (fun path => !isWithin directory path) p
  rw [hget]
  cases isWithin directory p with
  | false => rfl
  | true => rfl

/-- What each step keeps is kept by all of them, also when one of them cannot be taken. -/
theorem takeAll_induction {α : Type} {step : α → Disk → Option Disk} {P : Disk → Prop}
    {as : List α} (hstep : ∀ a ∈ as, ∀ d d', P d → step a d = some d' → P d') (h : P d) :
    P (takeAll step as d).1 := by
  induction as generalizing d with
  | nil => exact h
  | cons a rest ih =>
    rw [takeAll]
    split
    · next d' htaken =>
      have hrest : ∀ b ∈ rest, ∀ d d', P d → step b d = some d' → P d' :=
        fun b hb => hstep b (List.mem_cons_of_mem a hb)
      exact ih hrest (hstep a List.mem_cons_self d d' h htaken)
    · exact h

end Disk

/-! ## Workspaces -/

/-- A path ends with a name when its last part can name a file. -/
theorem endsNamed_of_isFileName {path : String} (h : isFileName (lastPart path.toList) = true) :
    EndsNamed path := by
  unfold lastPart at h
  cases hreverse : path.toList.reverse with
  | nil =>
    rw [hreverse] at h
    exact absurd h (by decide)
  | cons c rest =>
    by_cases hc : c = '/'
    · rw [hreverse, List.takeWhile_cons_of_neg (by simp [hc])] at h
      exact absurd h (by decide)
    · refine ⟨c, ?_, hc⟩
      rw [← List.head?_reverse, hreverse, List.head?_cons]

namespace Workspace

variable {w : Workspace} {base : String} {names more : String → Prop} {d d' : Disk}

/-- What a run may make: the directory of all workspaces, its workspace, and in it files with certain
names. -/
inductive Allows (w : Workspace) (base : String) (names : String → Prop) :
    String → Disk.Entry → Prop
  | outputs : Allows w base names (outputs base) .directory
  | root : Allows w base names w.root .directory
  | file {name : String} {contents : Decoded} (h : names name) :
    Allows w base names (w.file name) (.file contents)

/-- The disk has nothing on it that a run may not make. -/
def Confines (w : Workspace) (base : String) (names : String → Prop) (d : Disk) : Prop :=
  ∀ path e, d.at? path = some e → w.Allows base names path e

theorem Confines.mono (h : w.Confines base names d) (hmore : ∀ name, names name → more name) :
    w.Confines base more d := by
  intro path e he
  cases h path e he with
  | outputs => exact .outputs
  | root => exact .root
  | file hname => exact .file (hmore _ hname)

/-- Making a workspace makes directories only. -/
theorem confines_of_make {made : Bool} (h : w.make base .empty = (d, made)) :
    w.Confines base names d := by
  have hmake : w.Confines base names (w.make base .empty).1 := by
    refine Disk.takeAll_induction (fun directory hdirectory d d' hd hstep path e he => ?_) nofun
    rw [Disk.at?_of_createDirectory? hstep] at he
    split at he
    · next hpath =>
      obtain rfl := Option.some.inj he
      subst hpath
      rcases List.mem_cons.1 hdirectory with rfl | hroot
      · exact .outputs
      · obtain rfl := List.mem_singleton.1 hroot
        exact .root
    · exact hd path e he
  rwa [h] at hmake

/-- A workspace that has been made has a name. -/
theorem endsNamed_of_make (hne : w.root ≠ outputs base) (h : w.make base .empty = (d, true)) :
    EndsNamed w.root := by
  unfold make at h
  rw [Disk.takeAll] at h
  split at h
  · next above habove =>
    rw [Disk.takeAll] at h
    split at h
    · next made hmade =>
      have hfresh : above.at? w.root = none := by
        rw [Disk.at?_of_createDirectory? habove, if_neg hne.symm, Disk.at?_empty]
      rw [Disk.createDirectory?, hfresh] at hmade
      exact endsNamed_of_isFileName (Disk.put?_eq_some hmade).1
    · cases h
  · cases h

/-- A workspace that cannot be made leaves at most the directory above it. -/
theorem paths_make_subset (h : w.make base .empty = (d, false)) : d.paths ⊆ [outputs base] := by
  intro path hpath
  obtain ⟨e, he⟩ := Disk.mem_paths.1 hpath
  unfold make at h
  rw [Disk.takeAll] at h
  split at h
  · next above habove =>
    rw [Disk.takeAll] at h
    split at h
    · cases h
    · obtain rfl := (Prod.mk.inj h).1
      rw [Disk.at?_of_createDirectory? habove] at he
      split at he
      · next heq => exact List.mem_singleton.2 heq.symm
      · cases he
  · obtain rfl := (Prod.mk.inj h).1
    cases he

theorem at?_of_write? {f : String × Decoded} (h : w.write? f d = some d') (p : String) :
    d'.at? p = if w.file f.1 = p then some (.file f.2) else d.at? p := by
  unfold write? at h
  split at h
  · exact Disk.at?_of_writeFile? h p
  · cases h

theorem Confines.write {f : String × Decoded} (hd : w.Confines base names d) (hname : names f.1)
    (h : w.write? f d = some d') : w.Confines base names d' := by
  intro path e he
  rw [at?_of_write? h] at he
  split at he
  · next hpath =>
    obtain rfl := Option.some.inj he
    subst hpath
    exact .file hname
  · exact hd path e he

/-- Staging writes files with the names that it is given. -/
theorem Confines.stage {files : List (String × String)} (hd : w.Confines base names d)
    (hnames : ∀ name ∈ files.map Prod.fst, names name) :
    w.Confines base names (w.stage files d).1 := by
  refine Disk.takeAll_induction (fun f hf d d' hd hstep => hd.write ?_ hstep) hd
  obtain ⟨source, hsource, rfl⟩ := List.mem_map.1 hf
  exact hnames source.1 (List.mem_map_of_mem hsource)

theorem Confines.remove (hd : w.Confines base names d) : w.Confines base names (w.remove d) := by
  intro path e he
  rw [Workspace.remove, Disk.at?_removeAll] at he
  split at he
  · cases he
  · exact hd path e he

section
variable (hends : EndsNamed w.root)
include hends

/-- A file of a workspace is in it under its name. -/
theorem pathIn?_file {name : String} (hname : IsSegment name.toList) :
    Disk.pathIn? w.root (w.file name) = some name := by
  have htext : (w.file name).toList = w.root.toList ++ ['/'] ++ name.toList := by
    rw [file, joinPath_of_isSegment hends hname, String.toList_append, String.toList_append]
    rfl
  rw [Disk.pathIn?, htext]
  simp

theorem file_inj {a b : String} (ha : IsSegment a.toList) (hb : IsSegment b.toList)
    (h : w.file a = w.file b) : a = b := by
  have hname := pathIn?_file hends ha
  rw [h, pathIn?_file hends hb] at hname
  exact (Option.some.inj hname).symm

variable (hd : w.Confines base names d) (hnames : ∀ name, names name → IsSegment name.toList)
include hd hnames

/-- The files in a workspace are those with the names it may have. -/
theorem Confines.mem_filesIn {name : String} (h : name ∈ d.filesIn w.root) : names name := by
  obtain ⟨path, hpath, hname⟩ := List.mem_filterMap.1 (List.mem_mergeSort.1 h)
  obtain ⟨contents, hcontents⟩ := Option.isSome_iff_exists.1 (List.mem_filter.1 hpath).2
  cases hd path _ (Disk.file?_eq_some.1 hcontents) with
  | file hallowed =>
    rw [pathIn?_file hends (hnames _ hallowed)] at hname
    exact Option.some.inj hname ▸ hallowed

/-- A file that has none of the names is not there. -/
theorem Confines.file?_eq_none {name : String} (hsegment : IsSegment name.toList)
    (h : ¬ names name) : d.file? (w.file name) = none := by
  rw [Option.eq_none_iff_forall_ne_some]
  intro contents hcontents
  have hallowed := hd _ _ (Disk.file?_eq_some.1 hcontents)
  generalize hpath : w.file name = path at hallowed
  cases hallowed with
  | file hother =>
    obtain rfl := file_inj hends hsegment (hnames _ hother) hpath
    exact h hother

/-- **Removing a workspace removes all that was made in it.**  At most the directory of all workspaces
is left. -/
theorem Confines.paths_remove_subset : (w.remove d).paths ⊆ [outputs base] := by
  intro path hpath
  obtain ⟨e, he⟩ := Disk.mem_paths.1 hpath
  rw [Workspace.remove, Disk.at?_removeAll] at he
  split at he
  · cases he
  · next hwithin =>
    cases hd path e he with
    | outputs => exact List.mem_singleton_self _
    | root => exact absurd (by simp [Disk.isWithin]) hwithin
    | file hname => exact absurd (by simp [Disk.isWithin, pathIn?_file hends (hnames _ hname)]) hwithin

end

end Workspace

end Rendezvous
