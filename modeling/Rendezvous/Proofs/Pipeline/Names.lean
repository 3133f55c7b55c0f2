import Rendezvous.Proofs.Pipeline.Effects

/-!
# Names that a run generates

Names of a model become classes, files and a directory.  The gates have made sure before that they are
identifiers: so the workspace is one segment below the directory of all workspaces, what is left on
disk are sources of classes and files with fixed names in it, and the toolchain is called with no other
names (`run_usesCheckedNames`).
-/

namespace Rendezvous

open Text

/-- A call of the toolchain names files of a workspace and classes. -/
def Call.IsChecked : Call → Prop
  | compile components harness staged => ∀ f ∈ components ++ harness :: staged, IsWorkspaceFile f
  | simulate className => isClassName className = true

/-! ## Calls -/

namespace Toolchain

variable {t : Toolchain} {config : Config} {w : Workspace} {base : String} {g : Generated}
  {d : Disk}

theorem isChecked_of_mem_run (hg : g.IsChecked) (hstaged : ∀ f ∈ d.filesIn w.root, IsWorkspaceFile f)
    {c : Call} (hc : c ∈ (t.run config w g d).calls) : c.IsChecked := by
  have hcompile : Call.IsChecked (.compile g.components.keys g.harness.file (d.filesIn w.root)) := by
    refine List.forall_mem_append.2 ⟨hg.components, ?_⟩
    exact List.forall_mem_cons.2 ⟨hg.file, hstaged⟩
  have hsimulate : Call.IsChecked (.simulate g.harness.className) := hg.harness
  have hboth : ∀ c ∈ [Call.compile g.components.keys g.harness.file (d.filesIn w.root),
      .simulate g.harness.className], c.IsChecked :=
    List.forall_mem_cons.2 ⟨hcompile, List.forall_mem_cons.2 ⟨hsimulate, nofun⟩⟩
  unfold run at hc
  dsimp only at hc
  split at hc
  · exact List.mem_singleton.1 hc ▸ hcompile
  · split at hc
    · exact hboth c hc
    · exact hboth c hc

/-- The toolchain is called with checked names: what has been staged are files of the workspace. -/
theorem isChecked_of_mem_calls (hg : g.IsStageable) (hends : EndsNamed w.root)
    (hd : w.Confines base (· ∈ g.files.map Prod.fst) d) {c : Call}
    (hc : c ∈ (t.stageAndRun config w g d).calls) : c.IsChecked := by
  have hstaged := (hd.stage fun name hname => hname).mono hg.checked.files
  unfold stageAndRun at hc
  split at hc
  · next staged hstage =>
    rw [hstage] at hstaged
    exact isChecked_of_mem_run hg.checked
      (fun _ => hstaged.mem_filesIn hends fun _ hname => hname.isSegment) hc
  · cases hc

end Toolchain

/-! ## Workspaces -/

/-- The digits of tags. -/
def hexDigits : List Char :=
  ['0', '1', '2', '3', '4', '5', '6', '7', '8', '9', 'a', 'b', 'c', 'd', 'e', 'f']

/-- A universally unique identifier: five groups of hexadecimal digits, joined by hyphens. -/
def Workspace.IsTag (tag : String) : Prop :=
  ∃ groups : List (List Char), groups.map List.length = [8, 4, 4, 4, 12] ∧
    (∀ g ∈ groups, ∀ c ∈ g, c ∈ hexDigits) ∧ tag.toList = List.intercalate ['-'] groups

theorem mem_intercalate_singleton {groups : List (List Char)} {separator c : Char}
    (h : c ∈ List.intercalate [separator] groups) : c = separator ∨ ∃ g ∈ groups, c ∈ g := by
  induction groups with
  | nil => cases h
  | cons g rest ih =>
    cases rest with
    | nil => exact Or.inr ⟨g, List.mem_cons_self, by simpa [List.intercalate] using h⟩
    | cons g' rest =>
      have hcons : List.intercalate [separator] (g :: g' :: rest)
          = g ++ separator :: List.intercalate [separator] (g' :: rest) := by
        simp [List.intercalate]
      rw [hcons, List.mem_append, List.mem_cons] at h
      rcases h with h | rfl | h
      · exact Or.inr ⟨g, List.mem_cons_self, h⟩
      · exact Or.inl rfl
      · rcases ih h with rfl | ⟨k, hk, hc⟩
        · exact Or.inl rfl
        · exact Or.inr ⟨k, List.mem_cons_of_mem g hk, hc⟩

theorem Workspace.IsTag.isPlain {tag : String} (h : IsTag tag) : IsPlain tag.toList := by
  obtain ⟨groups, -, hdigits, htag⟩ := h
  have hplain : ('-' :: hexDigits).all (fun d => !delimiters.contains d && !isBlank d) = true := by
    decide
  intro c hc
  rw [htag] at hc
  have hmem : c ∈ '-' :: hexDigits := by
    rcases mem_intercalate_singleton hc with rfl | ⟨g, hg, hcg⟩
    · exact List.mem_cons_self
    · exact List.mem_cons_of_mem _ (hdigits g hg c hcg)
  simpa using List.all_eq_true.1 hplain c hmem

/-- The path is one segment below a directory. -/
structure IsBelow (directory path name : String) : Prop where
  path_eq : path = directory ++ "/" ++ name
  segment : IsSegment name.toList
  parts_eq : pathParts path.toList = pathParts directory.toList ++ [name.toList]

theorem isBelow_joinPath {left name : String} (hleft : EndsNamed left)
    (h : IsSegment name.toList) : IsBelow left (joinPath left name) name :=
  ⟨joinPath_of_isSegment hleft h, h, pathParts_joinPath hleft h⟩

namespace Workspace

theorem endsNamed_outputs (base : String) : EndsNamed (outputs base) :=
  endsNamed_joinPath (isSegment_of_mem (c := 'p') (by decide) (by decide) (by decide))

/-- A workspace is named after the harness class and its tag. -/
theorem create_eq {tag : String} (htag : IsTag tag) (base name : String) :
    create base name tag = ⟨joinPath (outputs base) (Harness.classNameOf name ++ tag)⟩ := by
  -- blanks are taken out of name and tag together, but the tag has none
  have hstrip : String.ofList (stripBlanks (name ++ tag).toList)
      = Harness.classNameOf name ++ tag := by
    rw [String.toList_append, stripBlanks, List.filter_append, ← stripBlanks, ← stripBlanks,
      stripBlanks_of_isPlain htag.isPlain, String.ofList_append, String.ofList_toList]
    rfl
  rw [create, hstrip]

theorem root_create_eq {tag : String} (htag : IsTag tag) (base name : String) :
    (create base name tag).root = joinPath (outputs base) (Harness.classNameOf name ++ tag) := by
  rw [create_eq htag]

/-- A class name and a tag are one segment. -/
theorem isSegment_append {className tag : String} (hclass : isClassName className = true)
    (htag : IsTag tag) : IsSegment (className ++ tag).toList := by
  have hplain := isPlain_of_isClassName hclass
  rw [String.toList_append]
  cases hname : className.toList with
  | nil =>
    rw [isClassName, hname] at hclass
    cases hclass
  | cons c rest =>
    rw [hname] at hplain
    refine isSegment_of_mem (c := c) ?_ (by simp) ?_
    · exact List.not_mem_append hplain.slash_not_mem htag.isPlain.slash_not_mem
    · rintro rfl
      exact (hplain '.' List.mem_cons_self).1 (by decide)

variable {base name tag : String} (hclass : isClassName (Harness.classNameOf name) = true)
  (htag : IsTag tag)
include hclass htag

/-- A workspace is one segment below the directory of all workspaces. -/
theorem isBelow_root :
    IsBelow (outputs base) (create base name tag).root (Harness.classNameOf name ++ tag) := by
  rw [root_create_eq htag]
  exact isBelow_joinPath (endsNamed_outputs base) (isSegment_append hclass htag)

/-- The files of a workspace are one segment below it. -/
theorem isBelow_file {file : String} (hfile : IsWorkspaceFile file) :
    IsBelow (create base name tag).root ((create base name tag).file file) file := by
  refine isBelow_joinPath ?_ hfile.isSegment
  rw [root_create_eq htag]
  exact endsNamed_joinPath (isSegment_append hclass htag)

end Workspace

/-! ## Runs -/

namespace Pipeline

variable {p : Pipeline} {s : Store} {architecture : Path} {tag : String} {m : CheckedModel}

/-- The toolchain is called with checked names, and nothing is left but the directory of all
workspaces, the workspace and files of it. -/
structure StaysBelow (directory : String) (w : Workspace) (o : Outcome) : Prop where
  calls : ∀ c ∈ o.calls, c.IsChecked
  left : ∀ path ∈ o.left,
    path = directory ∨ path = w.root ∨ ∃ f, IsWorkspaceFile f ∧ IsBelow w.root path f

theorem staysBelow_ended {directory : String} {w : Workspace}
    {result : Except PipelineError Bundle} : StaysBelow directory w (ended s result) where
  calls _ hc := absurd hc List.not_mem_nil
  left _ hpath := absurd hpath List.not_mem_nil

/-- What is left of a confined disk lies below the directory of all workspaces. -/
theorem mem_paths_cleanUp {w : Workspace} {d : Disk} (hd : w.Confines p.base IsWorkspaceFile d)
    {path : String} (h : path ∈ (p.cleanUp w d).paths) :
    path = Workspace.outputs p.base ∨ path = w.root ∨ ∃ f, IsWorkspaceFile f ∧ path = w.file f := by
  have hleft : w.Confines p.base IsWorkspaceFile (p.cleanUp w d) := by
    unfold cleanUp
    split
    · exact hd
    · exact hd.remove
  obtain ⟨e, he⟩ := Disk.mem_paths.1 h
  cases hleft path e he with
  | outputs => exact .inl rfl
  | root => exact .inr (.inl rfl)
  | file hname => exact .inr (.inr ⟨_, hname, rfl⟩)

theorem Ends.staysBelow {w : Workspace} {g : Generated} {t : Toolchain} {o : Outcome}
    (h : p.Ends s architecture w g t o) (hg : g.IsStageable)
    (hne : w.root ≠ Workspace.outputs p.base)
    (hfile : ∀ f, IsWorkspaceFile f → IsBelow w.root (w.file f) f) :
    StaysBelow (Workspace.outputs p.base) w o := by
  refine ⟨fun c hc => ?_, fun path hpath => ?_⟩
  · rcases h.calls_eq with hnone | ⟨d, hmake, hcalls⟩
    · exact absurd (hnone ▸ hc) List.not_mem_nil
    · exact Toolchain.isChecked_of_mem_calls hg (Workspace.endsNamed_of_make hne hmake)
        (Workspace.confines_of_make hmake) (hcalls ▸ hc)
  · rcases h.left_eq with ⟨d, hmake, hleft⟩ | ⟨d, hmake, hleft⟩
    · exact .inl (List.mem_singleton.1 (Workspace.paths_make_subset hmake (hleft ▸ hpath)))
    · have hconfines : w.Confines p.base IsWorkspaceFile (t.stageAndRun p.config w g d).disk :=
        Toolchain.confines_stageAndRun hg (Workspace.confines_of_make hmake)
      rcases mem_paths_cleanUp hconfines (hleft ▸ hpath) with hpath | hpath | ⟨f, hf, rfl⟩
      · exact .inl hpath
      · exact .inr (.inl hpath)
      · exact .inr (.inr ⟨f, hf, hfile f hf⟩)

/-- The names in a run of an accepted model are checked names, and lead nowhere but into its
workspace. -/
structure UsesCheckedNames (p : Pipeline) (s : Store) (architecture : Path) (tag : String)
    (m : CheckedModel) (o : Outcome) : Prop where
  /-- The harness is the class that the name of the architecture gives. -/
  harness_eq : (p.generated s architecture tag m).harness.className =
    Harness.classNameOf (s.nameOf architecture)
  components : ∀ t ∈ m.componentTypes, isClassName (s.nameOf t) = true
  generated : (p.generated s architecture tag m).IsChecked
  files : ∀ f ∈ (p.generated s architecture tag m).files.map Prod.fst, IsWorkspaceFile f
  root : IsBelow (Workspace.outputs p.base)
    (Workspace.create p.base (s.nameOf architecture) tag).root
    (Harness.classNameOf (s.nameOf architecture) ++ tag)
  outcome : StaysBelow (Workspace.outputs p.base)
    (Workspace.create p.base (s.nameOf architecture) tag) o

/-- What comes out of a run of an accepted model. -/
theorem usesCheckedNames_of_accept (htag : Workspace.IsTag tag)
    (h : p.accept s architecture = .ok m) :
    UsesCheckedNames p s architecture tag m (p.run s architecture tag) := by
  have hgenerated : (p.generated s architecture tag m).IsChecked := isChecked_generated h
  obtain ⟨-, hcheck, hname⟩ := accept_eq_ok_iff.1 h
  have hclass := checkArchitectureName_violations_eq_nil_iff.1 hname
  have hacc : Accepted s p.config m := check_eq_ok_iff.1 hcheck
  refine ⟨rfl, fun t ht => ?_, hgenerated, hgenerated.files,
    Workspace.isBelow_root hclass htag, ?_⟩
  · rw [hacc.componentTypes_eq] at ht
    exact hacc.isClassName_of_mem ht
  · unfold run
    rw [h]
    dsimp only
    cases p.toolchain with
    | none => exact staysBelow_ended
    | some t =>
      exact (p.ends_simulate s architecture _ _ t).staysBelow (isStageable_generated h)
        (root_create_ne h) fun _ => Workspace.isBelow_file hclass htag

/-- **Generated names are checked names and stay inside the workspace.**  The words of a name put
together are the name without its blanks: the harness class, and with the tag the name of the
workspace.  The gates let only class names through, which have no delimiters and no blanks, and a
model that does not pass them leads to no name at all; so the files of a run are sources of classes
or have fixed names, and the workspace is one segment below the directory of all workspaces. -/
theorem run_usesCheckedNames (p : Pipeline) (s : Store) (architecture : Path)
    (htag : Workspace.IsTag tag) :
    (∀ name : String, String.ofList (words name.toList).flatten = Harness.classNameOf name ∧
        ∀ base, Workspace.create base name tag =
          ⟨joinPath (Workspace.outputs base) (Harness.classNameOf name ++ tag)⟩) ∧
      ((checkArchitectureName s architecture).violations = [] ↔
        isClassName (Harness.classNameOf (s.nameOf architecture)) = true) ∧
      (∀ className, isClassName className = true → IsPlain className.toList) ∧
      (∀ e, p.accept s architecture = .error e →
        p.run s architecture tag = ended s (.error e)) ∧
      ∀ m, p.accept s architecture = .ok m →
        UsesCheckedNames p s architecture tag m (p.run s architecture tag) := by
  refine ⟨fun name => ⟨?_, fun base => Workspace.create_eq htag base name⟩,
    checkArchitectureName_violations_eq_nil_iff, fun _ => isPlain_of_isClassName, fun e he => ?_,
    fun m hm => usesCheckedNames_of_accept htag hm⟩
  · rw [flatten_words, Harness.classNameOf]
  · rw [run, he]

/-- A run of the architecture `A 1` that keeps its workspace. -/
theorem run_usesCheckedNames_spacedName :
    let p : Pipeline := { ofConfig .empty with
      base := "out/", toolchain := some ⟨none, none, none⟩, keepWorkspace := true }
    let tag := "123e4567-e89b-42d3-a456-426614174000"
    p.accept spacedName "/m" = .ok (checkedModel spacedName .empty) ∧
      (Workspace.create p.base (spacedName.nameOf "/m") tag).root =
        "out/projectOutputs/A1123e4567-e89b-42d3-a456-426614174000" ∧
      UsesCheckedNames p spacedName "/m" tag (checkedModel spacedName .empty)
        (p.run spacedName "/m" tag) := by
  intro p tag
  have haccept : p.accept spacedName "/m" = .ok (checkedModel spacedName .empty) :=
    accept_spacedName
  let groups := ["123e4567", "e89b", "42d3", "a456", "426614174000"].map String.toList
  have hdigits : groups.all (fun g => g.all hexDigits.contains) = true := by decide +kernel
  have htag : Workspace.IsTag tag := by
    refine ⟨groups, by decide, fun g hg c hc => ?_, by decide⟩
    exact List.contains_iff_mem.1 (List.all_eq_true.1 (List.all_eq_true.1 hdigits g hg) c hc)
  exact ⟨haccept, by decide +kernel, (run_usesCheckedNames p spacedName "/m" htag).2.2.2.2 _ haccept⟩

end Pipeline

end Rendezvous
