import Rendezvous.Proofs.Harness.Sources
import Rendezvous.Proofs.Pipeline.Files
import Rendezvous.Proofs.Staging.Disk

/-!
# Checked names

Before a name of a model becomes a class, a file or a directory, the gates have made sure that it is an
identifier, which has no blanks and nothing that separates or quotes.  The check of an architecture's
name puts its words together and the harness takes the blanks out of it; both give the same class
(`checkArchitectureName_violations_eq_nil_iff`).  So the generated files are sources of classes or the
glue, each one segment of a path and none of them the trace, and the workspace is not the directory
that holds all workspaces (`root_create_ne`).
-/

namespace Rendezvous

open Text

/-! ## Files of a workspace -/

/-- The names of files of a workspace: sources of classes and the fixed names. -/
inductive IsWorkspaceFile : String → Prop
  | source {className : String} (h : isClassName className = true) :
    IsWorkspaceFile (Component.sourceFile className)
  | glue : IsWorkspaceFile Harness.glueFile
  | trace : IsWorkspaceFile Harness.traceFile

theorem isPlain_of_isClassName {name : String} (h : isClassName name = true) :
    IsPlain name.toList :=
  isPlain_of_isIdentifier h

theorem IsWorkspaceFile.isSegment {file : String} (h : IsWorkspaceFile file) :
    IsSegment file.toList := by
  cases h with
  | @source className hclass =>
    have hslash : '/' ∉ className.toList := (isPlain_of_isClassName hclass).slash_not_mem
    refine isSegment_of_mem (c := 'a') ?_ ?_ (by decide)
    · simp [Component.sourceFile, hslash]
    · simp [Component.sourceFile]
  | glue =>
    refine isSegment_of_mem (c := 'G') ?_ ?_ (by decide)
    · simp [Harness.glueFile]
    · simp [Harness.glueFile]
  | trace =>
    refine isSegment_of_mem (c := 'e') ?_ ?_ (by decide)
    · simp [Harness.traceFile]
    · simp [Harness.traceFile]

/-! ## Generated files -/

/-- The classes of generated files have names that can name classes, and so have their files. -/
structure Generated.IsChecked (g : Generated) : Prop where
  harness : isClassName g.harness.className = true
  instances : ∀ name ∈ g.harness.instances.map Prod.fst, isClassName name = true
  components : ∀ f ∈ g.components.keys, IsWorkspaceFile f

namespace Generated.IsChecked

variable {g : Generated} (h : g.IsChecked)
include h

theorem file : IsWorkspaceFile g.harness.file :=
  .source h.harness

theorem files : ∀ f ∈ g.files.map Prod.fst, IsWorkspaceFile f := by
  intro f hf
  rw [Generated.files, List.map_append, List.mem_append] at hf
  rcases hf with hf | hf
  · exact h.components f hf
  · rcases List.mem_cons.1 hf with rfl | hf
    · exact .glue
    · obtain rfl := List.mem_singleton.1 hf
      exact h.file

end Generated.IsChecked

/-- Generated files that can be staged without harm: their names are checked, and none of them is that of
the trace. -/
structure Generated.IsStageable (g : Generated) : Prop where
  checked : g.IsChecked
  untraced : Harness.traceFile ∉ g.files.map Prod.fst

/-! ## Accepted models -/

namespace Pipeline

variable {p : Pipeline} {s : Store} {architecture : Path} {tag : String} {m : CheckedModel}

/-- The name of an architecture passes when it can name a class once its blanks are gone: putting its
words together removes its blanks. -/
theorem checkArchitectureName_violations_eq_nil_iff :
    (checkArchitectureName s architecture).violations = [] ↔
      isClassName (Harness.classNameOf (s.nameOf architecture)) = true := by
  have hdecides : Report.Decides (_ = false) (.empty .behavior)
    (checkArchitectureName s architecture) := Behavior.decides_addIf _ _
  rw [hdecides.extends_report.violations_eq_nil_iff, hdecides.eq_iff, Bool.not_eq_false',
    flatten_words, isClassName, Harness.classNameOf, String.toList_ofList]

/-- What is generated for an accepted model has checked names. -/
theorem isChecked_generated (h : p.accept s architecture = .ok m) :
    (p.generated s architecture tag m).IsChecked := by
  obtain ⟨-, hcheck, hname⟩ := accept_eq_ok_iff.1 h
  have hacc : Accepted s p.config m := check_eq_ok_iff.1 hcheck
  have hmatches := hacc.matchesSources architecture
    (Workspace.create p.base (s.nameOf architecture) tag).root
  refine ⟨checkArchitectureName_violations_eq_nil_iff.1 hname, hmatches.classNames, fun f hf => ?_⟩
  have hf' : f ∈ (s.componentSources m.componentTypes).keys := hf
  rw [hmatches.files] at hf'
  obtain ⟨className, hclass, rfl⟩ := List.mem_map.1 hf'
  exact .source (hmatches.classNames className hclass)

/-- What is generated for an accepted model can be staged. -/
theorem isStageable_generated (h : p.accept s architecture = .ok m) :
    (p.generated s architecture tag m).IsStageable := by
  have hacc : Accepted s p.config m := check_eq_ok_iff.1 (accept_eq_ok_iff.1 h).2.1
  have hmatches := hacc.matchesSources architecture
    (Workspace.create p.base (s.nameOf architecture) tag).root
  exact ⟨isChecked_generated h, Generated.traceFile_not_mem_files hmatches.files⟩

/-- The name of an accepted architecture begins an identifier once its blanks are gone. -/
theorem exists_beginsIdentifier_of_accept (h : p.accept s architecture = .ok m) :
    ∃ c rest, stripBlanks (s.nameOf architecture).toList = c :: rest ∧
      beginsIdentifier c = true := by
  have hvalid := checkArchitectureName_violations_eq_nil_iff.1 (accept_eq_ok_iff.1 h).2.2
  rw [isClassName, Harness.classNameOf, String.toList_ofList] at hvalid
  cases hname : stripBlanks (s.nameOf architecture).toList with
  | nil =>
    rw [hname] at hvalid
    cases hvalid
  | cons c rest =>
    rw [hname, isIdentifier, Bool.and_eq_true] at hvalid
    exact ⟨c, rest, rfl, hvalid.1⟩

/-- A relative path that is not empty leads away from the path before it. -/
theorem joinPath_ne_left {left right : String} {c : Char} {rest : List Char}
    (hright : right.toList = c :: rest) (hc : c ≠ '/') : joinPath left right ≠ left := by
  intro heq
  have hlength := congrArg (·.toList.length) heq
  have hrelative : isAbsolute right = false := by simp [isAbsolute, hright, hc]
  unfold joinPath at hlength
  rw [hrelative] at hlength
  split at hlength
  · contradiction
  · split at hlength <;> simp [hright] at hlength

/-- A workspace is not the directory that holds all workspaces. -/
theorem root_create_ne (h : p.accept s architecture = .ok m) :
    (Workspace.create p.base (s.nameOf architecture) tag).root ≠ Workspace.outputs p.base := by
  obtain ⟨c, rest, hname, hc⟩ := exists_beginsIdentifier_of_accept h
  have hdirectory : stripBlanks (s.nameOf architecture ++ tag).toList =
      c :: (rest ++ stripBlanks tag.toList) := by
    rw [String.toList_append, stripBlanks, List.filter_append, ← stripBlanks, hname,
      List.cons_append, stripBlanks]
  have hne : c ≠ '/' := by
    rintro rfl
    exact absurd hc (by decide +kernel)
  unfold Workspace.create
  rw [hdirectory]
  exact joinPath_ne_left (String.toList_ofList) hne

end Pipeline

end Rendezvous
