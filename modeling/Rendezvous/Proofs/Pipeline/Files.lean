import Rendezvous.Proofs.Check.Acceptance
import Rendezvous.Proofs.Component.Source

/-!
# The files of a bundle

A successful run bundles the sources of the component types, the glue and the harness, and with a
toolchain the trace.  The glue and the trace never have the name of a source, and the gates keep the
names of component types apart; but no gate compares them with the class of the harness, which is
added last.  A bundle therefore holds every generated file exactly when no component type has the
name of that class (`run_holdsAll_iff`); the source of one that has it is lost
(`not_holdsAll_sameName`).
-/

namespace Rendezvous

/-! ## Names of files -/

theorem Component.getLast?_sourceFile (className : String) :
    (Component.sourceFile className).toList.getLast? = some 'a' := by
  simp [Component.sourceFile]

/-- A file with another last character is no source. -/
theorem Component.sourceFile_ne {className file : String} (h : file.toList.getLast? ≠ some 'a') :
    Component.sourceFile className ≠ file := by
  rintro rfl
  exact h (Component.getLast?_sourceFile className)

theorem Component.not_mem_map_sourceFile {names : List String} {file : String}
    (h : file.toList.getLast? ≠ some 'a') : file ∉ names.map Component.sourceFile := by
  intro hmem
  obtain ⟨name, -, hname⟩ := List.mem_map.1 hmem
  exact Component.sourceFile_ne h hname

theorem Component.sourceFile_ne_glueFile {className : String} :
    Component.sourceFile className ≠ Harness.glueFile :=
  Component.sourceFile_ne (by decide)

theorem Component.sourceFile_ne_traceFile {className : String} :
    Component.sourceFile className ≠ Harness.traceFile :=
  Component.sourceFile_ne (by decide)

/-! ## Generated files -/

namespace Generated

/-- The bundle of generated files is the sources, then the glue, then the harness. -/
theorem files_bundle (g : Generated) : g.bundle.files =
    (g.components.insert Harness.glueFile g.glue).insert g.harness.file g.harness.source := by
  have hfiles : g.bundle.files = (Table.ofList g.components.entries).insertMany
      [(Harness.glueFile, g.glue), (g.harness.file, g.harness.source)] :=
    Table.insertMany_append
  rw [hfiles, Table.ofList_entries, Table.insertMany, List.foldl_cons, List.foldl_cons,
    List.foldl_nil]

theorem file?_bundle (g : Generated) (name : String) : g.bundle.file? name =
    if g.harness.file = name then some g.harness.source
    else if Harness.glueFile = name then some g.glue else g.components.get? name := by
  rw [Bundle.file?, files_bundle, Table.get?_insert, Table.get?_insert]

section
variable {g : Generated} {names : List String}
  (h : g.components.keys = names.map Component.sourceFile)
include h

/-- Besides the sources there are the glue and the harness, unless the harness takes the place of a
source. -/
theorem size_bundle :
    g.bundle.size = names.length + if g.harness.className ∈ names then 1 else 2 := by
  have hsize : g.components.size = names.length := by
    rw [← List.length_map Component.sourceFile, ← h, Table.keys, List.length_map]
    rfl
  have hglue : Harness.glueFile ∉ g.components.keys := by
    rw [h]
    exact Component.not_mem_map_sourceFile (by decide)
  have hharness : g.harness.file ∈ (g.components.insert Harness.glueFile g.glue).keys ↔
      g.harness.className ∈ names := by
    rw [Table.mem_keys_insert, h, Harness.file,
      List.mem_map_of_injective fun _ _ => Component.sourceFile_inj.1,
      or_iff_right Component.sourceFile_ne_glueFile]
  rw [Bundle.size, files_bundle, Table.size_insert, Table.size_insert, if_neg hglue, hsize]
  simp only [hharness]
  split <;> rfl

/-- No generated file has the name of the trace. -/
theorem traceFile_not_mem_files : Harness.traceFile ∉ g.files.map Prod.fst := by
  rw [files, List.map_append, List.mem_append, not_or]
  refine ⟨?_, ?_⟩
  · rw [← Table.keys, h]
    exact Component.not_mem_map_sourceFile (by decide)
  · intro hmem
    rcases List.mem_cons.1 hmem with hglue | hmem
    · have hnames : Harness.traceFile = Harness.glueFile := hglue
      exact absurd hnames (by decide)
    · exact Component.sourceFile_ne_traceFile (List.mem_singleton.1 hmem).symm

theorem traceFile_not_mem_names : Harness.traceFile ∉ g.bundle.names := by
  rw [Bundle.names, bundle, Bundle.addMany]
  exact fun hmem => traceFile_not_mem_files h (Table.mem_keys_ofList.1 hmem)

end

end Generated

/-! ## Runs -/

namespace Pipeline

variable {p : Pipeline} {s : Store} {architecture : Path} {tag : String} {m : CheckedModel}
  {b : Bundle}

theorem accept_eq_ok_iff : p.accept s architecture = .ok m ↔
    s.contains architecture = true ∧ p.config.check s = .ok m ∧
      (checkArchitectureName s architecture).violations = [] := by
  unfold accept
  cases hcontains : s.contains architecture with
  | false =>
    constructor
    · rintro ⟨⟩
    · rintro ⟨⟨⟩, -⟩
  | true =>
    simp only [if_true, bind_eq_ok_iff, gate_eq_ok_iff, true_and]
    constructor
    · rintro ⟨m', hcheck, _, hname, hm⟩
      obtain rfl := Except.ok.inj hm
      exact ⟨hcheck, hname⟩
    · rintro ⟨hcheck, hname⟩
      exact ⟨m, hcheck, (), hname, rfl⟩

/-- The files that a run generates for an accepted model. -/
def generated (p : Pipeline) (s : Store) (architecture : Path) (tag : String)
    (m : CheckedModel) : Generated :=
  .ofModel s p.config architecture m (Workspace.create p.base (s.nameOf architecture) tag)

/-- Recording a trace adds its file. -/
theorem recordTrace_eq_ok {trace : String} {s' : Store} {b' : Bundle}
    (h : recordTrace s architecture b trace = .ok (s', b')) :
    b' = b.add Harness.traceFile trace := by
  obtain ⟨_, -, hpair⟩ := bind_eq_ok_iff.1 h
  exact (congrArg Prod.snd (Except.ok.inj hpair)).symm

theorem simulate_eq_ok {w : Workspace} {g : Generated} {t : Toolchain}
    (h : (p.simulate s architecture w g t).result = .ok b) :
    ∃ trace, b = g.bundle.add Harness.traceFile trace := by
  unfold simulate at h
  split at h
  · cases h
  · dsimp only at h
    split at h
    · next hresult =>
      obtain ⟨trace, -, hrecord⟩ := bind_eq_ok_iff.1 hresult
      obtain rfl := Except.ok.inj h
      exact ⟨trace, recordTrace_eq_ok hrecord⟩
    · cases h

/-- What a run bundles: the generated files, and with a toolchain the trace. -/
inductive Bundles (p : Pipeline) (g : Generated) : Bundle → Prop
  | sources (h : p.toolchain = none) : Bundles p g g.bundle
  | traced (h : p.toolchain.isSome) (trace : String) :
    Bundles p g (g.bundle.add Harness.traceFile trace)

/-- A successful run has accepted a model, and bundles what is generated for it. -/
theorem run_eq_ok (h : (p.run s architecture tag).result = .ok b) :
    ∃ m, p.accept s architecture = .ok m ∧ p.Bundles (p.generated s architecture tag m) b := by
  unfold run at h
  split at h
  · cases h
  · next m haccept =>
    refine ⟨m, haccept, ?_⟩
    dsimp only at h
    split at h
    · next hnone =>
      obtain rfl := Except.ok.inj h
      exact .sources hnone
    · next t hsome =>
      obtain ⟨trace, rfl⟩ := simulate_eq_ok h
      exact .traced (by rw [hsome]; rfl) trace

namespace Bundles

variable {g : Generated}

/-- The trace leaves the other files as they are. -/
theorem file?_eq (h : p.Bundles g b) {name : String} (hname : Harness.traceFile ≠ name) :
    b.file? name = g.bundle.file? name := by
  cases h with
  | sources => rfl
  | traced _ trace => rw [Bundle.file?_add, if_neg hname]

/-- The trace is a file of its own. -/
theorem size_eq (h : p.Bundles g b) {names : List String}
    (hkeys : g.components.keys = names.map Component.sourceFile) :
    b.size = g.bundle.size + if p.toolchain.isSome then 1 else 0 := by
  cases h with
  | sources hnone => simp [hnone]
  | traced hsome trace =>
    rw [if_pos hsome]
    exact Table.size_insert.trans (if_neg (Generated.traceFile_not_mem_names hkeys))

end Bundles

/-! ## What a bundle holds -/

/-- A bundle holds the source of every component type, the glue and the harness, each under its own
name, and besides them only the trace of a toolchain. -/
structure HoldsAll (p : Pipeline) (s : Store) (architecture : Path) (tag : String)
    (m : CheckedModel) (b : Bundle) : Prop where
  component : ∀ t, s.instanceType? t = some .componentType →
    b.file? (Component.sourceFile (s.nameOf t)) = some (Component.ofStore s t).source
  glue : b.file? Harness.glueFile = some (Glue.ofArchitecture s m.architecture).markup
  harness : b.file? (Component.sourceFile (Harness.classNameOf (s.nameOf architecture))) =
    some (p.generated s architecture tag m).harness.source
  size : b.size = s.componentTypes.length + 2 + if p.toolchain.isSome then 1 else 0

section
variable (hb : p.Bundles (p.generated s architecture tag m) b)
include hb

theorem file?_glue :
    b.file? Harness.glueFile = some (Glue.ofArchitecture s m.architecture).markup := by
  rw [hb.file?_eq (by decide), Generated.file?_bundle, if_neg, if_pos rfl]
  · rfl
  · exact Component.sourceFile_ne_glueFile

theorem file?_harness :
    b.file? (Component.sourceFile (Harness.classNameOf (s.nameOf architecture))) =
      some (p.generated s architecture tag m).harness.source := by
  rw [hb.file?_eq Component.sourceFile_ne_traceFile.symm, Generated.file?_bundle]
  exact if_pos rfl

variable (hacc : Accepted s p.config m)
include hacc

/-- Only the harness can take the place of a source. -/
theorem file?_component {t : Path} (ht : s.instanceType? t = some .componentType)
    (hname : s.nameOf t ≠ Harness.classNameOf (s.nameOf architecture)) :
    b.file? (Component.sourceFile (s.nameOf t)) = some (Component.ofStore s t).source := by
  have hharness : (p.generated s architecture tag m).harness.file ≠
      Component.sourceFile (s.nameOf t) := fun h => hname (Component.sourceFile_inj.1 h).symm
  rw [hb.file?_eq Component.sourceFile_ne_traceFile.symm, Generated.file?_bundle,
    if_neg hharness, if_neg Component.sourceFile_ne_glueFile.symm, generated, Generated.ofModel,
    hacc.componentTypes_eq]
  exact Store.get?_componentSources hacc.names_nodup (Store.mem_componentTypes.2 ht)

theorem size_eq : b.size = s.componentTypes.length +
    (if Harness.classNameOf (s.nameOf architecture) ∈ s.componentTypes.map s.nameOf then 1 else 2)
      + if p.toolchain.isSome then 1 else 0 := by
  have hkeys : (p.generated s architecture tag m).components.keys =
      (s.componentTypes.map s.nameOf).map Component.sourceFile := by
    rw [generated, Generated.ofModel, hacc.componentTypes_eq]
    exact Store.keys_componentSources hacc.names_nodup
  rw [hb.size_eq hkeys, Generated.size_bundle hkeys, List.length_map]
  rfl

theorem holdsAll_iff : HoldsAll p s architecture tag m b ↔
    ∀ t, s.instanceType? t = some .componentType →
      s.nameOf t ≠ Harness.classNameOf (s.nameOf architecture) := by
  have hsize := size_eq hb hacc
  constructor
  · intro h t ht hname
    -- a harness in the place of a source leaves one file too few
    have hmem : Harness.classNameOf (s.nameOf architecture) ∈ s.componentTypes.map s.nameOf :=
      List.mem_map.2 ⟨t, Store.mem_componentTypes.2 ht, hname⟩
    rw [h.size, if_pos hmem] at hsize
    omega
  · intro h
    have hnot : Harness.classNameOf (s.nameOf architecture) ∉ s.componentTypes.map s.nameOf := by
      intro hmem
      obtain ⟨t, ht, hname⟩ := List.mem_map.1 hmem
      exact h t (Store.mem_componentTypes.1 ht) hname
    rw [if_neg hnot] at hsize
    exact ⟨fun t ht => file?_component hb hacc ht (h t ht), file?_glue hb,
      file?_harness hb, hsize⟩

end

/-- **Which files a successful run bundles.**  The glue and the harness are there under their names,
and so is the source of every component type that has not the name of the harness class.  No file is
lost exactly when no component type has it. -/
theorem run_holdsAll_iff (h : (p.run s architecture tag).result = .ok b) :
    ∃ m, p.accept s architecture = .ok m ∧
      let className := Harness.classNameOf (s.nameOf architecture)
      b.file? Harness.glueFile = some (Glue.ofArchitecture s m.architecture).markup ∧
      b.file? (Component.sourceFile className) =
        some (p.generated s architecture tag m).harness.source ∧
      (∀ t, s.instanceType? t = some .componentType → s.nameOf t ≠ className →
        b.file? (Component.sourceFile (s.nameOf t)) = some (Component.ofStore s t).source) ∧
      (HoldsAll p s architecture tag m b ↔
        ∀ t, s.instanceType? t = some .componentType → s.nameOf t ≠ className) := by
  obtain ⟨m, haccept, hb⟩ := run_eq_ok h
  have hacc : Accepted s p.config m := check_eq_ok_iff.1 (accept_eq_ok_iff.1 haccept).2.1
  exact ⟨m, haccept, file?_glue hb, file?_harness hb,
    fun _ ht hname => file?_component hb hacc ht hname, holdsAll_iff hb hacc⟩

/-! ## A harness in the place of a source -/

/-- An accepted model is run without a toolchain by bundling what is generated for it. -/
theorem run_of_accept (h : p.accept s architecture = .ok m) (hnone : p.toolchain = none) :
    (p.run s architecture tag).result = .ok (p.generated s architecture tag m).bundle := by
  unfold run
  rw [h, hnone]
  rfl

/-- An architecture `/m` with one component type `/a`, which is called `A`. -/
def architectureNamed (name : String) : Store :=
  Store.empty.addMany
    (("/m", ⟨.architectureStyle, false, none, .ofList [(Attribute.name, name)], .empty⟩) ::
      Architecture.onePortType)

/-- The name of the component type, put together with a number. -/
def spacedName : Store := architectureNamed "A 1"

/-- The name of the component type. -/
def sameName : Store := architectureNamed "A"

theorem accept_spacedName :
    (ofConfig .empty).accept spacedName "/m" = .ok (checkedModel spacedName .empty) := by
  decide +kernel

theorem accept_sameName :
    (ofConfig .empty).accept sameName "/m" = .ok (checkedModel sameName .empty) := by
  decide +kernel

theorem run_holdsAll_iff_spacedName :
    ∃ b, ((ofConfig .empty).run spacedName "/m" "T").result = .ok b ∧
      HoldsAll (ofConfig .empty) spacedName "/m" "T" (checkedModel spacedName .empty) b := by
  have hrun : ((ofConfig .empty).run spacedName "/m" "T").result = .ok _ :=
    run_of_accept accept_spacedName rfl
  obtain ⟨m, hm, -, -, -, hholds⟩ := run_holdsAll_iff hrun
  obtain rfl : checkedModel spacedName .empty = m :=
    Except.ok.inj (accept_spacedName.symm.trans hm)
  refine ⟨_, hrun, hholds.2 fun t ht => ?_⟩
  have htypes : spacedName.componentTypes = ["/a"] := by decide
  rw [← Store.mem_componentTypes, htypes, List.mem_singleton] at ht
  subst ht
  decide +kernel

/-- The source of a component type with the name of the architecture is lost. -/
theorem not_holdsAll_sameName :
    ¬ ∀ m b, (ofConfig .empty).accept sameName "/m" = .ok m →
      ((ofConfig .empty).run sameName "/m" "T").result = .ok b →
        HoldsAll (ofConfig .empty) sameName "/m" "T" m b := by
  intro h
  have hholds := h _ _ accept_sameName (run_of_accept accept_sameName rfl)
  have hacc : Accepted sameName .empty (checkedModel sameName .empty) :=
    check_eq_ok_iff.1 (accept_eq_ok_iff.1 accept_sameName).2.1
  exact (holdsAll_iff (.sources rfl) hacc).1 hholds "/a" (by decide) (by decide +kernel)

end Pipeline

end Rendezvous
