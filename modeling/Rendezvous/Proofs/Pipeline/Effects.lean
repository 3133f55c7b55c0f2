import Rendezvous.Proofs.Pipeline.Checked
import Rendezvous.Proofs.Store.Writes

/-!
# What a run changes

A run reads the store, calls the toolchain and stages files below its base.  Only a run whose
simulation has succeeded writes to the store, and then one attribute of one node: the trace of the
architecture.  The toolchain is called only for an accepted model, it simulates only what it has
compiled, and the workspace is removed at the end whether or not the run succeeds, unless it is to be
kept (`isContained_run`).
-/

namespace Rendezvous

/-! ## Simulations -/

/-- The text of a trace that a source describes, cut to at most `limit` entries. -/
structure Trace.Cut (limit : Nat) (source : Text.Decoded) (text : String) (t : Trace) : Prop where
  text_eq : text = t.document
  length_le : t.output.length ≤ limit
  read_eq : ∃ whole, Trace.read? source = some whole ∧ whole.truncate limit = t

theorem Trace.exists_cut {limit : Nat} {source : Text.Decoded} {text : String}
    (h : truncateDocument? limit source = some text) : ∃ t, Cut limit source text t := by
  obtain ⟨whole, hread, rfl⟩ := Option.map_eq_some_iff.1 h
  exact ⟨whole.truncate limit, rfl, List.length_take_le limit whole.output, whole, hread, rfl⟩

theorem readTrace_eq_ok {config : Config} {w : Workspace} {d : Disk} {text : String}
    (h : readTrace config w d = .ok text) :
    ∃ source t, d.file? (w.file Harness.traceFile) = some source ∧
      Trace.Cut config.transitions.toNat source text t := by
  unfold readTrace at h
  split at h
  · cases h
  · next source hsource =>
    split at h
    · next document hdocument =>
      obtain rfl := Except.ok.inj h
      obtain ⟨t, ht⟩ := Trace.exists_cut hdocument
      exact ⟨source, t, hsource, ht⟩
    · cases h

theorem readTrace_ne_rejected (config : Config) (w : Workspace) (d : Disk) (stage : Stage)
    (vs : List Violation) : readTrace config w d ≠ .error (.rejected stage vs) := by
  unfold readTrace
  split
  · simp
  · split <;> simp

/-- A simulation runs what has compiled and nothing else, rejects no model, and gives the trace that
it has left. -/
structure Simulation.IsOrderly (config : Config) (t : Toolchain) (sim : Simulation) : Prop where
  ordered : ∀ className, Call.simulate className ∈ sim.calls → t.compileFailure = none ∧
    ∃ components harness staged,
      sim.calls = [.compile components harness staged, .simulate className]
  accepted : ∀ stage vs, sim.result ≠ .error (.rejected stage vs)
  traced : ∀ text, sim.result = .ok text → ∃ source trace, t.trace = some source ∧
    Trace.Cut config.transitions.toNat source text trace

namespace Toolchain

variable {t : Toolchain} {config : Config} {w : Workspace} {base : String} {g : Generated}
  {d : Disk}

/-- A trace that was not there before is the one that the toolchain has left. -/
theorem trace_eq_of_leaveTrace {source : Text.Decoded}
    (hnone : d.file? (w.file Harness.traceFile) = none)
    (h : (t.leaveTrace w d).file? (w.file Harness.traceFile) = some source) :
    t.trace = some source := by
  unfold leaveTrace at h
  split at h
  · rw [hnone] at h
    cases h
  · next left hleft =>
    cases hwritten : w.write? (Harness.traceFile, left) d with
    | none =>
      rw [hwritten, Option.getD_none, hnone] at h
      cases h
    | some d' =>
      rw [hwritten, Option.getD_some, Disk.file?_eq_some, Workspace.at?_of_write? hwritten,
        if_pos rfl] at h
      obtain rfl := Disk.Entry.file.inj (Option.some.inj h)
      exact hleft

theorem isOrderly_run (hnone : d.file? (w.file Harness.traceFile) = none) :
    (t.run config w g d).IsOrderly config t := by
  unfold run
  cases hcompile : t.compileFailure with
  | some stderr => exact ⟨by simp, by simp, by simp⟩
  | none =>
    cases t.simulateFailure with
    | some stderr => exact ⟨by simp [hcompile], by simp, by simp⟩
    | none =>
      refine ⟨by simp [hcompile], readTrace_ne_rejected config w _, fun text htext => ?_⟩
      obtain ⟨source, trace, hsource, hcut⟩ := readTrace_eq_ok htext
      exact ⟨source, trace, trace_eq_of_leaveTrace hnone hsource, hcut⟩

theorem confines_leaveTrace (hd : w.Confines base IsWorkspaceFile d) :
    w.Confines base IsWorkspaceFile (t.leaveTrace w d) := by
  unfold leaveTrace
  split
  · exact hd
  · next source _ =>
    cases hwritten : w.write? (Harness.traceFile, source) d with
    | none => exact hd
    | some d' => exact hd.write .trace hwritten

/-- The toolchain makes nothing but the trace. -/
theorem confines_run (hd : w.Confines base IsWorkspaceFile d) :
    w.Confines base IsWorkspaceFile (t.run config w g d).disk := by
  unfold run
  dsimp only
  split
  · exact hd
  · split
    · exact hd
    · exact confines_leaveTrace hd

section
variable (hg : g.IsStageable) (hd : w.Confines base (· ∈ g.files.map Prod.fst) d)
include hg hd

theorem confines_stageAndRun : w.Confines base IsWorkspaceFile (t.stageAndRun config w g d).disk := by
  have hstaged := (hd.stage fun name hname => hname).mono hg.checked.files
  unfold stageAndRun
  split
  · next staged hstage =>
    rw [hstage] at hstaged
    exact confines_run hstaged
  · next staged hstage =>
    rw [hstage] at hstaged
    exact hstaged

theorem isOrderly_stageAndRun (hends : Text.EndsNamed w.root) :
    (t.stageAndRun config w g d).IsOrderly config t := by
  have hstaged : w.Confines base (· ∈ g.files.map Prod.fst) (w.stage g.files d).1 :=
    hd.stage fun name hname => hname
  unfold stageAndRun
  split
  · next staged hstage =>
    rw [hstage] at hstaged
    -- staging has written no file under the name of the trace
    exact isOrderly_run (hstaged.file?_eq_none hends (fun name hname =>
      (hg.checked.files name hname).isSegment) IsWorkspaceFile.trace.isSegment hg.untraced)
  · exact ⟨by simp, by simp, by simp⟩

end

end Toolchain

namespace Pipeline

variable {p : Pipeline} {s s' : Store} {architecture : Path} {tag : String} {b b' : Bundle}

/-- Recording a trace writes it to the store and to the bundle. -/
theorem writes_of_recordTrace {text : String}
    (h : recordTrace s architecture b text = .ok (s', b')) :
    s.Writes s' architecture Attribute.engineOutput text ∧
      b'.file? Harness.traceFile = some text := by
  obtain ⟨written, hwritten, hpair⟩ := bind_eq_ok_iff.1 h
  obtain ⟨rfl, rfl⟩ := Prod.mk.inj (Except.ok.inj hpair)
  exact ⟨Store.writes_of_setAttribute (mapError_eq_ok_iff.1 hwritten), by simp⟩

theorem recordTrace_ne_rejected (s : Store) (architecture : Path) (b : Bundle) (text : String)
    (stage : Stage) (vs : List Violation) :
    recordTrace s architecture b text ≠ .error (.rejected stage vs) := by
  unfold recordTrace
  cases s.setAttribute architecture Attribute.engineOutput text with
  | error e => simp [Except.mapError, bind, Except.bind]
  | ok s' => simp [Except.mapError, bind, Except.bind, pure, Except.pure]

/-! ## Runs -/

/-- What a run may change: nothing but the trace of the architecture, when it succeeds. -/
structure IsContained (p : Pipeline) (s : Store) (architecture : Path) (tag : String)
    (o : Outcome) : Prop where
  /-- A run that fails leaves the store as it is. -/
  failed : ∀ e, o.result = .error e → o.store = s
  /-- A run without a toolchain leaves the store as it is and calls nothing. -/
  untouched : p.toolchain = none → o.store = s ∧ o.calls = []
  /-- A run with a toolchain writes the trace, which is cut to the configured length, to the
  architecture and to the bundle. -/
  traced : ∀ t b, p.toolchain = some t → o.result = .ok b → ∃ source text trace,
    t.trace = some source ∧ Trace.Cut p.config.transitions.toNat source text trace ∧
    b.file? Harness.traceFile = some text ∧
    s.Writes o.store architecture Attribute.engineOutput text
  /-- The toolchain is called only for what all gates have accepted. -/
  gated : o.calls ≠ [] →
    (∃ m, p.accept s architecture = .ok m) ∧ ∀ stage vs, o.result ≠ .error (.rejected stage vs)
  /-- Only what has compiled is simulated. -/
  ordered : ∀ className, Call.simulate className ∈ o.calls →
    ∃ t components harness staged, p.toolchain = some t ∧ t.compileFailure = none ∧
      o.calls = [.compile components harness staged, .simulate className]
  /-- The workspace does not outlive the run, unless it is kept. -/
  cleaned : p.keepWorkspace = false → o.left ⊆ [Workspace.outputs p.base] ∧
    (Workspace.create p.base (s.nameOf architecture) tag).root ∉ o.left

/-- A run that ends before the toolchain is called has no bundle, or no toolchain. -/
theorem isContained_ended {result : Except PipelineError Bundle}
    (h : ∀ t b, p.toolchain = some t → result ≠ .ok b) :
    IsContained p s architecture tag (ended s result) where
  failed _ _ := rfl
  untouched _ := ⟨rfl, rfl⟩
  traced t b ht hb := absurd hb (h t b ht)
  gated hcalls := absurd rfl hcalls
  ordered _ hcall := absurd hcall List.not_mem_nil
  cleaned _ := ⟨List.nil_subset _, List.not_mem_nil⟩

/-- A simulation in a workspace that has been made is orderly. -/
theorem isOrderly_of_make {w : Workspace} {g : Generated} {d : Disk} (hg : g.IsStageable)
    (hne : w.root ≠ Workspace.outputs p.base) (hmake : w.make p.base .empty = (d, true))
    (t : Toolchain) : (t.stageAndRun p.config w g d).IsOrderly p.config t :=
  Toolchain.isOrderly_stageAndRun hg (Workspace.confines_of_make hmake)
    (Workspace.endsNamed_of_make hne hmake)

/-- How the simulation of generated files ends. -/
inductive Ends (p : Pipeline) (s : Store) (architecture : Path) (w : Workspace) (g : Generated)
    (t : Toolchain) : Outcome → Prop
  | unmade {d : Disk} (hmake : w.make p.base .empty = (d, false)) :
    Ends p s architecture w g t ⟨.error .unwritable, [], d.paths, s⟩
  | failed {d : Disk} {e : PipelineError} (hmake : w.make p.base .empty = (d, true))
    (h : (t.stageAndRun p.config w g d).result.bind (recordTrace s architecture g.bundle)
      = .error e) :
    Ends p s architecture w g t ⟨.error e, (t.stageAndRun p.config w g d).calls,
      (p.cleanUp w (t.stageAndRun p.config w g d).disk).paths, s⟩
  | recorded {d : Disk} {text : String} {s' : Store} {b : Bundle}
    (hmake : w.make p.base .empty = (d, true))
    (htext : (t.stageAndRun p.config w g d).result = .ok text)
    (hrecord : recordTrace s architecture g.bundle text = .ok (s', b)) :
    Ends p s architecture w g t ⟨.ok b, (t.stageAndRun p.config w g d).calls,
      (p.cleanUp w (t.stageAndRun p.config w g d).disk).paths, s'⟩

theorem ends_simulate (p : Pipeline) (s : Store) (architecture : Path) (w : Workspace)
    (g : Generated) (t : Toolchain) :
    p.Ends s architecture w g t (p.simulate s architecture w g t) := by
  unfold simulate
  split
  · next hmake => exact .unmade hmake
  · next hmake =>
    dsimp only
    split
    · next hresult =>
      obtain ⟨text, htext, hrecord⟩ := bind_eq_ok_iff.1 hresult
      exact .recorded hmake htext hrecord
    · next hresult => exact .failed hmake hresult

namespace Ends

variable {w : Workspace} {g : Generated} {t : Toolchain} {o : Outcome}

theorem store_eq (h : p.Ends s architecture w g t o) {e : PipelineError}
    (he : o.result = .error e) : o.store = s := by
  cases h with
  | unmade => rfl
  | failed => rfl
  | recorded => cases he

/-- The toolchain is called as a simulation calls it, once the workspace has been made. -/
theorem calls_eq (h : p.Ends s architecture w g t o) : o.calls = [] ∨
    ∃ d, w.make p.base .empty = (d, true) ∧ o.calls = (t.stageAndRun p.config w g d).calls := by
  cases h with
  | unmade => exact .inl rfl
  | failed hmake => exact .inr ⟨_, hmake, rfl⟩
  | recorded hmake => exact .inr ⟨_, hmake, rfl⟩

/-- A run leaves what its simulation has left, once that is cleaned up, or what it has made of a
workspace that cannot be made. -/
theorem left_eq (h : p.Ends s architecture w g t o) :
    (∃ d, w.make p.base .empty = (d, false) ∧ o.left = d.paths) ∨
      ∃ d, w.make p.base .empty = (d, true) ∧
        o.left = (p.cleanUp w (t.stageAndRun p.config w g d).disk).paths := by
  cases h with
  | unmade hmake => exact .inl ⟨_, hmake, rfl⟩
  | failed hmake => exact .inr ⟨_, hmake, rfl⟩
  | recorded hmake => exact .inr ⟨_, hmake, rfl⟩

/-- A model that is simulated is rejected no more. -/
theorem result_ne_rejected (h : p.Ends s architecture w g t o) (hg : g.IsStageable)
    (hne : w.root ≠ Workspace.outputs p.base) (stage : Stage) (vs : List Violation) :
    o.result ≠ .error (.rejected stage vs) := by
  intro hrejected
  cases h with
  | unmade => cases hrejected
  | @failed d e hmake hbind =>
    obtain rfl := Except.error.inj hrejected
    have hsim := (isOrderly_of_make hg hne hmake t).accepted stage vs
    cases hresult : (t.stageAndRun p.config w g d).result with
    | error e =>
      rw [hresult] at hbind
      obtain rfl := Except.error.inj hbind
      exact hsim hresult
    | ok text =>
      rw [hresult] at hbind
      exact recordTrace_ne_rejected s architecture g.bundle text stage vs hbind
  | recorded => cases hrejected

theorem writes (h : p.Ends s architecture w g t o) (hg : g.IsStageable)
    (hne : w.root ≠ Workspace.outputs p.base) (hb : o.result = .ok b) :
    ∃ source text trace, t.trace = some source ∧
      Trace.Cut p.config.transitions.toNat source text trace ∧
      b.file? Harness.traceFile = some text ∧
      s.Writes o.store architecture Attribute.engineOutput text := by
  cases h with
  | unmade => cases hb
  | failed => cases hb
  | @recorded d text s' b' hmake htext hrecord =>
    obtain rfl := Except.ok.inj hb
    obtain ⟨source, trace, hsource, hcut⟩ :=
      (isOrderly_of_make hg hne hmake t).traced text htext
    obtain ⟨hwrites, hfile⟩ := writes_of_recordTrace hrecord
    exact ⟨source, text, trace, hsource, hcut, hfile, hwrites⟩

/-- Unless its workspace is kept, a run leaves at most the directory that holds all workspaces. -/
theorem left_subset (h : p.Ends s architecture w g t o) (hg : g.IsStageable)
    (hne : w.root ≠ Workspace.outputs p.base) (hkeep : p.keepWorkspace = false) :
    o.left ⊆ [Workspace.outputs p.base] := by
  rcases h.left_eq with ⟨d, hmake, hleft⟩ | ⟨d, hmake, hleft⟩
  · exact hleft ▸ Workspace.paths_make_subset hmake
  · rw [hleft, cleanUp, if_neg (by simp [hkeep])]
    have hconfines : w.Confines p.base IsWorkspaceFile (t.stageAndRun p.config w g d).disk :=
      Toolchain.confines_stageAndRun hg (Workspace.confines_of_make hmake)
    exact hconfines.paths_remove_subset (Workspace.endsNamed_of_make hne hmake) fun _ hname =>
      hname.isSegment

end Ends

/-- The end of a simulation is contained. -/
theorem Ends.isContained {m : CheckedModel} {g : Generated} {t : Toolchain} {o : Outcome}
    (hends : p.Ends s architecture (Workspace.create p.base (s.nameOf architecture) tag) g t o)
    (hg : g.IsStageable) (haccept : p.accept s architecture = .ok m)
    (ht : p.toolchain = some t) : IsContained p s architecture tag o := by
  have hne : (Workspace.create p.base (s.nameOf architecture) tag).root ≠
      Workspace.outputs p.base := root_create_ne haccept
  refine ⟨fun _ => hends.store_eq, fun hnone => ?_, fun t' b ht' hb => ?_,
    fun _ => ⟨⟨m, haccept⟩, hends.result_ne_rejected hg hne⟩, fun className hcall => ?_,
    fun hkeep => ?_⟩
  · rw [ht] at hnone
    cases hnone
  · obtain rfl := Option.some.inj (ht.symm.trans ht')
    exact hends.writes hg hne hb
  · rcases hends.calls_eq with hcalls | ⟨d, hmake, hcalls⟩
    · rw [hcalls] at hcall
      exact absurd hcall List.not_mem_nil
    · rw [hcalls] at hcall ⊢
      obtain ⟨hcompiled, components, harness, staged, hboth⟩ :=
        (isOrderly_of_make hg hne hmake t).ordered className hcall
      exact ⟨t, components, harness, staged, ht, hcompiled, hboth⟩
  · have hleft := hends.left_subset hg hne hkeep
    exact ⟨hleft, fun hroot => hne (List.mem_singleton.1 (hleft hroot))⟩

/-- **What a run changes.**  A run that fails, and a run without a toolchain, leaves the store as it
is; a successful run with a toolchain writes one attribute of the architecture, the trace that its
bundle holds.  The toolchain is called only after all gates and simulates only what it has compiled,
and the workspace is gone at the end. -/
theorem isContained_run (p : Pipeline) (s : Store) (architecture : Path) (tag : String) :
    IsContained p s architecture tag (p.run s architecture tag) := by
  unfold run
  cases haccept : p.accept s architecture with
  | error e => exact isContained_ended fun _ _ _ h => by cases h
  | ok m =>
    dsimp only
    cases ht : p.toolchain with
    | none => exact isContained_ended fun t b h => by rw [ht] at h; cases h
    | some t =>
      exact (p.ends_simulate s architecture _ _ t).isContained (isStageable_generated haccept)
        haccept ht

/-- A run of the architecture `A`, which is empty, that keeps one of two entries of its trace. -/
def cutToOne : Outcome :=
  let s := Store.empty.addMany
    [("/m", ⟨.architectureStyle, false, none, .ofList [(Attribute.name, "A")], .empty⟩)]
  run { ofConfig ⟨1, .empty⟩ with
    toolchain := some ⟨none, none, some (Text.decoded "\x7b\"output\":[1,2]\x7d")⟩ } s "/m" "T"

example : cutToOne.store.attributeAt? "/m" Attribute.engineOutput =
    some "\x7b\"output\":[1]\x7d" := by
  decide +kernel

end Pipeline

end Rendezvous
