import Rendezvous.Check.Behavior
import Rendezvous.Proofs.Check.Reports

/-!
# Component types without findings

Every check of a component type only adds to the report (`extends_checkType`), so component types
that pass have passed each single check.  One of these compares the name of a type with those of the
earlier ones: types that pass have distinct names (`checkBehavior_violations_eq_nil_iff`).
-/

namespace Rendezvous

namespace Behavior

/-! ## Reports grow -/

section
variable {node : Path} {code message : String}

theorem decides_addIf (condition : Bool) (r : Report) :
    Report.Decides (condition = false) r (addIf condition node code message r) := by
  unfold addIf
  cases condition with
  | false => exact Or.inl ⟨rfl, rfl⟩
  | true => exact Or.inr ⟨by decide, node, code, message, rfl⟩

theorem extends_addIf (condition : Bool) (r : Report) :
    r.Extends (addIf condition node code message r) :=
  (decides_addIf condition r).extends_report

end

section
variable (s : Store) (node : Path) (name typeName : String) (p : TypePass)

theorem extends_checkTransition (isPort : Bool) :
    p.report.Extends (checkTransition s node name isPort p).report :=
  (((extends_addIf _ _).trans (extends_addIf _ _)).trans (extends_addIf _ _)).trans
    (extends_addIf _ _)

theorem extends_checkChild : p.report.Extends (checkChild s typeName p node).report := by
  unfold checkChild
  dsimp only
  split
  · exact extends_addIf _ _
  · exact extends_addIf _ _
  · exact (extends_addIf _ _).trans (extends_addIf _ _)
  · exact extends_checkTransition s node _ p false
  · exact extends_checkTransition s node _ p true
  · exact extends_checkTransition s node _ p true
  · exact Report.extends_refl _

end

theorem extends_checkGuardTexts (g : Guard.Grammar) (guarded : List (Path × String))
    (report : Report) : report.Extends (checkGuardTexts g guarded report) := by
  refine Report.extends_foldl id (fun r e => ?_) guarded report
  dsimp only [id]
  split
  · exact Report.extends_refl r
  · exact Report.extends_add r _ _ _

theorem extends_checkMachine (s : Store) (node : Path) (typeName : String) (report : Report) :
    report.Extends (checkMachine s node typeName report) := by
  have hchildren : report.Extends
      ((s.children node).foldl (checkChild s typeName) (.initial report)).report :=
    Report.extends_foldl TypePass.report (fun p c => extends_checkChild s c typeName p) _
      (.initial report)
  unfold checkMachine
  dsimp only
  split
  · exact hchildren.trans (extends_addIf _ _)
  · exact (hchildren.trans (extends_addIf _ _)).trans (extends_checkGuardTexts _ _ _)

/-! ## Silent checks -/

section
variable {s : Store} {r : List String × Report}

/-- A component type passes when its name is new and names a class, and its machine passes. -/
theorem checkType_eq_iff {node : Path} :
    (checkType s r node).2 = r.2 ↔ s.nameOf node ∉ r.1 ∧ isClassName (s.nameOf node) = true ∧
      checkMachine s node (s.nameOf node) r.2 = r.2 := by
  let new := addIf (r.1.contains (s.nameOf node)) node Code.duplicateComponentType
    (duplicateTypeMessage (s.nameOf node) node) r.2
  let named := addIf (!isClassName (s.nameOf node)) node Code.invalidClassName
    (invalidClassNameMessage (s.nameOf node) node) new
  have hnew : Report.Decides (r.1.contains (s.nameOf node) = false) r.2 new := decides_addIf _ _
  have hnamed : Report.Decides ((!isClassName (s.nameOf node)) = false) new named :=
    decides_addIf _ _
  have hmachine : named.Extends (checkType s r node).2 := extends_checkMachine s node _ named
  rw [(hnew.extends_report.trans hnamed.extends_report).eq_iff hmachine,
    hnew.extends_report.eq_iff hnamed.extends_report, hnew.eq_iff, hnamed.eq_iff, and_assoc]
  simp only [List.contains_eq_mem, decide_eq_false_iff_not, Bool.not_eq_eq_eq_not, Bool.not_false]
  refine and_congr_right fun hname => and_congr_right fun hclass => ?_
  -- a name that passes leaves the report that the machine is checked with
  have hnamed_eq : named = r.2 :=
    (hnamed.eq_iff.2 (by simpa using hclass)).trans (hnew.eq_iff.2 (by simpa using hname))
  show checkMachine s node (s.nameOf node) named = named ↔ _
  rw [hnamed_eq]

variable (s r) in
theorem extends_checkType (node : Path) : r.2.Extends (checkType s r node).2 :=
  ((extends_addIf _ _).trans (extends_addIf _ _)).trans (extends_checkMachine s node _ _)

variable (s r) in
theorem extends_foldl_checkType (types : List Path) :
    r.2.Extends (types.foldl (checkType s) r).2 :=
  Report.extends_foldl Prod.snd (extends_checkType s) types r

/-- Component types pass when their names are distinct and new and each of them passes by itself. -/
theorem foldl_checkType_eq_iff {types : List Path} :
    (types.foldl (checkType s) r).2 = r.2 ↔
      (types.map s.nameOf).Nodup ∧ ∀ t ∈ types, s.nameOf t ∉ r.1 ∧
        isClassName (s.nameOf t) = true ∧ checkMachine s t (s.nameOf t) r.2 = r.2 := by
  induction types generalizing r with
  | nil => simp
  | cons t types ih =>
    have hrest := extends_foldl_checkType s (checkType s r t) types
    have hnames : (checkType s r t).1 = r.1 ++ [s.nameOf t] := rfl
    rw [List.foldl_cons, (extends_checkType s r t).eq_iff hrest, ih, hnames, List.map_cons,
      List.nodup_cons, List.forall_mem_cons]
    constructor
    · rintro ⟨hsilent, hnodup, hpass⟩
      rw [hsilent] at hpass
      refine ⟨⟨fun hmem => ?_, hnodup⟩, checkType_eq_iff.1 hsilent, fun u hu => ?_⟩
      · obtain ⟨u, hu, hname⟩ := List.mem_map.1 hmem
        exact (hpass u hu).1 (List.mem_append_right _ (List.mem_singleton.2 hname))
      · exact (hpass u hu).imp_left fun hnew hmem => hnew (List.mem_append_left _ hmem)
    · rintro ⟨⟨hfirst, hnodup⟩, ht, hpass⟩
      have hsilent := checkType_eq_iff.2 ht
      rw [hsilent]
      refine ⟨rfl, hnodup, fun u hu => (hpass u hu).imp_left fun hnew hmem => ?_⟩
      rcases List.mem_append.1 hmem with hmem | hmem
      · exact hnew hmem
      · exact hfirst (List.mem_map.2 ⟨u, hu, List.mem_singleton.1 hmem⟩)

end

end Behavior

/-- **No behaviour is reported exactly when types have distinct names and pass one by one.** -/
theorem checkBehavior_violations_eq_nil_iff {s : Store} {types : List Path} :
    (checkBehavior s types).violations = [] ↔ (types.map s.nameOf).Nodup ∧
      ∀ t ∈ types, isClassName (s.nameOf t) = true ∧
        Behavior.checkMachine s t (s.nameOf t) (.empty .behavior) = .empty .behavior := by
  have hextends : (Report.empty .behavior).Extends (checkBehavior s types) :=
    Behavior.extends_foldl_checkType s ([], .empty .behavior) types
  rw [hextends.violations_eq_nil_iff]
  exact (Behavior.foldl_checkType_eq_iff (r := ([], .empty .behavior))).trans (by simp)

end Rendezvous
