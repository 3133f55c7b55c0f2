import Rendezvous.Proofs.Check.Findings
import Rendezvous.Proofs.Guard.Declared
import Rendezvous.Proofs.Store.Instances

/-!
# The rules on behaviour

Each rule on component types has a code, and a node that breaks it.  A child breaks a rule by what it
is and by the children before it (`ChildBreaks`); a transition by the guards among all children, and a
type by having no initial state (`MachineBreaks`); and a type by its name and the types before it
(`Breaks`).  Every check adds exactly the rules that are broken to its report, from the check of a
child (`lists_checkChild`) to that of all types (`lists_checkBehavior`).
-/

namespace Rendezvous

/-- Whether a node is a transition. -/
def Store.isTransition (s : Store) (p : Path) : Bool :=
  ((s.metaType? p).map MetaType.isTransition).getD false

/-- Whether a node is a state, initial or not. -/
def Store.isState (s : Store) (p : Path) : Bool :=
  s.isA p .state

/-- Whether a node is a transition that is a port of its component. -/
def Store.isPort (s : Store) (p : Path) : Bool :=
  ((s.metaType? p).map MetaType.isPortTransition).getD false

/-- Whether a node is a guard. -/
def Store.isGuard (s : Store) (p : Path) : Bool :=
  s.metaType? p == some .guard

namespace Behavior

open Report (Verdict Lists)

/-! ## The rules -/

/-- A node has the name of an earlier one of its kind. -/
def Repeats (s : Store) (isKind : Path → Bool) (earlier : List Path) (c : Path) : Prop :=
  isKind c = true ∧ ∃ d ∈ earlier, isKind d = true ∧ s.nameOf d = s.nameOf c

/-- `ChildBreaks s earlier c code`: the child `c` of a component type, after the children `earlier`,
breaks the rule with that code. -/
inductive ChildBreaks (s : Store) (earlier : List Path) (c : Path) : String → Prop
  | duplicateState : Repeats s s.isState earlier c →
      ChildBreaks s earlier c Code.duplicateState
  | missingDestination : s.isTransition c = true → s.pointer? c Pointer.destination = none →
      ChildBreaks s earlier c Code.missingDestination
  | missingSource : s.isTransition c = true → s.pointer? c Pointer.source = none →
      ChildBreaks s earlier c Code.missingSource
  | missingTransitionMethod : s.isTransition c = true →
      s.attributeText c Attribute.transitionMethod = "" →
      ChildBreaks s earlier c Code.missingTransitionMethod
  | duplicateTransition : Repeats s s.isPort earlier c →
      ChildBreaks s earlier c Code.duplicateTransition
  | duplicateGuard : Repeats s s.isGuard earlier c → ChildBreaks s earlier c Code.duplicateGuard
  | missingGuardMethod : s.isGuard c = true → s.attributeText c Attribute.guardMethod = "" →
      ChildBreaks s earlier c Code.missingGuardMethod

/-- The names of a kind of nodes. -/
def namesOf (s : Store) (isKind : Path → Bool) (nodes : List Path) : List String :=
  (nodes.filter isKind).map s.nameOf

/-- `MachineBreaks s t node code`: the children of the component type `t` break the rule with that
code at a node. -/
inductive MachineBreaks (s : Store) (t : Path) : Path → String → Prop
  | child {earlier : List Path} {c : Path} {code : String} : earlier ++ [c] <+: s.children t →
      ChildBreaks s earlier c code → MachineBreaks s t c code
  | missingInitialState : (∀ c ∈ s.children t, s.metaType? c ≠ some .initialState) →
      MachineBreaks s t t Code.missingInitialState
  | invalidGuardExpression {c g : Path} : c ∈ s.children t → s.isTransition c = true →
      s.attributeText c Attribute.guard ≠ "" →
      g ∈ s.children t → s.isGuard g = true → s.nameOf g ≠ "" →
      ¬ Guard.IsExpressionOver (namesOf s s.isGuard (s.children t))
        (s.attributeText c Attribute.guard) →
      MachineBreaks s t c Code.invalidGuardExpression

/-- `Breaks s before t node code`: the component type `t`, after the types `before`, breaks the rule
with that code at a node. -/
inductive Breaks (s : Store) (before : List Path) (t : Path) : Path → String → Prop
  | duplicateComponentType {u : Path} : u ∈ before → s.nameOf u = s.nameOf t →
      Breaks s before t t Code.duplicateComponentType
  | invalidClassName : isClassName (s.nameOf t) = false →
      Breaks s before t t Code.invalidClassName
  | machine {node : Path} {code : String} : MachineBreaks s t node code →
      Breaks s before t node code

/-! ## One child -/

/-- How the rules turn out for a child, given what the earlier children have shown. -/
def childVerdicts (s : Store) (typeName : String) (p : TypePass) (c : Path) : List Verdict :=
  let name := s.nameOf c
  [⟨s.isState c && p.stateNames.contains name, Code.duplicateState,
      duplicateStateMessage name c typeName⟩,
    ⟨s.isTransition c && (s.pointer? c Pointer.destination).isNone, Code.missingDestination,
      missingDestinationMessage name⟩,
    ⟨s.isTransition c && (s.pointer? c Pointer.source).isNone, Code.missingSource,
      missingSourceMessage name⟩,
    ⟨s.isTransition c && s.attributeText c Attribute.transitionMethod = "",
      Code.missingTransitionMethod, missingTransitionMethodMessage name⟩,
    ⟨s.isPort c && p.transitionNames.contains name, Code.duplicateTransition,
      duplicateTransitionMessage name c⟩,
    ⟨s.isGuard c && p.guardNames.contains name, Code.duplicateGuard, duplicateGuardMessage name⟩,
    ⟨s.isGuard c && s.attributeText c Attribute.guardMethod = "", Code.missingGuardMethod,
      missingGuardMethodMessage name⟩]

/-- Whether a transition has a guard. -/
def isGuarded (s : Store) (c : Path) : Bool :=
  s.isTransition c && s.attributeText c Attribute.guard ≠ ""

/-- **What the check of a child does.**  It keeps the name of the child with those of its kind, and
the guard of a transition for later. -/
theorem checkChild_eq (s : Store) (typeName : String) (p : TypePass) (c : Path) :
    checkChild s typeName p c =
      { stateNames := if s.isState c then p.stateNames ++ [s.nameOf c] else p.stateNames
        transitionNames :=
          if s.isPort c then p.transitionNames ++ [s.nameOf c] else p.transitionNames
        guardNames := if s.isGuard c then p.guardNames ++ [s.nameOf c] else p.guardNames
        hasInitialState := p.hasInitialState || s.metaType? c = some .initialState
        guarded := if isGuarded s c then p.guarded ++ [(c, s.attributeText c Attribute.guard)]
          else p.guarded
        report := (childVerdicts s typeName p c).foldl (Report.judge c) p.report } := by
  unfold checkChild childVerdicts isGuarded Store.isTransition Store.isState Store.isA Store.isPort
    Store.isGuard
  cases hmeta : s.metaType? c with
  | none => simp [Report.judge, addIf]
  | some m =>
    cases m <;> simp [Report.judge, addIf, MetaType.isA, MetaType.isTransition,
      MetaType.isPortTransition, checkState, checkTransition, checkGuard]

/-! ## The children of a type -/

section
variable (s : Store) (typeName : String) (report : Report) (children : List Path)

/-- What some children have shown. -/
def passOf : TypePass :=
  children.foldl (checkChild s typeName) (.initial report)

theorem stateNames_passOf :
    (passOf s typeName report children).stateNames = namesOf s s.isState children :=
  view_foldl_filter TypePass.stateNames s.isState s.nameOf
    (fun p c => by rw [checkChild_eq]) children (.initial report)

theorem transitionNames_passOf :
    (passOf s typeName report children).transitionNames = namesOf s s.isPort children :=
  view_foldl_filter TypePass.transitionNames s.isPort s.nameOf
    (fun p c => by rw [checkChild_eq]) children (.initial report)

theorem guardNames_passOf :
    (passOf s typeName report children).guardNames = namesOf s s.isGuard children :=
  view_foldl_filter TypePass.guardNames s.isGuard s.nameOf
    (fun p c => by rw [checkChild_eq]) children (.initial report)

theorem guarded_passOf :
    (passOf s typeName report children).guarded =
      (children.filter (isGuarded s)).map fun c => (c, s.attributeText c Attribute.guard) :=
  view_foldl_filter TypePass.guarded (isGuarded s) (fun c => (c, s.attributeText c Attribute.guard))
    (fun p c => by rw [checkChild_eq]) children (.initial report)

theorem hasInitialState_passOf :
    (passOf s typeName report children).hasInitialState = true ↔
      ∃ c ∈ children, s.metaType? c = some .initialState := by
  have hstep : ∀ (p : TypePass) (c : Path), (checkChild s typeName p c).hasInitialState = true ↔
      p.hasInitialState = true ∨ s.metaType? c = some .initialState := by
    intro p c
    rw [checkChild_eq, Bool.or_eq_true, decide_eq_true_iff]
  have hfound := foldl_iff_or_exists (P := fun p : TypePass => p.hasInitialState = true) hstep
    children (.initial report)
  exact hfound.trans (or_iff_right Bool.false_ne_true)

end

section
variable {s : Store} {typeName code : String} {report : Report} {earlier children : List Path}
  {c t node : Path}

theorem contains_namesOf_iff {isKind : Path → Bool} :
    (isKind c = true ∧ (namesOf s isKind earlier).contains (s.nameOf c) = true) ↔
      Repeats s isKind earlier c := by
  simp [namesOf, Repeats, and_assoc]

variable (s typeName report earlier c) in
/-- The verdicts on a child are those of the rules. -/
theorem exists_childVerdicts_iff :
    (∃ v ∈ childVerdicts s typeName (passOf s typeName report earlier) c,
      v.broken = true ∧ v.code = code) ↔ ChildBreaks s earlier c code := by
  simp only [childVerdicts, stateNames_passOf, transitionNames_passOf, guardNames_passOf,
    List.exists_mem_cons_iff, Bool.and_eq_true, decide_eq_true_iff, Option.isNone_iff_eq_none,
    contains_namesOf_iff]
  constructor
  · rintro (⟨h, rfl⟩ | ⟨⟨h, h'⟩, rfl⟩ | ⟨⟨h, h'⟩, rfl⟩ | ⟨⟨h, h'⟩, rfl⟩ | ⟨h, rfl⟩ | ⟨h, rfl⟩ |
      ⟨⟨h, h'⟩, rfl⟩ | ⟨v, hv, -⟩)
    · exact .duplicateState h
    · exact .missingDestination h h'
    · exact .missingSource h h'
    · exact .missingTransitionMethod h h'
    · exact .duplicateTransition h
    · exact .duplicateGuard h
    · exact .missingGuardMethod h h'
    · exact absurd hv List.not_mem_nil
  · intro h
    cases h <;> simp_all

variable (s typeName report earlier c) in
/-- The check of a child lists the codes of the rules that it breaks. -/
theorem lists_checkChild :
    Lists (fun code => (c, code)) (ChildBreaks s earlier c)
      (passOf s typeName report earlier).report
      (checkChild s typeName (passOf s typeName report earlier) c).report := by
  rw [checkChild_eq]
  have hcodes : ((childVerdicts s typeName (passOf s typeName report earlier) c).map
      Verdict.code).Nodup := by
    show [Code.duplicateState, Code.missingDestination, Code.missingSource,
      Code.missingTransitionMethod, Code.duplicateTransition, Code.duplicateGuard,
      Code.missingGuardMethod].Nodup
    decide
  exact (Report.lists_foldl_judge hcodes _).congr fun code =>
    exists_childVerdicts_iff s typeName report earlier c

variable (s typeName report t) in
/-- The check of all children lists the rules that they break. -/
theorem lists_passOf :
    Lists id (fun f => ∃ earlier, earlier ++ [f.1] <+: s.children t ∧ ChildBreaks s earlier f.1 f.2)
      report (passOf s typeName report (s.children t)).report := by
  have hstep : ∀ earlier c, Lists id (fun f => ChildBreaks s earlier c f.2 ∧ c = f.1)
      (passOf s typeName report earlier).report
      (checkChild s typeName (passOf s typeName report earlier) c).report := by
    intro earlier c
    have himage := (lists_checkChild s typeName report earlier c).image (fun code => (c, code))
      id fun code code' _ _ h => congrArg Prod.snd h
    refine himage.congr fun f => ?_
    constructor
    · rintro ⟨code, hcode, rfl⟩
      exact ⟨hcode, rfl⟩
    · rintro ⟨hcode, hc⟩
      exact ⟨f.2, hcode, Prod.ext hc rfl⟩
  have hnodup : ((s.children t).map id).Nodup := by
    rw [List.map_id]
    exact s.nodup_children t
  refine (Report.lists_foldl_of_nodup TypePass.report hstep id Prod.fst (fun _ c f h => h.2.symm)
    hnodup).congr fun f => ?_
  constructor
  · rintro ⟨earlier, c, hturn, hbreaks, rfl⟩
    exact ⟨earlier, hturn, hbreaks⟩
  · rintro ⟨earlier, hturn, hbreaks⟩
    exact ⟨earlier, f.1, hturn, hbreaks, rfl⟩

/-! ## The guards of transitions -/

/-- Guards are listed when the grammar does not read them. -/
theorem lists_checkGuardTexts {g : Guard.Grammar} {guarded : List (Path × String)}
    (hnodup : (guarded.map Prod.fst).Nodup) (report : Report) :
    Lists id (fun f => ∃ e ∈ guarded, (¬ ∃ x, g.read e.2 = .ok x) ∧
      f = (e.1, Code.invalidGuardExpression)) report (checkGuardTexts g guarded report) := by
  refine Report.lists_foldl_mem id (fun r e => ?_) Prod.fst Prod.fst
    (fun e f h => by rw [h.2]) hnodup report
  dsimp only [id]
  cases hread : g.read e.2 with
  | ok x => exact Report.lists_of_forall_not (fun f h => h.1 ⟨x, rfl⟩) rfl
  | error err =>
    exact Report.lists_of_iff_eq (x := (e.1, Code.invalidGuardExpression)) (by simp) (by simp)

/-- A transition has a guard that is no expression over the guards of its component type. -/
def Misguarded (s : Store) (t c : Path) : Prop :=
  c ∈ s.children t ∧ isGuarded s c = true ∧ (∃ n ∈ namesOf s s.isGuard (s.children t), n ≠ "") ∧
    ¬ Guard.IsExpressionOver (namesOf s s.isGuard (s.children t))
      (s.attributeText c Attribute.guard)

variable (s typeName report t) in
/-- With or without a grammar, the guards that are no expressions over the declared ones are listed. -/
theorem lists_misguarded (r : Report) :
    Lists id (fun f => Misguarded s t f.1 ∧ f.2 = Code.invalidGuardExpression) r
      (match Guard.Grammar.build (passOf s typeName report (s.children t)).guardNames with
        | none => r
        | some g => checkGuardTexts g (passOf s typeName report (s.children t)).guarded r) := by
  rw [guardNames_passOf, guarded_passOf]
  cases hbuild : Guard.Grammar.build (namesOf s s.isGuard (s.children t)) with
  | none =>
    refine Report.lists_of_forall_not ?_ rfl
    rintro f ⟨⟨-, -, ⟨n, hn, hne⟩, -⟩, -⟩
    exact hne (Guard.Grammar.build_eq_none_iff.1 hbuild n hn)
  | some g =>
    have hnames : ∃ n ∈ namesOf s s.isGuard (s.children t), n ≠ "" := by
      by_contra hnone
      push Not at hnone
      rw [Guard.Grammar.build_eq_none_iff.2 hnone] at hbuild
      cases hbuild
    have hnodup : ((((s.children t).filter (isGuarded s)).map
        fun c => (c, s.attributeText c Attribute.guard)).map Prod.fst).Nodup := by
      rw [List.map_map]
      simpa [Function.comp_def] using (s.nodup_children t).filter (isGuarded s)
    refine (lists_checkGuardTexts hnodup r).congr fun f => ?_
    constructor
    · rintro ⟨e, he, hread, rfl⟩
      obtain ⟨c, hc, rfl⟩ := List.mem_map.1 he
      obtain ⟨hc, hguarded⟩ := List.mem_filter.1 hc
      rw [Guard.Grammar.exists_read_eq_ok_iff hbuild] at hread
      exact ⟨⟨hc, hguarded, hnames, hread⟩, rfl⟩
    · rintro ⟨⟨hc, hguarded, -, hread⟩, hcode⟩
      have hmem := List.mem_map_of_mem (f := fun c => (c, s.attributeText c Attribute.guard))
        (List.mem_filter.2 ⟨hc, hguarded⟩)
      refine ⟨_, hmem, ?_, Prod.ext rfl hcode⟩
      rwa [Guard.Grammar.exists_read_eq_ok_iff hbuild]

/-! ## Types -/

/-- The codes of the rules on single children. -/
def childCodes : List String :=
  [Code.duplicateState, Code.missingDestination, Code.missingSource, Code.missingTransitionMethod,
    Code.duplicateTransition, Code.duplicateGuard, Code.missingGuardMethod]

theorem ChildBreaks.code_mem (h : ChildBreaks s earlier c code) : code ∈ childCodes := by
  cases h <;> decide

/-- The codes of the rules on machines. -/
def machineCodes : List String :=
  Code.missingInitialState :: Code.invalidGuardExpression :: childCodes

theorem MachineBreaks.code_mem (h : MachineBreaks s t node code) : code ∈ machineCodes := by
  cases h with
  | child _ hbreaks => exact .tail _ (.tail _ hbreaks.code_mem)
  | missingInitialState _ => decide
  | invalidGuardExpression => decide

/-- The rules on a machine are those on its children one by one, and two on all of them. -/
theorem machineBreaks_iff : MachineBreaks s t node code ↔
    ((∃ earlier, earlier ++ [node] <+: s.children t ∧ ChildBreaks s earlier node code) ∨
      (∀ c ∈ s.children t, s.metaType? c ≠ some .initialState) ∧
        (node, code) = (t, Code.missingInitialState)) ∨
      Misguarded s t node ∧ code = Code.invalidGuardExpression := by
  constructor
  · intro h
    cases h with
    | child hturn hbreaks => exact Or.inl (Or.inl ⟨_, hturn, hbreaks⟩)
    | missingInitialState hnone => exact Or.inl (Or.inr ⟨hnone, rfl⟩)
    | invalidGuardExpression hc htransition htext hg hguard hne hover =>
      have hguarded : isGuarded s node = true := by simp [isGuarded, htransition, htext]
      have hname := List.mem_map_of_mem (f := s.nameOf) (List.mem_filter.2 ⟨hg, hguard⟩)
      exact Or.inr ⟨⟨hc, hguarded, ⟨_, hname, hne⟩, hover⟩, rfl⟩
  · rintro ((⟨earlier, hturn, hbreaks⟩ | ⟨hnone, heq⟩) | ⟨⟨hc, hguarded, ⟨n, hn, hne⟩, hover⟩, rfl⟩)
    · exact .child hturn hbreaks
    · cases heq
      exact .missingInitialState hnone
    · obtain ⟨g, hg, rfl⟩ := List.mem_map.1 hn
      obtain ⟨hg, hguard⟩ := List.mem_filter.1 hg
      simp only [isGuarded, Bool.and_eq_true, decide_eq_true_iff] at hguarded
      exact .invalidGuardExpression hc hguarded.1 hguarded.2 hg hguard hne hover

variable (s typeName report t) in
/-- The check of a machine lists the rules that it breaks. -/
theorem lists_checkMachine :
    Lists id (fun f => MachineBreaks s t f.1 f.2) report (checkMachine s t typeName report) := by
  let p := passOf s typeName report (s.children t)
  have hmissing : (!p.hasInitialState) = true ↔
      ∀ c ∈ s.children t, s.metaType? c ≠ some .initialState := by
    rw [Bool.not_eq_true', ← Bool.not_eq_true, hasInitialState_passOf]
    push Not
    rfl
  have hinitial : Lists id (fun f => (!p.hasInitialState) = true ∧
      f = (t, Code.missingInitialState)) p.report (addIf (!p.hasInitialState) t
        Code.missingInitialState (missingInitialStateMessage typeName) p.report) :=
    Report.lists_addIf id (x := (t, Code.missingInitialState)) rfl _ _ _
  refine (((lists_passOf s typeName report t).trans hinitial ?_).trans
    (lists_misguarded s typeName report t _) ?_).congr fun f => ?_
  · rintro f ⟨earlier, -, hbreaks⟩ ⟨-, rfl⟩
    have hfresh : Code.missingInitialState ∉ childCodes := by decide
    exact hfresh hbreaks.code_mem
  · rintro f hbefore ⟨-, hcode⟩
    have hfresh : Code.invalidGuardExpression ∉ Code.missingInitialState :: childCodes := by decide
    rw [← hcode] at hfresh
    rcases hbefore with ⟨earlier, -, hbreaks⟩ | ⟨-, rfl⟩
    · exact hfresh (.tail _ hbreaks.code_mem)
    · exact hfresh (.head _)
  · rw [hmissing]
    exact machineBreaks_iff.symm

/-- The rules on a type are two on its name, and those on its machine. -/
theorem breaks_iff {before : List Path} : Breaks s before t node code ↔
    ((before.map s.nameOf).contains (s.nameOf t) = true ∧
        (node, code) = (t, Code.duplicateComponentType) ∨
      (!isClassName (s.nameOf t)) = true ∧ (node, code) = (t, Code.invalidClassName)) ∨
      MachineBreaks s t node code := by
  simp only [List.contains_eq_mem, List.mem_map, decide_eq_true_iff, Bool.not_eq_true']
  constructor
  · intro h
    cases h with
    | duplicateComponentType hu hname => exact Or.inl (Or.inl ⟨⟨_, hu, hname⟩, rfl⟩)
    | invalidClassName hclass => exact Or.inl (Or.inr ⟨hclass, rfl⟩)
    | machine hmachine => exact Or.inr hmachine
  · rintro ((⟨⟨u, hu, hname⟩, heq⟩ | ⟨hclass, heq⟩) | hmachine)
    · cases heq
      exact .duplicateComponentType hu hname
    · cases heq
      exact .invalidClassName hclass
    · exact .machine hmachine

variable (s) in
/-- The check of a type lists the rules that it breaks. -/
theorem lists_checkType (before : List Path) (t : Path) (report : Report) :
    Lists id (fun f => Breaks s before t f.1 f.2) report
      (checkType s (before.map s.nameOf, report) t).2 := by
  have hname : Lists id (fun f => (before.map s.nameOf).contains (s.nameOf t) = true ∧
      f = (t, Code.duplicateComponentType)) report _ :=
    Report.lists_addIf id rfl _ (duplicateTypeMessage (s.nameOf t) t) _
  have hclass : ∀ r : Report, Lists id (fun f => (!isClassName (s.nameOf t)) = true ∧
      f = (t, Code.invalidClassName)) r _ := fun r =>
    Report.lists_addIf id rfl _ (invalidClassNameMessage (s.nameOf t) t) r
  refine (((hname.trans (hclass _) ?_).trans
    (lists_checkMachine s (s.nameOf t) _ t) ?_)).congr fun f => breaks_iff.symm
  · rintro f ⟨-, rfl⟩ ⟨-, heq⟩
    have hcode : Code.duplicateComponentType ≠ Code.invalidClassName := by decide
    exact hcode (congrArg Prod.snd heq)
  · intro f htype hmachine
    have hfresh : ∀ code ∈ [Code.duplicateComponentType, Code.invalidClassName],
        code ∉ machineCodes := by decide
    refine hfresh f.2 ?_ hmachine.code_mem
    rcases htype with ⟨-, rfl⟩ | ⟨-, rfl⟩
    · exact .head _
    · exact .tail _ (.head _)

variable (s) in
/-- The names that a type is compared with are those of the types before it. -/
theorem names_foldl_checkType (before : List Path) :
    (before.foldl (checkType s) ([], .empty .behavior)).1 = before.map s.nameOf := by
  have hnames : (before.foldl (checkType s) ([], .empty .behavior)).1 =
      [] ++ (before.filter fun _ => true).map s.nameOf :=
    view_foldl_filter Prod.fst (fun _ => true) s.nameOf (fun _ _ => rfl) before _
  rwa [List.nil_append, List.filter_true] at hnames

variable (s) in
/-- The check of all types lists the rules that they break, with the place of the type. -/
theorem lists_checkBehavior (types : List Path) : Lists (fun y : ℕ × Path × String => y.2)
    (fun y => ∃ before t, before ++ [t] <+: types ∧ before.length = y.1 ∧
      Breaks s before t y.2.1 y.2.2) (.empty .behavior) (checkBehavior s types) := by
  have hstep : ∀ before t, Lists id (fun f => Breaks s before t f.1 f.2)
      (before.foldl (checkType s) ([], .empty .behavior)).2
      (checkType s (before.foldl (checkType s) ([], .empty .behavior)) t).2 := by
    intro before t
    have hcheck := lists_checkType s before t
      (before.foldl (checkType s) ([], .empty .behavior)).2
    rwa [← names_foldl_checkType s before] at hcheck
  exact Report.lists_foldl Prod.snd hstep types

end

end Behavior

/-- **Behaviour is reported exactly where a rule is broken.**  Each place in the list of component
types has one finding for each rule that its type, or a child of it, breaks there, and no other
finding is reported. -/
theorem checkBehavior_reports_broken_rules (s : Store) (types : List Path) :
    ∃ findings : List (ℕ × Path × String), findings.Nodup ∧
      (∀ i node code, (i, node, code) ∈ findings ↔
        ∃ before t, before ++ [t] <+: types ∧ before.length = i ∧
          Behavior.Breaks s before t node code) ∧
      (checkBehavior s types).findings = findings.map Prod.snd := by
  obtain ⟨findings, hnodup, hmem, heq⟩ := Behavior.lists_checkBehavior s types
  exact ⟨findings, hnodup, fun i node code => hmem (i, node, code), heq⟩

end Rendezvous
