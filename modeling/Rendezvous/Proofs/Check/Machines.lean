import Rendezvous.Proofs.Check.Rules

/-!
# State machines without findings

A machine that passes breaks none of the rules (`not_machineBreaks_of_checkMachine`).  So it has an
initial state among its children (`exists_initialState_of_checkMachine`), each of its transitions has a
source and a destination (`isSome_pointer?_of_checkMachine`), and its ports have distinct names
(`port_eq_of_nameOf_eq`).  Whether the pointers lead to states is not checked.
-/

namespace Rendezvous

namespace Behavior

variable {s : Store} {t : Path} {typeName : String} {report : Report}

theorem not_machineBreaks_of_checkMachine (h : checkMachine s t typeName report = report)
    {node : Path} {code : String} : ¬ MachineBreaks s t node code :=
  (lists_checkMachine s typeName report t).not_of_silent (congrArg Report.findings h) (node, code)

theorem exists_initialState_of_checkMachine (h : checkMachine s t typeName report = report) :
    ∃ c ∈ s.children t, s.metaType? c = some .initialState := by
  by_contra hnone
  push Not at hnone
  exact not_machineBreaks_of_checkMachine h (.missingInitialState hnone)

theorem isSome_pointer?_of_checkMachine (h : checkMachine s t typeName report = report) {c : Path}
    (hc : c ∈ s.children t) (htransition : s.isTransition c = true) :
    (s.pointer? c Pointer.source).isSome = true ∧
      (s.pointer? c Pointer.destination).isSome = true := by
  obtain ⟨earlier, hturn⟩ := exists_turn_iff_mem.2 hc
  constructor
  · by_contra hnone
    rw [Bool.not_eq_true, Option.isSome_eq_false_iff, Option.isNone_iff_eq_none] at hnone
    exact not_machineBreaks_of_checkMachine h (.child hturn (.missingSource htransition hnone))
  · by_contra hnone
    rw [Bool.not_eq_true, Option.isSome_eq_false_iff, Option.isNone_iff_eq_none] at hnone
    exact not_machineBreaks_of_checkMachine h (.child hturn (.missingDestination htransition hnone))

/-- The ports of a type without findings have distinct names. -/
theorem port_eq_of_nameOf_eq (h : checkMachine s t typeName report = report) {p q : Path}
    (hp : p ∈ s.children t) (hq : q ∈ s.children t) (hport : s.isPort p = true)
    (hport' : s.isPort q = true) (hname : s.nameOf p = s.nameOf q) : p = q := by
  have hkeeps : ∀ earlier c, earlier ++ [c] <+: s.children t → ¬ Repeats s s.isPort earlier c :=
    fun earlier c hchild hrepeats =>
      not_machineBreaks_of_checkMachine h (.child hchild (.duplicateTransition hrepeats))
  by_contra hne
  rcases exists_turn_after hp hq hne with ⟨earlier, hchild, hmem⟩ | ⟨earlier, hchild, hmem⟩
  · exact hkeeps earlier q hchild ⟨hport', p, hmem, hport, hname⟩
  · exact hkeeps earlier p hchild ⟨hport, q, hmem, hport', hname.symm⟩

end Behavior

end Rendezvous
