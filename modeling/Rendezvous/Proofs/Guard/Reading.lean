import Mathlib.Data.List.Forall2
import Rendezvous.Guard.Grammar
import Rendezvous.Proofs.Guard.Outline

/-!
# Guards are read by the grammar

The reader of guards keeps trees, recovers from errors and never stops; the outline of a text
(`Outline`) keeps expressions and stops at the first token that does not fit.  A state `Shows` an
outline when the two hold the same operands.  As long as the outline goes on, the reader reports
nothing and shows it (`State.Shows.advance`); when it stops, the reader reports an error
(`State.Shows.causes_ne_nil`).  So the reader finds no error exactly in the derivable texts, where
the tree lowers to the derived expression (`readFrom_of_some`, `readFrom_of_none`,
`read_eq_ok_iff`).
-/

namespace Rendezvous.Guard

/-! ## Lowering neighbouring trees -/

namespace Tree

theorem lowerOperands_append (ts us : List Tree) :
    lowerOperands (ts ++ us) = lowerOperands ts ++ lowerOperands us := by
  induction ts with
  | nil => rw [lowerOperands, List.nil_append, List.nil_append]
  | cons t ts ih =>
    rw [List.cons_append, lowerOperands, lowerOperands, ih]
    split <;> rfl

@[simp] theorem lowerOperands_leaf (t : Token) : lowerOperands [leaf t] = [] := by
  simp [lowerOperands, isExpr]

theorem lowerOperands_node {kind : NodeKind} (hkind : kind.isExpr = true) (children : List Tree) :
    lowerOperands [node kind children] = [combine? kind children (lowerOperands children)] := by
  simp [lowerOperands, lower?, isExpr, hkind]

theorem lowerOperands_append_leaf (ts : List Tree) (t : Token) :
    lowerOperands (ts ++ [leaf t]) = lowerOperands ts := by
  rw [lowerOperands_append, lowerOperands_leaf, List.append_nil]

end Tree

open Guard.Tree (lowerOperands lowerOperands_append lowerOperands_leaf lowerOperands_node
  lowerOperands_append_leaf)

/-- The children of an open operation and the left operand that they stand for. -/
def ShowsLeft (children : Option (List Tree)) (a : Option Expr) : Prop :=
  children.map lowerOperands = a.map fun e => [some e]

/-- Closing a binary operation around its right operand. -/
theorem lowerOperands_wrap {kind : NodeKind} {op : Expr → Expr → Expr} (hkind : kind.isExpr = true)
    (hcombine : ∀ children a b, Tree.combine? kind children [some a, some b] = some (op a b))
    {first : Option (List Tree)} {a : Option Expr} (hfirst : ShowsLeft first a) {last : List Tree}
    {e : Expr} (hlast : lowerOperands last = [some e]) :
    lowerOperands (wrap kind first last) = [some (join op a e)] := by
  obtain _ | children := first
  · obtain rfl : a = none := Option.map_eq_none_iff.1 hfirst.symm
    exact hlast
  · obtain ⟨x, rfl, hx⟩ := Option.map_eq_some_iff.1 hfirst.symm
    rw [wrap, lowerOperands_node hkind, lowerOperands_append, ← hx, hlast]
    exact congrArg (fun b => [b]) (hcombine _ x e)

/-- Closing negations around an operand. -/
theorem lowerOperands_negate {negations : List (List Tree)}
    (hbangs : ∀ children ∈ negations, lowerOperands children = []) {operand : List Tree} {e : Expr}
    (hoperand : lowerOperands operand = [some e]) :
    lowerOperands (negate negations operand) = [some (negateTimes negations.length e)] := by
  induction negations generalizing operand e with
  | nil => exact hoperand
  | cons first rest ih =>
    have hinner : lowerOperands (wrap .notExpr (some first) operand) = [some (.not e)] := by
      rw [wrap, lowerOperands_node rfl, lowerOperands_append, hbangs first (.head rest), hoperand]
      rfl
    exact ih (fun children h => hbangs children (.tail first h)) hinner

/-! ## States and outlines -/

/-- A slot holds the operands of a level. -/
structure Slot.Shows (s : Slot) (l : Level) : Prop where
  lead : lowerOperands s.lead = []
  disjunction : ShowsLeft s.disjunction l.disjunction
  conjunction : ShowsLeft s.conjunction l.conjunction
  bangs : ∀ children ∈ s.negations, lowerOperands children = []
  negations : s.negations.length = l.negations

/-- A filled level holds the operand `e` and what waits for it. -/
structure Filled.Shows (f : Filled) (a : Option Expr) (e : Expr) : Prop where
  lead : lowerOperands f.lead = []
  disjunction : ShowsLeft f.disjunction a
  operand : lowerOperands f.operand = [some e]

/-- A state holds the operands of an outline. -/
inductive State.Shows : State → Outline → Prop
  | operand {outer : List Slot} {levels : List Level} {s : Slot} {l : Level} :
      List.Forall₂ Slot.Shows outer levels → s.Shows l → depth levels + l.negations ≤ maxNesting →
      State.Shows (.operand outer s) (.operand levels l)
  | operator {outer : List Slot} {levels : List Level} {f : Filled} {a : Option Expr} {e : Expr} :
      List.Forall₂ Slot.Shows outer levels → f.Shows a e → depth levels ≤ maxNesting →
      State.Shows (.operator outer f) (.operator levels a e)

namespace Slot.Shows

variable {s : Slot} {l : Level}

theorem opened {lead : List Tree} (h : lowerOperands lead = []) :
    (Slot.opened lead).Shows .bare :=
  ⟨h, rfl, rfl, by simp [Slot.opened], rfl⟩

/-- Whitespace is no operand. -/
theorem push (h : s.Shows l) (t : Token) : (s.push (.leaf t)).Shows l := by
  obtain ⟨hlead, hdisjunction, hconjunction, hbangs, hnegations⟩ := h
  unfold Slot.push
  split
  · next first rest heq =>
    rw [heq] at hbangs hnegations
    refine ⟨hlead, hdisjunction, hconjunction, ?_, hnegations⟩
    intro children hchildren
    obtain rfl | hrest := List.mem_cons.1 hchildren
    · rw [lowerOperands_append_leaf]
      exact hbangs first (.head rest)
    · exact hbangs children (.tail first hrest)
  · next first heq hfirst =>
    refine ⟨hlead, hdisjunction, ?_, hbangs, hnegations⟩
    rw [ShowsLeft, hfirst] at hconjunction
    rw [ShowsLeft, ← hconjunction, Option.map_some, Option.map_some, lowerOperands_append_leaf]
  · next first heq hnone hfirst =>
    refine ⟨hlead, ?_, hconjunction, hbangs, hnegations⟩
    rw [ShowsLeft, hfirst] at hdisjunction
    rw [ShowsLeft, ← hdisjunction, Option.map_some, Option.map_some, lowerOperands_append_leaf]
  · refine ⟨?_, hdisjunction, hconjunction, hbangs, hnegations⟩
    rw [lowerOperands_append_leaf, hlead]

theorem openNegation (h : s.Shows l) (t : Token) : (s.openNegation (.leaf t)).Shows l.negate := by
  refine ⟨h.lead, h.disjunction, h.conjunction, ?_, congrArg (· + 1) h.negations⟩
  intro children hchildren
  obtain rfl | hrest := List.mem_cons.1 hchildren
  · exact lowerOperands_leaf t
  · exact h.bangs children hrest

/-- An operand completes the conjunction of its level. -/
theorem fill (h : s.Shows l) {operand : List Tree} {e : Expr}
    (hoperand : lowerOperands operand = [some e]) :
    (s.fill operand).Shows l.disjunction (l.fill e) := by
  refine ⟨h.lead, h.disjunction, ?_⟩
  rw [Level.fill, ← h.negations]
  exact lowerOperands_wrap rfl (fun _ _ _ => rfl) h.conjunction
    (lowerOperands_negate h.bangs hoperand)

end Slot.Shows

namespace Filled.Shows

variable {f : Filled} {a : Option Expr} {e : Expr}

theorem push (h : f.Shows a e) (t : Token) : (f.push (.leaf t)).Shows a e :=
  ⟨h.lead, h.disjunction, (lowerOperands_append_leaf f.operand t).trans h.operand⟩

theorem alternatives (h : f.Shows a e) : lowerOperands f.alternatives = [some (join .or a e)] :=
  lowerOperands_wrap rfl (fun _ _ _ => rfl) h.disjunction h.operand

theorem children (h : f.Shows a e) : lowerOperands f.children = [some (join .or a e)] := by
  rw [Filled.children, lowerOperands_append, h.lead, h.alternatives, List.nil_append]

theorem conjoin (h : f.Shows a e) (t : Token) : (f.conjoin (.leaf t)).Shows ⟨a, some e, 0⟩ := by
  refine ⟨h.lead, h.disjunction, ?_, by simp [Filled.conjoin], rfl⟩
  exact congrArg some ((lowerOperands_append_leaf f.operand t).trans h.operand)

theorem disjoin (h : f.Shows a e) (t : Token) :
    (f.disjoin (.leaf t)).Shows ⟨some (join .or a e), none, 0⟩ := by
  refine ⟨h.lead, ?_, rfl, by simp [Filled.disjoin], rfl⟩
  exact congrArg some ((lowerOperands_append_leaf f.alternatives t).trans h.alternatives)

/-- A closed parenthesis is an operand of the level around it. -/
theorem close (h : f.Shows a e) (t : Token) :
    lowerOperands [.node .parenExpr (f.children ++ [.leaf t])] = [some (join .or a e)] := by
  rw [lowerOperands_node rfl, lowerOperands_append_leaf, h.children]
  rfl

end Filled.Shows

/-- The reader counts the negations and parentheses that the outline has open. -/
theorem nesting_eq {outer : List Slot} {levels : List Level} {s : Slot} {l : Level}
    (houter : List.Forall₂ Slot.Shows outer levels) (hs : s.Shows l) :
    nesting outer s = depth levels + l.negations := by
  have hlevels : outer.length + openNegations outer = depth levels := by
    induction houter with
    | nil => rfl
    | cons h _ ih =>
      rw [List.length_cons, openNegations, depth, ← ih, h.negations]
      omega
  rw [nesting, openNegations, ← hlevels, hs.negations]
  omega

/-! ## Steps -/

section
variable {names : List String}

namespace State.Shows

theorem initial : State.Shows .initial .initial :=
  .operand .nil (.opened rfl) (Nat.zero_le maxNesting)

/-- Whitespace changes nothing. -/
theorem skip {state : State} {o : Outline} (h : state.Shows o) {t : Token}
    (hkind : t.kind = .whitespace) :
    (step names state t).1.Shows o ∧ (step names state t).2 = [] := by
  cases h with
  | operand houter hs hdepth =>
    simp only [step, stepOperand, hkind, and_true]
    exact .operand houter (hs.push t) hdepth
  | operator houter hf hdepth =>
    simp only [step, stepOperator, hkind, and_true]
    exact .operator houter (hf.push t) hdepth

/-- **While the outline goes on, the reader shows it and reports nothing.** -/
theorem advance {state : State} {o o' : Outline} (h : state.Shows o) {t : Token}
    (hstep : Outline.step names maxNesting o t = some o') :
    (step names state t).1.Shows o' ∧ (step names state t).2 = [] := by
  rcases Outline.step_cases hstep with ⟨levels, l, rfl, hkind, hname, rfl⟩ |
    ⟨levels, l, rfl, hkind, hdepth, rfl⟩ | ⟨levels, l, rfl, hkind, hdepth, rfl⟩ |
    ⟨levels, a, e, rfl, hkind, rfl⟩ | ⟨levels, a, e, rfl, hkind, rfl⟩ |
    ⟨l, levels, a, e, rfl, hkind, rfl⟩
  · -- a name
    obtain ⟨houter, hs, hlimit⟩ := h
    simp only [step, stepOperand, hkind, hname, if_true, and_true]
    refine .operator houter (hs.fill ?_) (by omega)
    obtain ⟨_, text⟩ := t
    subst hkind
    exact lowerOperands_node rfl _
  · -- a negation
    obtain ⟨houter, hs, hlimit⟩ := h
    have hroom := (nesting_eq houter hs).trans_ne (Nat.ne_of_lt hdepth)
    simp only [step, stepOperand, hkind, hroom, if_false, and_true]
    exact .operand houter (hs.openNegation t) (by rw [Level.negations_negate]; omega)
  · -- an opening parenthesis
    obtain ⟨houter, hs, hlimit⟩ := h
    have hroom := (nesting_eq houter hs).trans_ne (Nat.ne_of_lt hdepth)
    simp only [step, stepOperand, hkind, hroom, if_false, and_true]
    exact .operand (.cons hs houter) (.opened (lowerOperands_leaf t)) hdepth
  · -- a conjunction
    obtain _ | ⟨houter, hf, hlimit⟩ := h
    simp only [step, stepOperator, hkind, and_true]
    exact .operand houter (hf.conjoin t) hlimit
  · -- a disjunction
    obtain _ | ⟨houter, hf, hlimit⟩ := h
    simp only [step, stepOperator, hkind, and_true]
    exact .operand houter (hf.disjoin t) hlimit
  · -- a closing parenthesis
    obtain _ | ⟨houter, hf, hlimit⟩ := h
    obtain _ | ⟨hs, houter⟩ := houter
    simp only [step, stepOperator, hkind, and_true]
    rw [depth] at hlimit
    exact .operator houter (hs.fill (hf.close t)) (by omega)

/-- **A token on which the outline stops is reported.** -/
theorem causes_ne_nil {state : State} {o : Outline} (h : state.Shows o) {t : Token}
    (hkind : t.kind ≠ .whitespace) (hstep : Outline.step names maxNesting o t = none) :
    (step names state t).2 ≠ [] := by
  cases h with
  | operand houter hs hlimit =>
    -- where the outline has no room left, the reader's count is full
    have hfull := fun hle => (nesting_eq houter hs).trans (Nat.le_antisymm hlimit hle)
    unfold step stepOperand
    cases htoken : t.kind with
    | whitespace => exact absurd htoken hkind
    | word =>
      have hname : String.ofList t.text ∉ names := by simpa [Outline.step, htoken] using hstep
      simp [hname]
    | bang => simp [hfull (by simpa [Outline.step, htoken] using hstep)]
    | leftParen => simp [hfull (by simpa [Outline.step, htoken] using hstep)]
    | error | amp | pipe | rightParen => exact List.cons_ne_nil _ _
  | operator houter hf hlimit =>
    unfold step stepOperator
    cases htoken : t.kind with
    | whitespace => exact absurd htoken hkind
    | amp | pipe => simp [Outline.step, htoken] at hstep
    | rightParen =>
      cases houter with
      | nil => exact List.cons_ne_nil _ _
      | cons hs houter => simp [Outline.step, htoken] at hstep
    | word | bang | leftParen | error => simp

end State.Shows

/-! ## Whole texts -/

/-- The end of a text, when its outline has an expression. -/
theorem finish_of_some {state : State} {o : Outline} (h : state.Shows o) {e : Expr}
    (hexpr : o.expr? = some e) :
    lowerOperands (finish state).1 = [some e] ∧ (finish state).2 = [] := by
  cases h with
  | operand => cases hexpr
  | operator houter hf _ =>
    cases houter with
    | nil =>
      obtain rfl := Option.some.inj hexpr
      exact ⟨hf.children, rfl⟩
    | cons => cases hexpr

/-- The end of a text, when its outline has no expression. -/
theorem finish_of_none {state : State} {o : Outline} (h : state.Shows o) (hexpr : o.expr? = none) :
    (finish state).2 ≠ [] := by
  cases h with
  | operand =>
    unfold finish
    dsimp only
    split <;> exact List.cons_ne_nil _ _
  | operator houter _ _ =>
    cases houter with
    | nil => cases hexpr
    | cons => exact List.cons_ne_nil _ _

theorem significant_cons_whitespace {t : Token} (h : t.kind = .whitespace) (ts : List Token) :
    significant (t :: ts) = significant ts := by
  simp [significant, h]

theorem significant_cons {t : Token} (h : t.kind ≠ .whitespace) (ts : List Token) :
    significant (t :: ts) = t :: significant ts := by
  simp [significant, h]

/-- The reader goes on without a report, or the outline stops at the token. -/
theorem State.Shows.next (names : List String) {state : State} {o : Outline} (h : state.Shows o)
    (t : Token) :
    (∃ o', (step names state t).1.Shows o' ∧ (step names state t).2 = [] ∧
        ∀ ts, Outline.run names maxNesting o (significant (t :: ts)) =
          Outline.run names maxNesting o' (significant ts)) ∨
      t.kind ≠ .whitespace ∧ Outline.step names maxNesting o t = none := by
  by_cases hkind : t.kind = .whitespace
  · have hskip : (step names state t).1.Shows o ∧ (step names state t).2 = [] := h.skip hkind
    exact Or.inl ⟨o, hskip.1, hskip.2, fun ts => by rw [significant_cons_whitespace hkind]⟩
  · cases hstep : Outline.step names maxNesting o t with
    | some o' =>
      obtain ⟨hshows, hcauses⟩ := h.advance hstep
      refine Or.inl ⟨o', hshows, hcauses, fun ts => ?_⟩
      rw [significant_cons hkind, Outline.run_cons, hstep, Option.bind_some]
    | none => exact Or.inr ⟨hkind, rfl⟩

/-- Reading reports nothing when the outline has an expression, and its tree lowers to it. -/
theorem readFrom_of_some {state : State} {o : Outline} {ts : List Token} {e : Expr}
    (h : state.Shows o)
    (hrun : (Outline.run names maxNesting o (significant ts)).bind Outline.expr? = some e)
    (offset : Nat) :
    (readFrom names offset state ts).errors = [] ∧
      (readFrom names offset state ts).tree.lowerRoot? = some e := by
  induction ts generalizing offset state o with
  | nil =>
    obtain ⟨htree, hcauses⟩ := finish_of_some h hrun
    simp only [readFrom, hcauses, SyntaxError.at, List.map_nil, true_and]
    rw [Tree.lowerRoot?, Tree.children, htree]
  | cons t ts ih =>
    obtain ⟨o', hshows, hcauses, hfrom⟩ | ⟨hkind, hstep⟩ := h.next names t
    · rw [hfrom] at hrun
      simpa only [readFrom, hcauses, SyntaxError.at, List.map_nil, List.nil_append] using
        ih hshows hrun _
    · rw [significant_cons hkind, Outline.run_cons, hstep] at hrun
      cases hrun

/-- Reading reports an error when the outline stops or ends without an expression. -/
theorem readFrom_of_none {state : State} {o : Outline} {ts : List Token} (h : state.Shows o)
    (hrun : (Outline.run names maxNesting o (significant ts)).bind Outline.expr? = none)
    (offset : Nat) : (readFrom names offset state ts).errors ≠ [] := by
  induction ts generalizing offset state o with
  | nil => simpa [readFrom, SyntaxError.at] using finish_of_none h hrun
  | cons t ts ih =>
    simp only [readFrom, ne_eq, List.append_eq_nil_iff, not_and]
    intro hcauses
    obtain ⟨o', hshows, -, hfrom⟩ | ⟨hkind, hstep⟩ := h.next names t
    · rw [hfrom] at hrun
      exact ih hshows hrun _
    · exact absurd (List.map_eq_nil_iff.1 hcauses) (h.causes_ne_nil hkind hstep)

end

namespace Grammar

variable (g : Grammar) (text : String)

/-- What the outline of a text says about reading it. -/
theorem run_significant_eq_some_iff (e : Expr) :
    (Outline.run g.names maxNesting .initial (significant (tokens text.toList))).bind
        Outline.expr? = some e ↔ g.read text = .ok e := by
  constructor
  · intro hrun
    obtain ⟨herrors, htree⟩ := readFrom_of_some State.Shows.initial hrun 0
    simp only [read, readTree, Reading.isClean, herrors, List.isEmpty_nil, if_true, htree]
  · intro hread
    cases hrun : (Outline.run g.names maxNesting .initial
        (significant (tokens text.toList))).bind Outline.expr? with
    | none =>
      have herrors := readFrom_of_none State.Shows.initial hrun 0
      simp [read, readTree, Reading.isClean, herrors] at hread
    | some e' =>
      obtain ⟨herrors, htree⟩ := readFrom_of_some State.Shows.initial hrun 0
      simp only [read, readTree, Reading.isClean, herrors, List.isEmpty_nil, if_true, htree] at hread
      rw [Except.ok.inj hread]

/-- **The texts without errors are the derivable ones, and reading gives the derived expression.** -/
theorem read_eq_ok_iff (e : Expr) :
    g.read text = .ok e ↔
      Derives g.names maxNesting .disjunction (significant (tokens text.toList)) e :=
  (run_significant_eq_some_iff g text e).symm.trans expr?_run_eq_some_iff

/-- Conjunctions bind tighter than disjunctions, and parentheses leave no trace. -/
example : (Grammar.mk ["a", "b"]).read "a | !(b) & a" =
    .ok (.or (.guard "a") (.and (.not (.guard "b")) (.guard "a"))) := by cbv

/-- A text is rejected only with an error in its tree. -/
theorem errors_ne_nil_of_read {err : GuardSyntaxError} (h : g.read text = .error err) :
    (g.readTree text).errors ≠ [] := by
  refine readFrom_of_none State.Shows.initial ?_ 0
  refine Option.eq_none_iff_forall_ne_some.2 fun e hrun => ?_
  rw [(run_significant_eq_some_iff g text e).1 hrun] at h
  cases h

/-- **Reading accepts exactly the texts that the grammar derives with at most `maxNesting` negations
and parentheses open at once.**  It gives the only expression that the text has, whose guards are
the words of the text from left to right, and every other text is rejected with an error in its
tree. -/
theorem reads_exactly_the_derived_expression :
    (∀ e, g.read text = .ok e ↔
      Derives g.names maxNesting .disjunction (significant (tokens text.toList)) e) ∧
    (∀ e, g.read text = .ok e →
      (∀ d e', Derives g.names d .disjunction (significant (tokens text.toList)) e' → e' = e) ∧
      e.guards = wordsOf (tokens text.toList)) ∧
    (∀ err, g.read text = .error err → (g.readTree text).errors ≠ []) := by
  refine ⟨read_eq_ok_iff g text, fun e hread => ?_, fun err => errors_ne_nil_of_read g text⟩
  have hderives := (read_eq_ok_iff g text e).1 hread
  refine ⟨fun d e' h => h.unique hderives, ?_⟩
  rw [hderives.guards_eq, wordsOf_significant]

end Grammar

end Rendezvous.Guard
