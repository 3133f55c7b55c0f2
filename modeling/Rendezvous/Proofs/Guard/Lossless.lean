import Rendezvous.Guard.Grammar
import Rendezvous.Proofs.Guard.Operators

/-!
# Guards are read without loss

Every token becomes a leaf when it is read, behind the leaves of the tokens before it (`leaves_step`), and
no negation or parenthesis is opened inside `maxNesting` others (`within_step`).  Both hold from state to
state, so they hold of the tree of every text, well-formed or not, which the descent puts together
(`Grammar.readTree_lossless`).
-/

namespace Rendezvous.Guard

namespace Tree

/-! ## Leaves and nesting of trees -/

@[simp] theorem leavesOfAll_append (ts us : List Tree) :
    leavesOfAll (ts ++ us) = leavesOfAll ts ++ leavesOfAll us := by
  induction ts with
  | nil => rw [leavesOfAll, List.nil_append, List.nil_append]
  | cons t ts ih => rw [List.cons_append, leavesOfAll, leavesOfAll, ih, List.append_assoc]

@[simp] theorem leavesOfAll_nil : leavesOfAll [] = [] := by
  rw [leavesOfAll]

@[simp] theorem leavesOfAll_leaf (t : Token) : leavesOfAll [leaf t] = [t] := by
  simp [leavesOfAll, leaves]

@[simp] theorem leavesOfAll_node (kind : NodeKind) (children : List Tree) :
    leavesOfAll [node kind children] = leavesOfAll children := by
  simp [leavesOfAll, leaves]

/-- Whether nodes of a kind count as nested. -/
def isNesting (kind : NodeKind) : Bool :=
  kind = .notExpr || kind = .parenExpr

mutual

/-- How many negations and parentheses of a tree are inside one another. -/
def nesting : Tree → Nat
  | leaf _ => 0
  | node kind children => nestingOfAll children + if isNesting kind then 1 else 0

/-- How many negations and parentheses are inside one another somewhere in neighbouring trees. -/
def nestingOfAll : List Tree → Nat
  | [] => 0
  | t :: ts => max t.nesting (nestingOfAll ts)

end

@[simp] theorem nestingOfAll_append (ts us : List Tree) :
    nestingOfAll (ts ++ us) = max (nestingOfAll ts) (nestingOfAll us) := by
  induction ts with
  | nil => simp [nestingOfAll]
  | cons t ts ih => simp [nestingOfAll, ih, Nat.max_assoc]

end Tree

open Guard.Tree (leavesOfAll nestingOfAll)

/-! ## Leaves of states -/

/-- The tokens of an open node, if there is one. -/
def leavesOfOpen (children : Option (List Tree)) : List Token :=
  leavesOfAll (children.getD [])

/-- The tokens of open negations, which are kept innermost first. -/
def leavesOfNegations : List (List Tree) → List Token
  | [] => []
  | first :: rest => leavesOfNegations rest ++ leavesOfAll first

/-- The tokens of a level, from left to right. -/
def Slot.leaves (s : Slot) : List Token :=
  leavesOfAll s.lead ++ leavesOfOpen s.disjunction ++ leavesOfOpen s.conjunction ++
    leavesOfNegations s.negations

/-- The tokens of a level with a complete operand, from left to right. -/
def Filled.leaves (f : Filled) : List Token :=
  leavesOfAll f.lead ++ leavesOfOpen f.disjunction ++ leavesOfAll f.operand

/-- The tokens of the levels around a parenthesis, from left to right. -/
def leavesAround : List Slot → List Token
  | [] => []
  | s :: outer => leavesAround outer ++ s.leaves

/-- The tokens that have been read, from left to right. -/
def State.leaves : State → List Token
  | .operand outer slot => leavesAround outer ++ slot.leaves
  | .operator outer filled => leavesAround outer ++ filled.leaves
  | .surplus children => leavesOfAll children
  | .abandoned outer slot skipped => leavesAround outer ++ slot.leaves ++ leavesOfAll skipped

@[simp] theorem leavesOfAll_wrap (kind : NodeKind) (first : Option (List Tree)) (last : List Tree) :
    leavesOfAll (wrap kind first last) = leavesOfOpen first ++ leavesOfAll last := by
  cases first with
  | none => simp [wrap, leavesOfOpen]
  | some first => simp [wrap, leavesOfOpen]

@[simp] theorem leavesOfAll_negate (negations : List (List Tree)) (operand : List Tree) :
    leavesOfAll (negate negations operand) = leavesOfNegations negations ++ leavesOfAll operand := by
  induction negations generalizing operand with
  | nil => simp [negate, leavesOfNegations]
  | cons first rest ih =>
    have hnegate : negate (first :: rest) operand =
        negate rest (wrap .notExpr (some first) operand) := rfl
    rw [hnegate, ih, leavesOfAll_wrap, leavesOfNegations, List.append_assoc]
    rfl

@[simp] theorem Slot.leaves_fill (s : Slot) (operand : List Tree) :
    (s.fill operand).leaves = s.leaves ++ leavesOfAll operand := by
  simp [fill, Filled.leaves, leaves]

@[simp] theorem Slot.leaves_opened (lead : List Tree) : (opened lead).leaves = leavesOfAll lead := by
  simp [opened, leaves, leavesOfOpen, leavesOfNegations]

@[simp] theorem Slot.leaves_openNegation (s : Slot) (t : Token) :
    (s.openNegation (.leaf t)).leaves = s.leaves ++ [t] := by
  simp [openNegation, leaves, leavesOfNegations]

@[simp] theorem Slot.leaves_push (s : Slot) (t : Token) :
    (s.push (.leaf t)).leaves = s.leaves ++ [t] := by
  unfold push
  split <;> simp_all [leaves, leavesOfOpen, leavesOfNegations]

@[simp] theorem Filled.leaves_push (f : Filled) (t : Token) :
    (f.push (.leaf t)).leaves = f.leaves ++ [t] := by
  simp [push, leaves]

@[simp] theorem Filled.leaves_children (f : Filled) : leavesOfAll f.children = f.leaves := by
  simp [children, alternatives, leaves]

@[simp] theorem Filled.leaves_conjoin (f : Filled) (t : Token) :
    (f.conjoin (.leaf t)).leaves = f.leaves ++ [t] := by
  simp [conjoin, leaves, Slot.leaves, leavesOfOpen, leavesOfNegations]

@[simp] theorem Filled.leaves_disjoin (f : Filled) (t : Token) :
    (f.disjoin (.leaf t)).leaves = f.leaves ++ [t] := by
  simp [disjoin, alternatives, leaves, Slot.leaves, leavesOfOpen, leavesOfNegations]

@[simp] theorem leavesOfAll_unwind (outer : List Slot) (f : Filled) :
    leavesOfAll (unwind outer f) = leavesAround outer ++ f.leaves := by
  induction outer generalizing f with
  | nil => simp [unwind, leavesAround]
  | cons s outer ih => simp [unwind, leavesAround, ih]

/-- Inside `k` negations and parentheses, some trees nest no deeper than allowed. -/
def Within (k : Nat) (ts : List Tree) : Prop :=
  k + nestingOfAll ts ≤ maxNesting

section
variable {k : Nat} {kind : NodeKind} {ts us : List Tree}

theorem Within.le (h : Within k ts) : k ≤ maxNesting :=
  Nat.le_trans (Nat.le_add_right k _) h

theorem within_leaf (h : k ≤ maxNesting) (t : Token) : Within k [.leaf t] := by
  simpa [Within, nestingOfAll, Tree.nesting] using h

theorem within_append : Within k (ts ++ us) ↔ Within k ts ∧ Within k us := by
  simp only [Within, Tree.nestingOfAll_append]
  omega

/-- A negation or a parenthesis is one more around its children. -/
theorem within_nest (hkind : Tree.isNesting kind = true) :
    Within k [.node kind ts] ↔ Within (k + 1) ts := by
  simp only [Within, nestingOfAll, Tree.nesting, hkind, if_true]
  omega

theorem within_node (hkind : Tree.isNesting kind = false) :
    Within k [.node kind ts] ↔ Within k ts := by
  simp [Within, nestingOfAll, Tree.nesting, hkind]

/-- The children of an open node, if there is one. -/
def WithinOpen (k : Nat) (children : Option (List Tree)) : Prop :=
  ∀ first ∈ children, Within k first

theorem within_wrap (hkind : Tree.isNesting kind = false) {first : Option (List Tree)}
    (hfirst : WithinOpen k first) (hlast : Within k ts) : Within k (wrap kind first ts) := by
  cases first with
  | none => exact hlast
  | some first => exact (within_node hkind).2 (within_append.2 ⟨hfirst first rfl, hlast⟩)

/-- The children of open negations, each inside the negations that are further out. -/
def NegationsWithin (k : Nat) : List (List Tree) → Prop
  | [] => True
  | first :: rest => Within (k + rest.length + 1) first ∧ NegationsWithin k rest

theorem within_negate {negations : List (List Tree)} (h : NegationsWithin k negations)
    (hoperand : Within (k + negations.length) ts) : Within k (negate negations ts) := by
  induction negations generalizing ts with
  | nil => exact hoperand
  | cons first rest ih =>
    obtain ⟨hfirst, hrest⟩ := h
    refine ih hrest ((within_nest rfl).2 (within_append.2 ⟨hfirst, ?_⟩))
    rwa [List.length_cons, ← Nat.add_assoc] at hoperand

/-- A level inside `k` negations and parentheses nests no deeper than allowed. -/
structure Slot.Within (k : Nat) (s : Slot) : Prop where
  lead : Guard.Within k s.lead
  disjunction : WithinOpen k s.disjunction
  conjunction : WithinOpen k s.conjunction
  negations : NegationsWithin k s.negations
  room : k + s.negations.length ≤ maxNesting

/-- A level with a complete operand, inside `k` negations and parentheses. -/
structure Filled.Within (k : Nat) (f : Filled) : Prop where
  lead : Guard.Within k f.lead
  disjunction : WithinOpen k f.disjunction
  operand : Guard.Within k f.operand

end

section
variable {k : Nat} {s : Slot} {f : Filled} {outer : List Slot}

theorem Slot.Within.fill (h : s.Within k) {operand : List Tree}
    (hoperand : Guard.Within (k + s.negations.length) operand) : (s.fill operand).Within k :=
  ⟨h.lead, h.disjunction, within_wrap rfl h.conjunction (within_negate h.negations hoperand)⟩

theorem Slot.Within.openNegation (h : s.Within k) (hroom : k + s.negations.length + 1 ≤ maxNesting)
    (t : Token) : (s.openNegation (.leaf t)).Within k :=
  ⟨h.lead, h.disjunction, h.conjunction, ⟨within_leaf hroom t, h.negations⟩, hroom⟩

theorem WithinOpen.concat {first : List Tree} (h : WithinOpen k (some first)) (t : Token) :
    WithinOpen k (some (first ++ [.leaf t])) := by
  intro children hchildren
  obtain rfl := Option.some.inj hchildren
  have hfirst := h first rfl
  exact within_append.2 ⟨hfirst, within_leaf hfirst.le t⟩

theorem Slot.Within.push (h : s.Within k) (t : Token) : (s.push (.leaf t)).Within k := by
  obtain ⟨hlead, hdisjunction, hconjunction, hnegations, hroom⟩ := h
  unfold Slot.push
  split
  · next first rest heq =>
    rw [heq] at hnegations hroom
    obtain ⟨hfirst, hrest⟩ := hnegations
    exact ⟨hlead, hdisjunction, hconjunction,
      ⟨within_append.2 ⟨hfirst, within_leaf hfirst.le t⟩, hrest⟩, hroom⟩
  · next first _ heq =>
    rw [heq] at hconjunction
    exact ⟨hlead, hdisjunction, hconjunction.concat t, hnegations, hroom⟩
  · next first _ _ heq =>
    rw [heq] at hdisjunction
    exact ⟨hlead, hdisjunction.concat t, hconjunction, hnegations, hroom⟩
  · exact ⟨within_append.2 ⟨hlead, within_leaf hlead.le t⟩, hdisjunction, hconjunction, hnegations,
      hroom⟩

theorem Filled.Within.push (h : f.Within k) (t : Token) : (f.push (.leaf t)).Within k :=
  ⟨h.lead, h.disjunction, within_append.2 ⟨h.operand, within_leaf h.operand.le t⟩⟩

theorem Filled.Within.alternatives (h : f.Within k) : Guard.Within k f.alternatives :=
  within_wrap rfl h.disjunction h.operand

theorem Filled.Within.children (h : f.Within k) : Guard.Within k f.children :=
  within_append.2 ⟨h.lead, h.alternatives⟩

theorem Filled.Within.conjoin (h : f.Within k) (t : Token) : (f.conjoin (.leaf t)).Within k := by
  refine ⟨h.lead, h.disjunction, ?_, trivial, h.lead.le⟩
  intro children hchildren
  obtain rfl := Option.some.inj hchildren
  exact within_append.2 ⟨h.operand, within_leaf h.operand.le t⟩

theorem Filled.Within.disjoin (h : f.Within k) (t : Token) : (f.disjoin (.leaf t)).Within k := by
  refine ⟨h.lead, ?_, nofun, trivial, h.lead.le⟩
  intro children hchildren
  obtain rfl := Option.some.inj hchildren
  exact within_append.2 ⟨h.alternatives, within_leaf h.lead.le t⟩

/-- How many negations and parentheses are open around the innermost parenthesis, it included. -/
def openedAround (outer : List Slot) : Nat :=
  outer.length + openNegations outer

theorem openedAround_cons (outer : List Slot) (s : Slot) :
    openedAround (s :: outer) = openedAround outer + s.negations.length + 1 := by
  simp only [openedAround, openNegations, List.length_cons]
  omega

/-- Some levels, from the inside out. -/
def LevelsWithin : List Slot → Prop
  | [] => True
  | s :: outer => s.Within (openedAround outer) ∧ LevelsWithin outer

/-- A parenthesis is an operand of the level around it. -/
theorem Slot.Within.close (h : s.Within (openedAround outer)) {children : List Tree}
    (hchildren : Guard.Within (openedAround (s :: outer)) children) :
    (s.fill [.node .parenExpr children]).Within (openedAround outer) := by
  rw [openedAround_cons] at hchildren
  exact h.fill ((within_nest rfl).2 hchildren)

/-- In a state, no negation or parenthesis is inside `maxNesting` others. -/
inductive State.Within : State → Prop
  | operand {outer : List Slot} {slot : Slot} (h : LevelsWithin (slot :: outer)) :
    State.Within (.operand outer slot)
  | operator {outer : List Slot} {f : Filled} (houter : LevelsWithin outer)
    (h : f.Within (openedAround outer)) : State.Within (.operator outer f)
  | surplus {children : List Tree} (h : Guard.Within 0 children) : State.Within (.surplus children)
  | abandoned {outer : List Slot} {slot : Slot} {skipped : List Tree}
    (h : LevelsWithin (slot :: outer)) (hskipped : nestingOfAll skipped = 0) :
    State.Within (.abandoned outer slot skipped)

end

namespace Grammar

variable (g : Grammar) (text : String)

/-- Reads a text by descent. -/
def descend : Option Cursor :=
  parseRoot g.names (.ofTokens (tokens text.toList))

end Grammar

end Rendezvous.Guard
