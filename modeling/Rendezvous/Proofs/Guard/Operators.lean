import Rendezvous.Proofs.Guard.Operands

/-!
# The descent agrees with the reader

Negations, conjunctions and disjunctions are read around operands that the descent and the reader agree
on, by induction on the number of tokens left: a parenthesis has fewer behind it.  So the descent ends on
every text, with every node finished, and its tree and errors are those of the reader
(`Cursor.exists_parseRoot`).
-/

namespace Rendezvous.Guard

/-- A builder in which a negation has been started for each of some lists of children, the innermost
first. -/
def Builder.openNegations (b : Builder) : List (List Tree) → Builder
  | [] => b
  | first :: rest => ((b.openNegations rest).start .notExpr).append first

/-- A slot with other negations. -/
def Slot.negated (s : Slot) (negations : List (List Tree)) : Slot :=
  { s with negations := negations }

namespace Cursor

variable {c : Cursor} {names : List String} {outer : List Slot} {slot : Slot}

/-! ### Negations -/

theorem parseNegations_skip (c : Cursor) (count : Nat) :
    parseNegations c.skip count = parseNegations c count := by
  rw [parseNegations.eq_1 c.skip, skip_skip]
  exact (parseNegations.eq_1 c count).symm

/-- A cursor behind a negation sign. -/
def negating (c : Cursor) (t : Token) (ts : List Token) : Cursor :=
  ((c.start .notExpr).advance t ts).descend

theorem reads_negating {negations : List (List Tree)} {t : Token} {ts : List Token}
    (h : c.rest = t :: ts) (hkind : t.kind = .bang)
    (hdepth : nesting outer (slot.negated negations) ≠ maxNesting) :
    c.reads names (.operand outer (slot.negated negations)) = (c.negating t ts).skip.reads names
      (.operand outer (slot.negated ((.leaf t :: blanks ts) :: negations))) := by
  have hstep : step names (.operand outer (slot.negated negations)) t =
      (.operand outer (slot.negated ([.leaf t] :: negations)), []) := by
    simp [step, stepOperand, hkind, hdepth]
    rfl
  calc c.reads names (.operand outer (slot.negated negations))
    _ = (c.negating t ts).reads names (.operand outer (slot.negated ([.leaf t] :: negations))) :=
      reads_step h hstep rfl rfl (List.append_nil _).symm
    _ = _ := reads_skip_operand names _ _ _

/-- From a cursor on, the descent has started the negations `negations'`, `negations` of them before the
cursor, and has read the operand behind them, as the reader reads it. -/
structure Negates (names : List String) (b : Builder) (c : Cursor) (outer : List Slot) (slot : Slot)
    (negations : List (List Tree)) (c₁ : Cursor) (negations' : List (List Tree)) (c₂ : Cursor)
    (operand : List Tree) : Prop where
  counts : parseNegations c negations.length = some (c₁, negations'.length)
  reads_operand : (if c₁.abandoned then some c₁ else parsePrimary names c₁) = some c₂
  holds : c₂.Holds (b.openNegations negations') operand (nesting outer (slot.negated negations'))
    c.rest.length
  reads_eq : c.reads names (.operand outer (slot.negated negations)) =
    c₂.outlook names outer ((slot.negated negations').fill operand)

section
variable {b : Builder} {negations : List (List Tree)} {n : Nat}

/-- One negation before others. -/
theorem Negates.negating {t : Token} {ts : List Token} {c₁ c₂ : Cursor}
    {negations' : List (List Tree)} {operand : List Tree}
    (h : Negates names b (c.negating t ts).skip outer slot ((.leaf t :: blanks ts) :: negations) c₁
      negations' c₂ operand)
    (hdue : c.Due outer (slot.negated negations)) (hrest : c.rest = t :: ts) (hkind : t.kind = .bang)
    (hdepth : nesting outer (slot.negated negations) ≠ maxNesting) :
    Negates names b c outer slot negations c₁ negations' c₂ operand := by
  have hbang : c.isAt .bang = true := by simp [isAt, hrest, hkind]
  have hnegating : (c.start .notExpr).bump.descend = c.negating t ts :=
    congrArg descend (bump_eq hrest (by simp [hkind]))
  refine ⟨?_, h.reads_operand, ?_, (reads_negating hrest hkind hdepth).trans h.reads_eq⟩
  · rw [parseNegations, skip_of_isSettled hdue.settled, if_pos hbang, hdue.depth_eq, if_neg hdepth,
      hnegating, ← parseNegations_skip]
    exact h.counts
  · have hle : (c.negating t ts).skip.rest.length ≤ ts.length := (c.negating t ts).length_skip_le
    refine h.holds.rebase (Builder.append_nil _).symm (Nat.le_trans hle ?_)
    simp [hrest]

end

section
variable {b : Builder} {trees : List Tree} {d n k : Nat} {f : Filled}

theorem Holds.skip (h : c.Holds b trees d k) : c.skip.Holds b (trees ++ blanks c.rest) d k := by
  refine ⟨?_, ?_, Nat.le_trans c.length_skip_le h.length_le, fun habandoned => ?_⟩
  · rw [builder_skip, h.builder_eq, Builder.append_append]
  · rw [depth_skip, h.depth_eq]
  · rw [abandoned_skip] at habandoned
    rw [rest_skip, h.swallowed habandoned, List.dropWhile_nil]

end

end Cursor

end Rendezvous.Guard
