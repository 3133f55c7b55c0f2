import Rendezvous.Proofs.Guard.Cursors

/-!
# Operands by descent

Where an operand is due (`Cursor.Due`), the descent and the reader read the same one
(`Cursor.Supplies`): a name, a parenthesis whose alternatives they agree on (`AlternativesSpec`), the
whole rest of a text that goes too deep, or nothing but an error.
-/

namespace Rendezvous.Guard

namespace Cursor

variable {c : Cursor} {names : List String} {outer : List Slot} {slot : Slot}

/-- An operand is due at a cursor, where the reader is in the state `.operand outer slot`. -/
structure Due (c : Cursor) (outer : List Slot) (slot : Slot) : Prop where
  settled : c.IsSettled
  active : c.abandoned = false
  depth_eq : c.depth = nesting outer slot
  valid : c.builder.IsValid
  /-- A text of whitespace has no operand. -/
  expected : c.rest = [] → outer = [] → slot.isBare = false

section
variable {b : Builder} {kind : NodeKind} {trees : List Tree} {d n : Nat}

theorem finish?_eq (h : c.builder = (b.start kind).append trees) :
    c.finish? = some { c with builder := b.append [.node kind trees] } := by
  rw [finish?, h, Builder.finish?_start_append, Option.map_some]

/-- Finishing a node changes nothing else. -/
theorem Holds.finish (h : c.Holds (b.start kind) trees d n) : ∃ c', c.finish? = some c' ∧
    c'.Holds b [.node kind trees] d n ∧ c'.rest = c.rest ∧
      ∀ names outer f, c'.outlook names outer f = c.outlook names outer f :=
  ⟨_, finish?_eq h.builder_eq, ⟨rfl, h.depth_eq, h.length_le, h.swallowed⟩, rfl, fun _ _ _ => rfl⟩

end

/-! ### Single tokens -/

/-- A cursor behind its next token, with that token in a node of its own. -/
def enclose (c : Cursor) (kind : NodeKind) (t : Token) (ts : List Token) : Cursor :=
  { c.advance t ts with builder := c.builder.append [.node kind [.leaf t]] }

section
variable {b : Builder} {trees : List Tree} {d n : Nat} {t : Token} {ts : List Token}

theorem Holds.active (h : c.Holds b trees d n) (hrest : c.rest = t :: ts) :
    c.abandoned = false := by
  cases habandoned : c.abandoned with
  | false => rfl
  | true =>
    have hnil := h.swallowed habandoned
    rw [hrest] at hnil
    contradiction

theorem Holds.advance (h : c.Holds b trees d n) (hrest : c.rest = t :: ts) :
    (c.advance t ts).Holds b (trees ++ [.leaf t]) d n := by
  refine ⟨?_, h.depth_eq, ?_, fun habandoned => ?_⟩
  · simp [Cursor.advance, Builder.token_eq_append, h.builder_eq]
  · have hle := h.length_le
    rw [hrest, List.length_cons] at hle
    exact Nat.le_of_succ_le hle
  · rw [show (c.advance t ts).abandoned = c.abandoned from rfl, h.active hrest] at habandoned
    contradiction

theorem Holds.report (h : c.Holds b trees d n) (hsettled : c.IsSettled) (cause : Cause) :
    (c.report cause).Holds b trees d n := by
  cases habandoned : c.abandoned with
  | false =>
    rw [report_eq hsettled habandoned]
    exact ⟨h.builder_eq, h.depth_eq, h.length_le, h.swallowed⟩
  | true =>
    rw [report_of_abandoned habandoned]
    exact h

end

/-! ### Parentheses -/

theorem Holds.rebase {b b' : Builder} {lead trees : List Tree} {d n n' : Nat}
    (h : c.Holds b' trees d n) (hbuilder : b' = b.append lead) (hle : n ≤ n') :
    c.Holds b (lead ++ trees) d n' := by
  refine ⟨?_, h.depth_eq, Nat.le_trans h.length_le hle, h.swallowed⟩
  rw [h.builder_eq, hbuilder, Builder.append_append]

/-- A cursor behind an opening parenthesis. -/
def opening (c : Cursor) (t : Token) (ts : List Token) : Cursor :=
  ((c.start .parenExpr).advance t ts).descend

end Cursor

end Rendezvous.Guard
