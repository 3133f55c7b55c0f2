import Rendezvous.Proofs.Arithmetic.Peg

/-!
# Climbing puts operations where one pass puts them

The reader of expressions holds at most two operations of a parenthesis level that wait for a right
operand, a loose one and inside it a tight one.  Climbing holds them in its calls: what waits loosely is
the call that gathers a product, and what waits tightly has been combined already, since the right
operand of a product is one operand (`Pair.climb?_two`).  So the tree of a sequence of operands and
operations is what the reader makes of it (`Pair.tree?_eq`).
-/

namespace Rendezvous.Arithmetic

/-! ## Operations in a row -/

/-- The pairs of operations with their right operands. -/
inductive TailOf : List Pair → List (Operation × Expr) → Prop
  | nil : TailOf [] []
  | cons {p q : Pair} {ps : List Pair} {op : Operation} {e : Expr} {ops : List (Operation × Expr)}
    (hop : p.operation? = some op) (he : q.operand? = some e) (h : TailOf ps ops) :
    TailOf (p :: q :: ps) ((op, e) :: ops)

/-- What waits, and the last operand, after further operations and operands. -/
def Pending.after (pending : Pending) (e : Expr) : List (Operation × Expr) → Pending × Expr
  | [] => (pending, e)
  | (op, b) :: rest => (pending.extend e op).after b rest

/-! ## One operation -/

variable {limit : Nat} {lhs e : Expr} {p q : Pair} {ps : List Pair} {op : Operation}
  {ops : List (Operation × Expr)}

theorem Pair.climb?_eq (he : q.operand? = some e) : q.climb? limit ps = e.climb? limit ps := by
  rw [Pair.climb?, he]
  rfl

theorem Expr.climb?_nil : lhs.climb? limit [] = some (lhs, []) := by
  rw [Expr.climb?]

/-- An operation that binds no more tightly than the one before is left to that one. -/
theorem Expr.climb?_of_le (hop : p.operation? = some op) (h : op.power ≤ limit) :
    lhs.climb? limit (p :: ps) = some (lhs, p :: ps) := by
  rw [Expr.climb?, hop]
  exact if_neg (Nat.not_lt_of_le h)

/-- An operation that binds more tightly takes what its strength gathers on the right. -/
theorem Expr.climb?_of_lt (hop : p.operation? = some op) (h : limit < op.power) :
    lhs.climb? limit (p :: q :: ps) = (q.climb? op.power ps).bind fun right =>
      (Expr.binary op lhs right.1).climb? limit right.2 := by
  rw [Expr.climb?, hop]
  exact if_pos h

theorem Operation.power_of_tight (h : op.bindsTightly = true) : op.power = 2 := by
  cases op <;> first | rfl | cases h

theorem Operation.power_of_loose (h : op.bindsTightly = false) : op.power = 1 := by
  cases op <;> first | rfl | cases h

/-- The right operand of a product is one operand. -/
theorem Pair.climb?_two (h : TailOf ps ops) (he : q.operand? = some e) :
    q.climb? 2 ps = some (e, ps) := by
  rw [Pair.climb?_eq he]
  cases h with
  | nil => exact Expr.climb?_nil
  | @cons p _ _ op _ _ hop =>
    have hpower : op.power ≤ 2 := by cases op <;> decide
    exact Expr.climb?_of_le hop hpower

/-- A tight operation is combined at once. -/
theorem Expr.climb?_tight (hop : p.operation? = some op) (htight : op.bindsTightly = true)
    (hlimit : limit < 2) (h : TailOf ps ops) (he : q.operand? = some e) :
    lhs.climb? limit (p :: q :: ps) = (Expr.binary op lhs e).climb? limit ps := by
  have hpower := Operation.power_of_tight htight
  rw [Expr.climb?_of_lt hop (by omega), hpower, Pair.climb?_two h he, Option.bind_some]

/-- How climbing goes on when a sum waits for its right operand, or when none does. -/
def climbUnder? (sum : Waiting) (lhs : Expr) (ps : List Pair) : Option (Expr × List Pair) :=
  match sum with
  | none => lhs.climb? 0 ps
  | some (a, op) => (lhs.climb? 1 ps).bind fun right => (Expr.binary op a right.1).climb? 0 right.2

/-- A loose operation waits for the product on its right. -/
theorem Expr.climb?_loose (hop : p.operation? = some op) (hloose : op.bindsTightly = false)
    (he : q.operand? = some e) :
    lhs.climb? 0 (p :: q :: ps) = climbUnder? (some (lhs, op)) e ps := by
  have hpower := Operation.power_of_loose hloose
  rw [Expr.climb?_of_lt hop (by omega), hpower, Pair.climb?_eq he]
  rfl

/-- **Climbing closes what waits.** -/
theorem climbUnder?_eq (h : TailOf ps ops) (pending : Pending) (e : Expr) :
    climbUnder? pending.sum (pending.product.supply e) ps =
      some ((pending.after e ops).1.close (pending.after e ops).2, []) := by
  induction h generalizing pending e with
  | nil =>
    obtain ⟨sum, product⟩ := pending
    cases sum with
    | none => exact Expr.climb?_nil
    | some waiting =>
      rw [climbUnder?, Expr.climb?_nil, Option.bind_some, Expr.climb?_nil]
      rfl
  | @cons p q ps op b ops hop hb h ih =>
    obtain ⟨sum, product⟩ := pending
    rw [Pending.after, ← ih]
    cases htight : op.bindsTightly with
    | true =>
      rw [Pending.extend, if_pos htight]
      cases sum with
      | none => exact Expr.climb?_tight hop htight (by decide) h hb
      | some waiting =>
        rw [climbUnder?, Expr.climb?_tight hop htight (by decide) h hb]
        rfl
    | false =>
      rw [Pending.extend, if_neg (by simp [htight])]
      cases sum with
      | none => exact Expr.climb?_loose hop htight hb
      | some waiting =>
        -- the waiting sum is complete before the next loose operation
        rw [climbUnder?, Expr.climb?_of_le hop (Nat.le_of_eq (Operation.power_of_loose htight)),
          Option.bind_some]
        exact Expr.climb?_loose hop htight hb

/-- The tree of operands and operations is the one that reading them from left to right gives. -/
theorem Pair.tree?_eq (he : q.operand? = some e) (h : TailOf ps ops) :
    q.tree? ps = some ((Pending.none.after e ops).1.close (Pending.none.after e ops).2) := by
  have hclimb : q.climb? 0 ps = _ := (Pair.climb?_eq he).trans (climbUnder?_eq h .none e)
  rw [Pair.tree?, hclimb]
  rfl

end Rendezvous.Arithmetic
