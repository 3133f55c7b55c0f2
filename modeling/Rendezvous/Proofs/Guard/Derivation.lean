import Rendezvous.Guard.Token
import Rendezvous.Guard.Expr

/-!
# What the guard grammar derives

The grammar

* `disjunction := conjunction ('|' conjunction)*`
* `conjunction := unary ('&' unary)*`
* `unary := '!' unary | primary`
* `primary := NAME | '(' disjunction ')'`

as a relation between token sequences without whitespace and expressions.  The repetitions are
written with their last operand apart, which makes both binary operators associate to the left;
parentheses leave no trace in the expression.  A derivation also bounds how many negations and
parentheses are open at once.
-/

namespace Rendezvous.Guard

/-- The rules of the grammar. -/
inductive Phrase where
  | disjunction
  | conjunction
  | unary
  | primary
  deriving DecidableEq, Repr

/-- `Derives names d p ts e`: the tokens `ts` are a phrase `p` over the declared names with the
expression `e`, and nowhere in it are more than `d` negations and parentheses open. -/
inductive Derives (names : List String) : Nat → Phrase → List Token → Expr → Prop
  | name {d : Nat} {t : Token} : t.kind = .word → String.ofList t.text ∈ names →
      Derives names d .primary [t] (.guard (String.ofList t.text))
  | group {d : Nat} {l r : Token} {ts : List Token} {e : Expr} : l.kind = .leftParen →
      Derives names d .disjunction ts e → r.kind = .rightParen →
      Derives names (d + 1) .primary (l :: (ts ++ [r])) e
  | primary {d : Nat} {ts : List Token} {e : Expr} : Derives names d .primary ts e →
      Derives names d .unary ts e
  | negation {d : Nat} {t : Token} {ts : List Token} {e : Expr} : t.kind = .bang →
      Derives names d .unary ts e → Derives names (d + 1) .unary (t :: ts) (.not e)
  | unary {d : Nat} {ts : List Token} {e : Expr} : Derives names d .unary ts e →
      Derives names d .conjunction ts e
  | and {d : Nat} {t : Token} {ts us : List Token} {a b : Expr} :
      Derives names d .conjunction ts a → t.kind = .amp → Derives names d .unary us b →
      Derives names d .conjunction (ts ++ t :: us) (.and a b)
  | conjunction {d : Nat} {ts : List Token} {e : Expr} : Derives names d .conjunction ts e →
      Derives names d .disjunction ts e
  | or {d : Nat} {t : Token} {ts us : List Token} {a b : Expr} :
      Derives names d .disjunction ts a → t.kind = .pipe → Derives names d .conjunction us b →
      Derives names d .disjunction (ts ++ t :: us) (.or a b)

/-- The tokens that the grammar sees. -/
def significant (ts : List Token) : List Token :=
  ts.filter fun t => t.kind ≠ .whitespace

/-- The words among some tokens, from left to right. -/
def wordsOf (ts : List Token) : List String :=
  (ts.filter fun t => t.kind = .word).map fun t => String.ofList t.text

/-! ## Words -/

theorem wordsOf_append (ts us : List Token) : wordsOf (ts ++ us) = wordsOf ts ++ wordsOf us := by
  simp [wordsOf]

theorem wordsOf_cons_of_ne {t : Token} (h : t.kind ≠ .word) (ts : List Token) :
    wordsOf (t :: ts) = wordsOf ts := by
  simp [wordsOf, h]

/-- Whitespace holds no words. -/
theorem wordsOf_significant (ts : List Token) : wordsOf (significant ts) = wordsOf ts := by
  rw [wordsOf, significant, List.filter_filter, wordsOf]
  congr 2
  funext t
  by_cases h : t.kind = .word <;> simp [h]

/-- The guards of a derived expression are the words of its tokens, in order. -/
theorem Derives.guards_eq {names : List String} {d : Nat} {p : Phrase} {ts : List Token} {e : Expr}
    (h : Derives names d p ts e) : e.guards = wordsOf ts := by
  induction h with
  | name hword _ => simp [Expr.guards, wordsOf, hword]
  | @group _ l r ts _ hl _ hr ih =>
    have hclosing : wordsOf [r] = [] := wordsOf_cons_of_ne (by simp [hr]) []
    rw [ih, wordsOf_cons_of_ne (by simp [hl]), wordsOf_append, hclosing, List.append_nil]
  | primary _ ih => exact ih
  | negation hbang _ ih => rw [Expr.guards, ih, wordsOf_cons_of_ne (by simp [hbang])]
  | unary _ ih => exact ih
  | and _ hamp _ iha ihb =>
    rw [Expr.guards, iha, ihb, wordsOf_append, wordsOf_cons_of_ne (by simp [hamp])]
  | conjunction _ ih => exact ih
  | or _ hpipe _ iha ihb =>
    rw [Expr.guards, iha, ihb, wordsOf_append, wordsOf_cons_of_ne (by simp [hpipe])]

end Rendezvous.Guard
