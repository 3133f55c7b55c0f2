import Rendezvous.Proofs.Arithmetic.Grammar
import Rendezvous.Proofs.Arithmetic.Peg

/-!
# What the rules of arithmetic match

Sequences, choices, repetitions and rules are run from runs of their parts (`Peg.Runs`).  From this
follow the runs of the rules: a number takes all digits in front of a text, an operation and an operand
are decided by the next character, and where no operation or operand begins it is known which rules have
been tried.
-/

namespace Rendezvous.Arithmetic

/-! ## Attempts -/

namespace Attempts

/-- No attempt at a place is remembered, nor one behind it. -/
def Fresh (a : Attempts) (place : Nat) : Prop :=
  a.countAt place = 0 ∧ a.place ≤ place

variable {a before : Attempts} {place : Nat} {r : RuleName} {rs : List RuleName}

theorem fresh_start : Fresh ⟨0, []⟩ 0 :=
  ⟨rfl, Nat.le_refl 0⟩

theorem fresh_of_lt (h : a.place < place) : a.Fresh place :=
  ⟨if_neg (Nat.ne_of_lt h), Nat.le_of_lt h⟩

@[simp] theorem countAt_self : countAt ⟨place, rs⟩ place = rs.length :=
  if_pos rfl

/-- A rule that fails where nothing was tried is all that was tried there. -/
theorem note_of_fresh (h : a.Fresh place) : a.note a place r = ⟨place, [r]⟩ := by
  unfold note
  rw [if_neg (by omega)]
  by_cases hlt : a.place < place
  · rw [if_pos hlt]
  · have hplace : a.place = place := Nat.le_antisymm h.2 (Nat.le_of_not_lt hlt)
    rw [if_neg hlt, if_pos hplace, h.1, List.take_zero, List.nil_append]

/-- A rule that fails where others did is one more of them. -/
theorem note_self : note ⟨place, rs⟩ ⟨place, rs⟩ place r = ⟨place, rs ++ [r]⟩ := by
  unfold note
  rw [countAt_self, if_neg (by omega), if_neg (Nat.lt_irrefl _), if_pos rfl, List.take_length]

/-- A rule whose parts have got further is not noted. -/
theorem note_of_lt (h : place < a.place) : before.note a place r = a := by
  unfold note
  split
  · rfl
  · rw [if_neg (Nat.lt_asymm h), if_neg (Nat.ne_of_gt h)]

/-- A rule stands for its parts when several of them were tried where it begins. -/
theorem note_of_parts (h : before.Fresh place) (hrs : rs.length ≠ 1) :
    before.note ⟨place, rs⟩ place r = ⟨place, [r]⟩ := by
  unfold note
  rw [countAt_self, h.1, if_neg (by omega), if_neg (Nat.lt_irrefl _), if_pos rfl, List.take_zero,
    List.nil_append]

end Attempts

/-! ## Runs -/

namespace Peg

/-- A parsing expression runs to an end. -/
def Runs (p : Peg) (place : Nat) (cs : List Char) (a : Attempts) (result : Option Matched)
    (a' : Attempts) : Prop :=
  p.run place cs a = some (result, a')

variable {p q : Peg} {place : Nat} {c first last : Char} {cs rest : List Char}
  {a b d : Attempts} {m n : Matched} {result : Option Matched} {r : RuleName}

theorem Runs.of_eq (h : p.Runs place cs a result b) (hb : b = d) : p.Runs place cs a result d :=
  hb ▸ h

theorem runs_range (h : first ≤ c ∧ c ≤ last) :
    (range first last).Runs place (c :: rest) a (some ⟨[c], rest, []⟩) a := by
  rw [Runs, run, if_pos h]

theorem runs_range_none (h : ∀ c ∈ cs.head?, ¬ (first ≤ c ∧ c ≤ last)) :
    (range first last).Runs place cs a none a := by
  cases cs with
  | nil => rw [Runs, run]
  | cons c rest => rw [Runs, run, if_neg (h c rfl)]

theorem runs_literal : (literal c).Runs place (c :: rest) a (some ⟨[c], rest, []⟩) a :=
  runs_range ⟨Nat.le_refl _, Nat.le_refl _⟩

theorem runs_literal_none (h : cs.head? ≠ some c) : (literal c).Runs place cs a none a := by
  refine runs_range_none fun d hd hrange => h ?_
  rw [hd, Char.le_antisymm hrange.2 hrange.1]

theorem runs_finish : finish.Runs place [] a (some (.nothing [])) a := by
  rw [Runs, run, if_pos rfl]

theorem runs_finish_none (h : cs ≠ []) : finish.Runs place cs a none a := by
  rw [Runs, run, if_neg h]

theorem Runs.seq (hp : p.Runs place cs a (some m) b)
    (hq : q.Runs (place + Text.byteSize m.text) m.rest b result d) :
    (Peg.seq p q).Runs place cs a (result.map m.append) d := by
  rw [Runs] at hp hq
  rw [Runs, run, hp]
  simp only [Option.bind_eq_bind, Option.bind_some, hq]
  rfl

theorem Runs.seq_none (hp : p.Runs place cs a none b) : (Peg.seq p q).Runs place cs a none b := by
  rw [Runs] at hp
  rw [Runs, run, hp]
  rfl

theorem Runs.choice_left (hp : p.Runs place cs a (some m) b) :
    (choice p q).Runs place cs a (some m) b := by
  rw [Runs] at hp
  rw [Runs, run, hp]
  rfl

theorem Runs.choice_right (hp : p.Runs place cs a none b) (hq : q.Runs place cs b result d) :
    (choice p q).Runs place cs a result d := by
  rw [Runs] at hp hq
  rw [Runs, run, hp]
  exact hq

theorem Runs.many_nil (hp : p.Runs place cs a none b) :
    (many p).Runs place cs a (some (.nothing cs)) b := by
  rw [Runs] at hp
  rw [Runs, run, hp]
  rfl

theorem Runs.many_cons (hp : p.Runs place cs a (some m) b)
    (hmany : (many p).Runs (place + Text.byteSize m.text) m.rest b result d) :
    (many p).Runs place cs a (result.map m.append) d := by
  rw [Runs] at hp hmany
  rw [Runs, run, hp]
  simp only [Option.bind_eq_bind, Option.bind_some, hmany]
  rfl

theorem Runs.call (h : r.body.Runs place cs a (some m) b) :
    (Peg.call r).Runs place cs a (some (m.of r)) b := by
  rw [Runs] at h
  rw [Runs, run, h]
  rfl

theorem Runs.call_none (h : r.body.Runs place cs a none b) :
    (Peg.call r).Runs place cs a none (if r.isSilent then b else a.note b place r) := by
  rw [Runs] at h
  rw [Runs, run, h]
  rfl

/-! ## Numbers and parameters -/

theorem le_and_le_iff_isDigit : '0' ≤ c ∧ c ≤ '9' ↔ c.isDigit = true :=
  ⟨fun h => Bool.and_eq_true_iff.2 ⟨decide_eq_true h.1, decide_eq_true h.2⟩, fun h =>
    ⟨of_decide_eq_true (Bool.and_eq_true_iff.1 h).1, of_decide_eq_true (Bool.and_eq_true_iff.1 h).2⟩⟩

theorem le_and_le_iff_isLower : 'a' ≤ c ∧ c ≤ 'z' ↔ c.isLower = true :=
  ⟨fun h => Bool.and_eq_true_iff.2 ⟨decide_eq_true h.1, decide_eq_true h.2⟩, fun h =>
    ⟨of_decide_eq_true (Bool.and_eq_true_iff.1 h).1, of_decide_eq_true (Bool.and_eq_true_iff.1 h).2⟩⟩

/-- A repetition of digits takes all of them. -/
theorem runs_digits {ds : List Char} (hdigits : ∀ d ∈ ds, d.isDigit = true) (hrest : Apart rest) :
    (many (range '0' '9')).Runs place (ds ++ rest) a (some ⟨ds, rest, []⟩) a := by
  induction ds generalizing place with
  | nil =>
    refine Runs.many_nil (runs_range_none fun c hc hrange => ?_)
    rw [le_and_le_iff_isDigit, hrest c hc] at hrange
    cases hrange
  | cons d ds ih =>
    obtain ⟨hd, hdigits⟩ := List.forall_mem_cons.1 hdigits
    exact Runs.many_cons (runs_range (le_and_le_iff_isDigit.2 hd)) (ih hdigits)

/-- A number is all the digits in front of a text. -/
theorem runs_integer {ds : List Char} (hne : ds ≠ []) (hdigits : ∀ d ∈ ds, d.isDigit = true)
    (hrest : Apart rest) : (Peg.call .integer).Runs place (ds ++ rest) a
      (some ⟨ds, rest, [.mk .integer ds []]⟩) a := by
  cases ds with
  | nil => exact absurd rfl hne
  | cons d ds =>
    obtain ⟨hd, hdigits⟩ := List.forall_mem_cons.1 hdigits
    exact Runs.call (r := .integer)
      ((runs_range (le_and_le_iff_isDigit.2 hd)).seq (runs_digits hdigits hrest))

theorem runs_integer_none (h : Apart cs) :
    (Peg.call .integer).Runs place cs a none (a.note a place .integer) := by
  refine Runs.call_none (r := .integer) (Runs.seq_none (runs_range_none fun c hc hrange => ?_))
  rw [le_and_le_iff_isDigit, h c hc] at hrange
  cases hrange

theorem runs_parameter (h : c.isLower = true) : (Peg.call .parameter).Runs place (c :: rest) a
    (some ⟨[c], rest, [.mk .parameter [c] []]⟩) a :=
  Runs.call (r := .parameter) (runs_range (le_and_le_iff_isLower.2 h))

theorem runs_parameter_none (h : ∀ c ∈ cs.head?, c.isLower = false) :
    (Peg.call .parameter).Runs place cs a none (a.note a place .parameter) := by
  refine Runs.call_none (r := .parameter) (runs_range_none fun c hc hrange => ?_)
  rw [le_and_le_iff_isLower, h c hc] at hrange
  cases hrange

end Peg

/-! ## Operations -/

/-- The rule of an operation. -/
def Operation.rule : Operation → RuleName
  | add => .add
  | subtract => .subtract
  | multiply => .multiply
  | divide => .divide

/-- The rules of all operations. -/
def operationRules : List RuleName := [.add, .subtract, .multiply, .divide]

theorem Operation.body_rule (op : Operation) : op.rule.body = .literal op.char := by
  cases op <;> rfl

theorem Operation.isSilent_rule (op : Operation) : op.rule.isSilent = false := by
  cases op <;> rfl

theorem Operation.char_inj {op other : Operation} : op.char = other.char ↔ op = other := by
  cases op <;> cases other <;> decide

theorem Pair.operation?_mk (op : Operation) (text : List Char) (inner : List Pair) :
    (Pair.mk op.rule text inner).operation? = some op := by
  cases op <;> rfl

namespace Peg

variable {place : Nat} {cs rest : List Char} {a b : Attempts}

theorem runs_operation (op : Operation) (place : Nat) (rest : List Char) (a : Attempts) :
    (Peg.call op.rule).Runs place (op.char :: rest) a
      (some ⟨[op.char], rest, [.mk op.rule [op.char] []]⟩) a := by
  have hbody : op.rule.body.Runs place (op.char :: rest) a (some ⟨[op.char], rest, []⟩) a := by
    rw [op.body_rule]
    exact runs_literal
  have hcall := Runs.call hbody
  rwa [Matched.of, op.isSilent_rule] at hcall

theorem runs_operation_none {op : Operation} (place : Nat) (a : Attempts)
    (h : cs.head? ≠ some op.char) :
    (Peg.call op.rule).Runs place cs a none (a.note a place op.rule) := by
  have hbody : op.rule.body.Runs place cs a none a := by
    rw [op.body_rule]
    exact runs_literal_none h
  have hcall := Runs.call_none hbody
  rwa [op.isSilent_rule] at hcall

/-- An operation in front of a text is matched.  What was tried before it was tried at its place. -/
theorem runs_binOp (h : a.Fresh place) (op : Operation) (rest : List Char) :
    ∃ b, b.place ≤ place ∧ (Peg.call .binOp).Runs place (op.char :: rest) a
      (some ⟨[op.char], rest, [.mk op.rule [op.char] []]⟩) b := by
  have hother (other : Operation) (hne : op ≠ other) (b : Attempts) :
      (Peg.call other.rule).Runs place (op.char :: rest) b none (b.note b place other.rule) :=
    runs_operation_none place b fun hchar => hne (Operation.char_inj.1 (Option.some.inj hchar))
  have hadd (hne : op ≠ .add) :
      (Peg.call .add).Runs place (op.char :: rest) a none ⟨place, [.add]⟩ :=
    (hother .add hne a).of_eq (Attempts.note_of_fresh h)
  have hsubtract (hne : op ≠ .subtract) :
      (Peg.call .subtract).Runs place (op.char :: rest) ⟨place, [.add]⟩ none
        ⟨place, [.add, .subtract]⟩ :=
    (hother .subtract hne ⟨place, [.add]⟩).of_eq Attempts.note_self
  have hmultiply (hne : op ≠ .multiply) :
      (Peg.call .multiply).Runs place (op.char :: rest) ⟨place, [.add, .subtract]⟩ none
        ⟨place, [.add, .subtract, .multiply]⟩ :=
    (hother .multiply hne ⟨place, [.add, .subtract]⟩).of_eq Attempts.note_self
  cases op with
  | add => exact ⟨a, h.2, Runs.call (runs_operation .add place rest a).choice_left⟩
  | subtract =>
    have hop := runs_operation .subtract place rest ⟨place, [.add]⟩
    exact ⟨_, Nat.le_refl place, Runs.call ((hadd nofun).choice_right hop.choice_left)⟩
  | multiply =>
    have hop := runs_operation .multiply place rest ⟨place, [.add, .subtract]⟩
    exact ⟨_, Nat.le_refl place,
      Runs.call ((hadd nofun).choice_right ((hsubtract nofun).choice_right hop.choice_left))⟩
  | divide =>
    have hop := runs_operation .divide place rest ⟨place, [.add, .subtract, .multiply]⟩
    exact ⟨_, Nat.le_refl place, Runs.call ((hadd nofun).choice_right
      ((hsubtract nofun).choice_right ((hmultiply nofun).choice_right hop)))⟩

/-- Where no operation begins, all four have been tried. -/
theorem runs_binOp_none (h : a.Fresh place) (hcs : ∀ op : Operation, cs.head? ≠ some op.char) :
    (Peg.call .binOp).Runs place cs a none ⟨place, operationRules⟩ := by
  have hadd : (Peg.call .add).Runs place cs a none ⟨place, [.add]⟩ :=
    (runs_operation_none place a (hcs .add)).of_eq (Attempts.note_of_fresh h)
  have hsubtract : (Peg.call .subtract).Runs place cs ⟨place, [.add]⟩ none
      ⟨place, [.add, .subtract]⟩ :=
    (runs_operation_none place ⟨place, [.add]⟩ (hcs .subtract)).of_eq Attempts.note_self
  have hmultiply : (Peg.call .multiply).Runs place cs ⟨place, [.add, .subtract]⟩ none
      ⟨place, [.add, .subtract, .multiply]⟩ :=
    (runs_operation_none place ⟨place, [.add, .subtract]⟩ (hcs .multiply)).of_eq Attempts.note_self
  have hdivide : (Peg.call .divide).Runs place cs ⟨place, [.add, .subtract, .multiply]⟩ none
      ⟨place, operationRules⟩ :=
    (runs_operation_none place ⟨place, [.add, .subtract, .multiply]⟩ (hcs .divide)).of_eq
      Attempts.note_self
  exact Runs.call_none (r := .binOp)
    (hadd.choice_right (hsubtract.choice_right (hmultiply.choice_right hdivide)))

/-! ## Operands -/

theorem runs_primary_integer {ds : List Char} (hne : ds ≠ [])
    (hdigits : ∀ d ∈ ds, d.isDigit = true) (hrest : Apart rest) :
    (Peg.call .primary).Runs place (ds ++ rest) a (some ⟨ds, rest, [.mk .integer ds []]⟩) a :=
  Runs.call (r := .primary) (runs_integer hne hdigits hrest).choice_left

theorem runs_primary_parameter (h : a.Fresh place) {c : Char} (hc : c.isLower = true) :
    (Peg.call .primary).Runs place (c :: rest) a (some ⟨[c], rest, [.mk .parameter [c] []]⟩)
      ⟨place, [.integer]⟩ := by
  have hinteger : Apart (c :: rest) := fun d hd => by
    obtain rfl := Option.some.inj hd
    exact isDigit_eq_false_of_isLower hc
  have hnone : (Peg.call .integer).Runs place (c :: rest) a none ⟨place, [.integer]⟩ :=
    (runs_integer_none hinteger).of_eq (Attempts.note_of_fresh h)
  exact Runs.call (r := .primary) (hnone.choice_right (runs_parameter hc).choice_left)

/-- Where neither a number nor a parameter begins, both have been tried, and a parenthesis is left. -/
theorem runs_primary_other (h : a.Fresh place) (hdigit : Apart cs)
    (hlower : ∀ c ∈ cs.head?, c.isLower = false) {result : Option Matched}
    (hgroup : (Peg.seq (literal '(') (.seq (.call .expr) (literal ')'))).Runs place cs
      ⟨place, [.integer, .parameter]⟩ result b) :
    (Peg.call .primary).Runs place cs a result b := by
  have hinteger : (Peg.call .integer).Runs place cs a none ⟨place, [.integer]⟩ :=
    (runs_integer_none hdigit).of_eq (Attempts.note_of_fresh h)
  have hparameter : (Peg.call .parameter).Runs place cs ⟨place, [.integer]⟩ none
      ⟨place, [.integer, .parameter]⟩ :=
    (runs_parameter_none hlower).of_eq Attempts.note_self
  have hbody := hinteger.choice_right (hparameter.choice_right hgroup)
  cases result with
  | some m => exact Runs.call (r := .primary) hbody
  | none => exact Runs.call_none (r := .primary) hbody

/-- An opening parenthesis begins nothing else. -/
theorem runs_primary_opening (h : a.Fresh place) {result : Option Matched}
    (hexpr : (Peg.seq (.call .expr) (literal ')')).Runs (place + Text.byteSize ['(']) rest
      ⟨place, [.integer, .parameter]⟩ result b) :
    (Peg.call .primary).Runs place ('(' :: rest) a (result.map (Matched.append ⟨['('], rest, []⟩))
      b := by
  have hdigit : Apart ('(' :: rest) := by simp [Apart]
  have hlower : ∀ c ∈ ('(' :: rest).head?, c.isLower = false := by simp
  exact runs_primary_other h hdigit hlower (runs_literal.seq hexpr)

end Peg

end Rendezvous.Arithmetic
