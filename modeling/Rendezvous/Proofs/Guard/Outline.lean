import Rendezvous.Proofs.Guard.Derivation

/-!
# Reading without trees

An `Outline` is what is left of a state of reading when its syntax trees are replaced by the
expressions they stand for and the whitespace is dropped.  Its step reads one token and fails on a
token that does not fit, or that would open more than `limit` negations and parentheses at once.

The outline of a text is what the grammar says.  A phrase takes every outline that is due an
operand to the outline with that operand (`runsAs_of_derives`), and whatever an outline has read is
made of phrases and of the operators between them (`reads_step`, `reads_run`).  The outlines that
end outside all parentheses are therefore those of the derivable token sequences
(`expr?_run_eq_some_iff`), and as there is one outline of a sequence, it has one expression
(`Derives.unique`).
-/

namespace Rendezvous.Guard

/-! ## Outlines -/

/-- Supplies the right operand of an operation, if one waits for it. -/
def join (op : Expr → Expr → Expr) : Option Expr → Expr → Expr
  | none, e => e
  | some a, e => op a e

/-- Negates an expression a number of times. -/
def negateTimes : Nat → Expr → Expr
  | 0, e => e
  | n + 1, e => negateTimes n (.not e)

/-- The operations of one parenthesis level that wait for a right operand. -/
structure Level where
  /-- The left operand of the open disjunction. -/
  disjunction : Option Expr
  /-- The left operand of the open conjunction. -/
  conjunction : Option Expr
  /-- The number of open negations. -/
  negations : Nat
  deriving DecidableEq, Repr

namespace Level

/-- No operation waits. -/
def bare : Level := ⟨none, none, 0⟩

/-- Opens a negation. -/
def negate (l : Level) : Level :=
  { l with negations := l.negations + 1 }

/-- The conjunction of a level once its operand is there. -/
def fill (l : Level) (e : Expr) : Expr :=
  join .and l.conjunction (negateTimes l.negations e)

theorem fill_negate (l : Level) (e : Expr) : l.negate.fill e = l.fill (.not e) := rfl

@[simp] theorem negations_negate (l : Level) : l.negate.negations = l.negations + 1 := rfl

end Level

/-- How many negations and parentheses are open around the innermost parenthesis, itself
included. -/
def depth : List Level → Nat
  | [] => 0
  | l :: outer => depth outer + l.negations + 1

/-- What has been read.  `outer` holds the levels around the innermost parenthesis. -/
inductive Outline where
  /-- An operand is due. -/
  | operand (outer : List Level) (level : Level)
  /-- The operand `e` is complete. -/
  | operator (outer : List Level) (disjunction : Option Expr) (e : Expr)
  deriving DecidableEq, Repr

namespace Outline

/-- Nothing has been read. -/
def initial : Outline := .operand [] .bare

/-- Reads one token, if it fits. -/
def step (names : List String) (limit : Nat) (o : Outline) (t : Token) : Option Outline :=
  match o, t.kind with
  | .operand outer l, .word =>
    if String.ofList t.text ∈ names then
      some (.operator outer l.disjunction (l.fill (.guard (String.ofList t.text))))
    else none
  | .operand outer l, .bang =>
    if depth outer + l.negations < limit then some (.operand outer l.negate) else none
  | .operand outer l, .leftParen =>
    if depth outer + l.negations < limit then some (.operand (l :: outer) .bare) else none
  | .operator outer d e, .amp => some (.operand outer ⟨d, some e, 0⟩)
  | .operator outer d e, .pipe => some (.operand outer ⟨some (join .or d e), none, 0⟩)
  | .operator (l :: outer) d e, .rightParen =>
    some (.operator outer l.disjunction (l.fill (join .or d e)))
  | _, _ => none

/-- Reads tokens one after the other. -/
def run (names : List String) (limit : Nat) (o : Outline) (ts : List Token) : Option Outline :=
  ts.foldlM (step names limit) o

/-- The expression of what has been read, if it could end here. -/
def expr? : Outline → Option Expr
  | .operator [] d e => some (join .or d e)
  | _ => none

section
variable {names : List String} {limit : Nat}

@[simp] theorem run_nil (o : Outline) : run names limit o [] = some o := rfl

theorem run_cons (o : Outline) (t : Token) (ts : List Token) :
    run names limit o (t :: ts) = (step names limit o t).bind fun o' => run names limit o' ts :=
  rfl

theorem run_append (o : Outline) (ts us : List Token) :
    run names limit o (ts ++ us) =
      (run names limit o ts).bind fun o' => run names limit o' us :=
  List.foldlM_append

theorem run_concat (o : Outline) (ts : List Token) (t : Token) :
    run names limit o (ts ++ [t]) =
      (run names limit o ts).bind fun o' => step names limit o' t := by
  rw [run_append]
  congr 1
  funext o'
  rw [run_cons]
  cases step names limit o' t <;> rfl

/-! ## One step, by the token -/

theorem step_word {outer : List Level} {l : Level} {t : Token} (hkind : t.kind = .word)
    (hname : String.ofList t.text ∈ names) :
    step names limit (.operand outer l) t =
      some (.operator outer l.disjunction (l.fill (.guard (String.ofList t.text)))) := by
  simp [step, hkind, hname]

theorem step_bang {outer : List Level} {l : Level} {t : Token} (hkind : t.kind = .bang)
    (hdepth : depth outer + l.negations < limit) :
    step names limit (.operand outer l) t = some (.operand outer l.negate) := by
  simp [step, hkind, hdepth]

theorem step_leftParen {outer : List Level} {l : Level} {t : Token} (hkind : t.kind = .leftParen)
    (hdepth : depth outer + l.negations < limit) :
    step names limit (.operand outer l) t = some (.operand (l :: outer) .bare) := by
  simp [step, hkind, hdepth]

theorem step_amp {outer : List Level} {d : Option Expr} {e : Expr} {t : Token}
    (hkind : t.kind = .amp) :
    step names limit (.operator outer d e) t = some (.operand outer ⟨d, some e, 0⟩) := by
  simp [step, hkind]

theorem step_pipe {outer : List Level} {d : Option Expr} {e : Expr} {t : Token}
    (hkind : t.kind = .pipe) :
    step names limit (.operator outer d e) t =
      some (.operand outer ⟨some (join .or d e), none, 0⟩) := by
  simp [step, hkind]

theorem step_rightParen {outer : List Level} {l : Level} {d : Option Expr} {e : Expr} {t : Token}
    (hkind : t.kind = .rightParen) :
    step names limit (.operator (l :: outer) d e) t =
      some (.operator outer l.disjunction (l.fill (join .or d e))) := by
  simp [step, hkind]

/-- Everything that a step can do. -/
theorem step_cases {o o' : Outline} {t : Token} (h : step names limit o t = some o') :
    (∃ outer l, o = .operand outer l ∧ t.kind = .word ∧ String.ofList t.text ∈ names ∧
        o' = .operator outer l.disjunction (l.fill (.guard (String.ofList t.text)))) ∨
      (∃ outer l, o = .operand outer l ∧ t.kind = .bang ∧ depth outer + l.negations < limit ∧
        o' = .operand outer l.negate) ∨
      (∃ outer l, o = .operand outer l ∧ t.kind = .leftParen ∧
        depth outer + l.negations < limit ∧ o' = .operand (l :: outer) .bare) ∨
      (∃ outer d e, o = .operator outer d e ∧ t.kind = .amp ∧
        o' = .operand outer ⟨d, some e, 0⟩) ∨
      (∃ outer d e, o = .operator outer d e ∧ t.kind = .pipe ∧
        o' = .operand outer ⟨some (join .or d e), none, 0⟩) ∨
      (∃ l outer d e, o = .operator (l :: outer) d e ∧ t.kind = .rightParen ∧
        o' = .operator outer l.disjunction (l.fill (join .or d e))) := by
  unfold step at h
  split at h
  · next outer l hkind =>
    split at h
    · next hname => exact Or.inl ⟨outer, l, rfl, hkind, hname, (Option.some.inj h).symm⟩
    · cases h
  · next outer l hkind =>
    split at h
    · next hdepth =>
      exact Or.inr (Or.inl ⟨outer, l, rfl, hkind, hdepth, (Option.some.inj h).symm⟩)
    · cases h
  · next outer l hkind =>
    split at h
    · next hdepth =>
      exact Or.inr (Or.inr (Or.inl ⟨outer, l, rfl, hkind, hdepth, (Option.some.inj h).symm⟩))
    · cases h
  · next outer d e hkind =>
    exact Or.inr (Or.inr (Or.inr (Or.inl ⟨outer, d, e, rfl, hkind, (Option.some.inj h).symm⟩)))
  · next outer d e hkind =>
    exact Or.inr (Or.inr (Or.inr (Or.inr
      (Or.inl ⟨outer, d, e, rfl, hkind, (Option.some.inj h).symm⟩))))
  · next l outer d e hkind =>
    exact Or.inr (Or.inr (Or.inr (Or.inr
      (Or.inr ⟨l, outer, d, e, rfl, hkind, (Option.some.inj h).symm⟩))))
  · cases h

end

end Outline

/-! ## A phrase is read as its expression -/

section
variable {names : List String} {limit : Nat}

open Outline (run run_cons run_append run_concat)

/-- What reading the tokens of a phrase with the expression `e` does, wherever `d` more negations
and parentheses may be opened. -/
def RunsAs (names : List String) (limit d : Nat) : Phrase → List Token → Expr → Prop
  | .primary, ts, e | .unary, ts, e =>
    ∀ outer l, depth outer + l.negations + d ≤ limit →
      run names limit (.operand outer l) ts = some (.operator outer l.disjunction (l.fill e))
  | .conjunction, ts, e =>
    ∀ outer a, depth outer + d ≤ limit →
      run names limit (.operand outer ⟨a, none, 0⟩) ts = some (.operator outer a e)
  | .disjunction, ts, e =>
    ∀ outer, depth outer + d ≤ limit → ∃ a x,
      run names limit (.operand outer .bare) ts = some (.operator outer a x) ∧ join .or a x = e

/-- **Every derivable phrase is read as its expression.** -/
theorem runsAs_of_derives {d : Nat} {p : Phrase} {ts : List Token} {e : Expr}
    (h : Derives names d p ts e) : RunsAs names limit d p ts e := by
  induction h with
  | name hkind hname =>
    intro outer l _
    rw [run_cons, Outline.step_word hkind hname]
    rfl
  | @group d l r ts e hl _ hr ih =>
    intro outer level hdepth
    obtain ⟨a, x, hrun, rfl⟩ := ih (level :: outer) (by rw [depth]; omega)
    rw [run_cons, Outline.step_leftParen hl (by omega), Option.bind_some, run_concat, hrun,
      Option.bind_some, Outline.step_rightParen hr]
  | primary _ ih => exact ih
  | negation hbang _ ih =>
    intro outer level hdepth
    rw [run_cons, Outline.step_bang hbang (by omega), Option.bind_some,
      ih outer level.negate (by rw [Level.negations_negate]; omega), Level.fill_negate]
    rfl
  | unary _ ih =>
    intro outer a hdepth
    rw [ih outer ⟨a, none, 0⟩ hdepth]
    rfl
  | and _ hamp _ iha ihb =>
    intro outer a hdepth
    rw [run_append, iha outer a hdepth, Option.bind_some, run_cons, Outline.step_amp hamp,
      Option.bind_some, ihb outer ⟨a, some _, 0⟩ hdepth]
    rfl
  | conjunction _ ih =>
    intro outer hdepth
    exact ⟨none, _, ih outer none hdepth, rfl⟩
  | or _ hpipe _ iha ihb =>
    intro outer hdepth
    obtain ⟨a, x, hrun, rfl⟩ := iha outer hdepth
    refine ⟨some (join .or a x), _, ?_, rfl⟩
    rw [run_append, hrun, Option.bind_some, run_cons, Outline.step_pipe hpipe, Option.bind_some,
      ihb outer _ hdepth]

/-! ## What an outline has read -/

/-- The tokens of a left operand that is a phrase `p` and of the operator after it, if there is
one. -/
inductive Waits (names : List String) (d : Nat) (p : Phrase) (kind : TokenKind) :
    Option Expr → List Token → Prop
  | nothing : Waits names d p kind none []
  | operand {ts : List Token} {t : Token} {a : Expr} : Derives names d p ts a → t.kind = kind →
      Waits names d p kind (some a) (ts ++ [t])

/-- The tokens of a level: its open disjunction, its open conjunction and its negations. -/
structure LevelReads (names : List String) (d : Nat) (l : Level) (us vs ws : List Token) :
    Prop where
  disjunction : Waits names d .disjunction .pipe l.disjunction us
  conjunction : Waits names d .conjunction .amp l.conjunction vs
  negations : ws.map Token.kind = List.replicate l.negations .bang

/-- The tokens of the levels around a parenthesis, up to the parenthesis.  `d` more negations and
parentheses may be opened inside it. -/
inductive OuterReads (names : List String) (limit : Nat) : List Level → Nat → List Token → Prop
  | outside : OuterReads names limit [] limit []
  | inside {outer : List Level} {l : Level} {n d : Nat} {ts us vs ws : List Token} {t : Token} :
      OuterReads names limit outer n ts → LevelReads names n l us vs ws → t.kind = .leftParen →
      d + 1 + l.negations = n →
      OuterReads names limit (l :: outer) d (ts ++ (us ++ (vs ++ (ws ++ [t]))))

/-- The tokens of an outline. -/
inductive Reads (names : List String) (limit : Nat) : Outline → List Token → Prop
  | operand {outer : List Level} {l : Level} {n d : Nat} {ts us vs ws : List Token} :
      OuterReads names limit outer n ts → LevelReads names n l us vs ws → d + l.negations = n →
      Reads names limit (.operand outer l) (ts ++ (us ++ (vs ++ ws)))
  | operator {outer : List Level} {a : Option Expr} {e : Expr} {d : Nat} {ts us vs : List Token} :
      OuterReads names limit outer d ts → Waits names d .disjunction .pipe a us →
      Derives names d .conjunction vs e →
      Reads names limit (.operator outer a e) (ts ++ (us ++ vs))

theorem OuterReads.depth_add {outer : List Level} {d : Nat} {ts : List Token}
    (h : OuterReads names limit outer d ts) : depth outer + d = limit := by
  induction h with
  | outside => exact Nat.zero_add limit
  | inside _ _ _ _ ih =>
    rw [depth]
    omega

theorem levelReads_bare (d : Nat) : LevelReads names d .bare [] [] [] :=
  ⟨.nothing, .nothing, rfl⟩

theorem reads_initial : Reads names limit .initial [] :=
  .operand .outside (levelReads_bare limit) rfl

/-- Negations around an operand. -/
theorem derives_negateTimes {n d : Nat} {ts us : List Token} {e : Expr}
    (hbangs : ts.map Token.kind = List.replicate n .bang) (h : Derives names d .unary us e) :
    Derives names (d + n) .unary (ts ++ us) (negateTimes n e) := by
  induction n generalizing d ts us e with
  | zero =>
    obtain rfl : ts = [] := List.map_eq_nil_iff.1 hbangs
    exact h
  | succ n ih =>
    -- the last bang is the innermost negation
    rw [List.replicate_succ'] at hbangs
    obtain ⟨front, last, rfl, hfront, hlast⟩ := List.map_eq_append_iff.1 hbangs
    obtain ⟨t, rfl, ht⟩ := List.map_eq_singleton_iff.1 hlast
    have hinner : Derives names (d + 1) .unary ([t] ++ us) (.not e) := .negation ht h
    have houter := ih hfront hinner
    rw [List.append_assoc, negateTimes]
    rwa [show d + (n + 1) = d + 1 + n by omega]

/-- A conjunction whose right operand is supplied. -/
theorem Waits.derives_conjunction {d : Nat} {a : Option Expr} {vs us : List Token} {e : Expr}
    (h : Waits names d .conjunction .amp a vs) (he : Derives names d .unary us e) :
    Derives names d .conjunction (vs ++ us) (join .and a e) := by
  cases h with
  | nothing => exact .unary he
  | operand ha ht =>
    rw [List.append_assoc, List.singleton_append]
    exact .and ha ht he

/-- A disjunction whose right operand is supplied. -/
theorem Waits.derives_disjunction {d : Nat} {a : Option Expr} {us vs : List Token} {e : Expr}
    (h : Waits names d .disjunction .pipe a us) (he : Derives names d .conjunction vs e) :
    Derives names d .disjunction (us ++ vs) (join .or a e) := by
  cases h with
  | nothing => exact .conjunction he
  | operand ha ht =>
    rw [List.append_assoc, List.singleton_append]
    exact .or ha ht he

/-- An operand completes the conjunction of its level. -/
theorem LevelReads.derives_fill {n d : Nat} {l : Level} {us vs ws xs : List Token} {e : Expr}
    (h : LevelReads names n l us vs ws) (hroom : d + l.negations = n)
    (he : Derives names d .primary xs e) :
    Derives names n .conjunction (vs ++ (ws ++ xs)) (l.fill e) := by
  subst hroom
  exact h.conjunction.derives_conjunction (derives_negateTimes h.negations (.primary he))

/-- **One step keeps an outline in line with the grammar.** -/
theorem reads_step {o o' : Outline} {ts : List Token} {t : Token} (h : Reads names limit o ts)
    (hstep : Outline.step names limit o t = some o') : Reads names limit o' (ts ++ [t]) := by
  rcases Outline.step_cases hstep with ⟨outer, l, rfl, hkind, hname, rfl⟩ |
    ⟨outer, l, rfl, hkind, hdepth, rfl⟩ | ⟨outer, l, rfl, hkind, hdepth, rfl⟩ |
    ⟨outer, a, e, rfl, hkind, rfl⟩ | ⟨outer, a, e, rfl, hkind, rfl⟩ |
    ⟨l, outer, a, e, rfl, hkind, rfl⟩
  · -- a name
    obtain ⟨houter, hlevel, hroom⟩ := h
    simp only [List.append_assoc]
    exact .operator houter hlevel.disjunction (hlevel.derives_fill hroom (.name hkind hname))
  · -- a negation
    obtain @⟨_, _, n, d, _, _, _, ws, houter, hlevel, hroom⟩ := h
    have hlimit := houter.depth_add
    have hbangs : (ws ++ [t]).map Token.kind = List.replicate l.negate.negations .bang := by
      rw [List.map_append, hlevel.negations, List.map_singleton, hkind, ← List.replicate_succ',
        Level.negations_negate]
    simp only [List.append_assoc]
    exact .operand (d := d - 1) houter ⟨hlevel.disjunction, hlevel.conjunction, hbangs⟩
      (by rw [Level.negations_negate]; omega)
  · -- an opening parenthesis
    obtain @⟨_, _, n, d, _, _, _, _, houter, hlevel, hroom⟩ := h
    have hlimit := houter.depth_add
    have hinside := OuterReads.inside (d := d - 1) houter hlevel hkind (by omega)
    simpa using Reads.operand hinside (levelReads_bare (d - 1)) rfl
  · -- a conjunction
    obtain _ | @⟨_, _, _, d, _, us, vs, houter, hwaits, he⟩ := h
    have hlevel : LevelReads names d ⟨a, some e, 0⟩ us (vs ++ [t]) [] :=
      ⟨hwaits, .operand he hkind, rfl⟩
    simpa using Reads.operand houter hlevel rfl
  · -- a disjunction
    obtain _ | @⟨_, _, _, d, _, us, vs, houter, hwaits, he⟩ := h
    have hlevel : LevelReads names d ⟨some (join .or a e), none, 0⟩ (us ++ vs ++ [t]) [] [] :=
      ⟨.operand (hwaits.derives_disjunction he) hkind, .nothing, rfl⟩
    simpa using Reads.operand houter hlevel rfl
  · -- a closing parenthesis
    obtain _ | ⟨hparen, hwaits, he⟩ := h
    obtain _ | ⟨houter, hlevel, hleft, hroom⟩ := hparen
    have hgroup := Derives.group hleft (hwaits.derives_disjunction he) hkind
    have hfill := hlevel.derives_fill (by omega) hgroup
    simpa using Reads.operator houter hlevel.disjunction hfill

/-- Reading keeps an outline in line with the grammar. -/
theorem reads_run {o o' : Outline} {ts us : List Token} (h : Reads names limit o ts)
    (hrun : run names limit o us = some o') : Reads names limit o' (ts ++ us) := by
  induction us generalizing o ts with
  | nil =>
    obtain rfl : o = o' := Option.some.inj hrun
    rwa [List.append_nil]
  | cons t us ih =>
    rw [run_cons] at hrun
    obtain ⟨o₁, hstep, hrest⟩ := Option.bind_eq_some_iff.1 hrun
    simpa using ih (reads_step h hstep) hrest

/-! ## The outlines of derivable sequences -/

/-- **The outline of a sequence has an expression exactly when the grammar derives it, and it is the
derived one.** -/
theorem expr?_run_eq_some_iff {ts : List Token} {e : Expr} :
    (run names limit .initial ts).bind Outline.expr? = some e ↔
      Derives names limit .disjunction ts e := by
  constructor
  · intro h
    obtain ⟨o, hrun, hexpr⟩ := Option.bind_eq_some_iff.1 h
    have hreads := reads_run reads_initial hrun
    rw [List.nil_append] at hreads
    match hreads, hexpr with
    | .operator .outside hwaits hd, hexpr =>
      obtain rfl := Option.some.inj hexpr
      exact hwaits.derives_disjunction hd
  · intro h
    obtain ⟨a, x, hrun, hexpr⟩ := runsAs_of_derives h [] (Nat.le_of_eq (Nat.zero_add limit))
    rw [Outline.initial, hrun, ← hexpr]
    rfl

end

/-- Room for more negations and parentheses does no harm. -/
theorem Derives.mono {names : List String} {d d' : Nat} {p : Phrase} {ts : List Token} {e : Expr}
    (h : Derives names d p ts e) (hle : d ≤ d') : Derives names d' p ts e := by
  induction h generalizing d' with
  | name hkind hname => exact .name hkind hname
  | group hl _ hr ih =>
    obtain _ | n := d'
    · cases hle
    · exact .group hl (ih (Nat.le_of_succ_le_succ hle)) hr
  | primary _ ih => exact .primary (ih hle)
  | negation hbang _ ih =>
    obtain _ | n := d'
    · cases hle
    · exact .negation hbang (ih (Nat.le_of_succ_le_succ hle))
  | unary _ ih => exact .unary (ih hle)
  | and _ hamp _ iha ihb => exact .and (iha hle) hamp (ihb hle)
  | conjunction _ ih => exact .conjunction (ih hle)
  | or _ hpipe _ iha ihb => exact .or (iha hle) hpipe (ihb hle)

/-- **A token sequence has at most one expression.** -/
theorem Derives.unique {names : List String} {d d' : Nat} {ts : List Token} {e e' : Expr}
    (h : Derives names d .disjunction ts e) (h' : Derives names d' .disjunction ts e') : e = e' := by
  have hrun := expr?_run_eq_some_iff.2 (h.mono (Nat.le_max_left d d'))
  have hrun' := expr?_run_eq_some_iff.2 (h'.mono (Nat.le_max_right d d'))
  exact Option.some.inj (hrun.symm.trans hrun')

end Rendezvous.Guard
