import Rendezvous.Proofs.Guard.Openings
import Rendezvous.Proofs.Guard.Reading

/-!
# Reading printed guards

The text of an expression is a phrase of the grammar with that expression, so it is read back as it
was printed.  What bounds it is how many negations and parentheses its text has open at once: its
`nesting` (`mostOpen_text`), which is the least bound under which the grammar derives the text
(`derives_text_iff`).  Printing puts parentheses only where precedence and association ask for them.
Every text of an expression opens as many at once as its printed text does (`Derives.nesting_le`);
what could be read can therefore be printed and read again.
-/

namespace Rendezvous.Guard

/-! ## Where parentheses are needed -/

/-- The least precedence with which an expression stands as this phrase without parentheses. -/
def Phrase.rank : Phrase → Nat
  | disjunction => 1
  | conjunction => 2
  | unary => 3
  | primary => 4

/-- The tightest phrase that the text of an expression is. -/
def Expr.phrase : Expr → Phrase
  | or .. => .disjunction
  | and .. => .conjunction
  | not _ => .unary
  | guard _ => .primary

@[simp] theorem Expr.rank_phrase (e : Expr) : e.phrase.rank = e.precedence := by
  cases e <;> rfl

theorem Expr.one_le_precedence (e : Expr) : 1 ≤ e.precedence := by
  cases e <;> simp [precedence]

/-- A phrase is every looser phrase too. -/
theorem Derives.loosen {names : List String} {d : Nat} {p q : Phrase} {ts : List Token} {e : Expr}
    (h : Derives names d q ts e) (hrank : p.rank ≤ q.rank) : Derives names d p ts e := by
  cases q with
  | disjunction =>
    cases p with
    | disjunction => exact h
    | conjunction | unary | primary => exact absurd hrank (by decide)
  | conjunction =>
    cases p with
    | disjunction => exact .conjunction h
    | conjunction => exact h
    | unary | primary => exact absurd hrank (by decide)
  | unary =>
    cases p with
    | disjunction => exact .conjunction (.unary h)
    | conjunction => exact .unary h
    | unary => exact h
    | primary => exact absurd hrank (by decide)
  | primary =>
    cases p with
    | disjunction => exact .conjunction (.unary (.primary h))
    | conjunction => exact .unary (.primary h)
    | unary => exact .primary h
    | primary => exact h

/-! ## Tokens and nesting of a printed expression -/

/-- Puts tokens in parentheses if asked to. -/
def enclose (wrap : Bool) (ts : List Token) : List Token :=
  if wrap then ⟨.leftParen, ['(']⟩ :: (ts ++ [⟨.rightParen, [')']⟩]) else ts

/-- The nesting of tokens that are put in parentheses if asked to. -/
def deepen (wrap : Bool) (n : Nat) : Nat :=
  if wrap then n + 1 else n

namespace Expr

/-- The tokens of the text of an expression, without its spaces. -/
def lexemes : Expr → List Token
  | guard name => [⟨.word, name.toList⟩]
  | not operand => ⟨.bang, ['!']⟩ :: enclose (operand.precedence < 3) operand.lexemes
  | and lhs rhs =>
    enclose (lhs.precedence < 2) lhs.lexemes
      ++ ⟨.amp, ['&']⟩ :: enclose (rhs.precedence < 3) rhs.lexemes
  | or lhs rhs =>
    enclose (lhs.precedence < 1) lhs.lexemes
      ++ ⟨.pipe, ['|']⟩ :: enclose (rhs.precedence < 2) rhs.lexemes

/-- How many negations and parentheses the text of an expression has open at once. -/
def nesting : Expr → Nat
  | guard _ => 0
  | not operand => deepen (operand.precedence < 3) operand.nesting + 1
  | and lhs rhs =>
    max (deepen (lhs.precedence < 2) lhs.nesting) (deepen (rhs.precedence < 3) rhs.nesting)
  | or lhs rhs =>
    max (deepen (lhs.precedence < 1) lhs.nesting) (deepen (rhs.precedence < 2) rhs.nesting)

/-! ## The characters of the text -/

theorem toList_parenthesize (text : String) :
    (parenthesize true text).toList = '(' :: (text.toList ++ [')']) := by
  simp [parenthesize]

theorem toList_text_not (operand : Expr) :
    (not operand).text.toList =
      '!' :: (parenthesize (operand.precedence < 3) operand.text).toList := by
  simp [text]

theorem toList_text_and (lhs rhs : Expr) :
    (and lhs rhs).text.toList = (parenthesize (lhs.precedence < 2) lhs.text).toList ++
      ' ' :: '&' :: ' ' :: (parenthesize (rhs.precedence < 3) rhs.text).toList := by
  have hright : decide (rhs.precedence ≤ 2) = decide (rhs.precedence < 3) :=
    decide_eq_decide.2 Nat.lt_succ_iff.symm
  rw [text, hright]
  simp

theorem toList_text_or (lhs rhs : Expr) :
    (or lhs rhs).text.toList = (parenthesize (lhs.precedence < 1) lhs.text).toList ++
      ' ' :: '|' :: ' ' :: (parenthesize (rhs.precedence < 2) rhs.text).toList := by
  have hright : decide (rhs.precedence ≤ 1) = decide (rhs.precedence < 2) :=
    decide_eq_decide.2 Nat.lt_succ_iff.symm
  rw [text, hright]
  simp

end Expr

/-! ## The tokens of the text -/

theorem spells_parenthesize {text : String} {ts : List Token} (h : Spells text.toList ts)
    (wrap : Bool) : Spells (Expr.parenthesize wrap text).toList (enclose wrap ts) := by
  cases wrap with
  | false => exact h
  | true =>
    rw [Expr.toList_parenthesize]
    exact (h.append_operator (c := ')') rfl).operator_cons (c := '(') rfl

/-- The text of an expression over words spells its tokens. -/
theorem spells_text {e : Expr} (h : ∀ n ∈ e.guards, IsWord n.toList) :
    Spells e.text.toList e.lexemes := by
  induction e with
  | guard name => exact spells_word (h name (by simp [Expr.guards]))
  | not operand ih =>
    rw [Expr.toList_text_not]
    exact (spells_parenthesize (ih h) _).operator_cons (c := '!') rfl
  | and lhs rhs ihl ihr =>
    obtain ⟨hl, hr⟩ := List.forall_mem_append.1 h
    rw [Expr.toList_text_and]
    exact (spells_parenthesize (ihl hl) _).spaced (c := '&') rfl (spells_parenthesize (ihr hr) _)
  | or lhs rhs ihl ihr =>
    obtain ⟨hl, hr⟩ := List.forall_mem_append.1 h
    rw [Expr.toList_text_or]
    exact (spells_parenthesize (ihl hl) _).spaced (c := '|') rfl (spells_parenthesize (ihr hr) _)

/-! ## What is open in the text -/

/-- Parentheses are put where an expression behind negations is not one operand. -/
theorem completes_parenthesize {x : Expr} {o : Opened} {wrap : Bool}
    (hx : ∀ o : Opened, o.negations = 0 ∨ 3 ≤ x.precedence →
      o.Completes x.text.toList x.nesting)
    (h : wrap = false → o.negations = 0 ∨ 3 ≤ x.precedence) :
    o.Completes (Expr.parenthesize wrap x.text).toList (deepen wrap x.nesting) := by
  cases wrap with
  | false => exact hx o (h rfl)
  | true =>
    rw [Expr.toList_parenthesize]
    exact (hx ⟨0, o.negations :: o.outer⟩ (Or.inl rfl)).group

theorem completes_text {e : Expr} (h : ∀ n ∈ e.guards, IsWord n.toList) :
    ∀ o : Opened, o.negations = 0 ∨ 3 ≤ e.precedence → o.Completes e.text.toList e.nesting := by
  induction e with
  | guard name => exact fun o _ => Opened.completes_word (h name (by simp [Expr.guards])) o
  | not operand ih =>
    intro o _
    rw [Expr.toList_text_not]
    refine (completes_parenthesize (ih h) fun hwrap => Or.inr ?_).negation
    exact Nat.le_of_not_lt (of_decide_eq_false hwrap)
  | and lhs rhs ihl ihr =>
    intro o hprec
    obtain ⟨hl, hr⟩ := List.forall_mem_append.1 h
    have hnone : o.negations = 0 := hprec.resolve_right (by simp [Expr.precedence])
    rw [Expr.toList_text_and]
    exact (completes_parenthesize (ihl hl) fun _ => Or.inl hnone).spaced hnone (Or.inl rfl)
      (completes_parenthesize (ihr hr) fun _ => Or.inl hnone)
  | or lhs rhs ihl ihr =>
    intro o hprec
    obtain ⟨hl, hr⟩ := List.forall_mem_append.1 h
    have hnone : o.negations = 0 := hprec.resolve_right (by simp [Expr.precedence])
    rw [Expr.toList_text_or]
    exact (completes_parenthesize (ihl hl) fun _ => Or.inl hnone).spaced hnone (Or.inr rfl)
      (completes_parenthesize (ihr hr) fun _ => Or.inl hnone)

/-- **The text of an expression has as much open at once as the expression is nested.** -/
theorem mostOpen_text {e : Expr} (h : ∀ n ∈ e.guards, IsWord n.toList) :
    mostOpen e.text.toList = e.nesting :=
  mostOpen_of_completes (completes_text h _ (Or.inl rfl))

/-! ## The printed expression is derived -/

section
variable {names : List String} {d : Nat}

/-- An operand is derived where its phrase is due, in parentheses if it needs them. -/
theorem derives_enclose {x : Expr} {p : Phrase}
    (hx : ∀ d, x.nesting ≤ d → Derives names d x.phrase x.lexemes x)
    (h : deepen (x.precedence < p.rank) x.nesting ≤ d) :
    Derives names d p (enclose (x.precedence < p.rank) x.lexemes) x := by
  by_cases hprec : x.precedence < p.rank
  · rw [decide_eq_true hprec, deepen, if_pos rfl] at h
    rw [decide_eq_true hprec, enclose, if_pos rfl]
    obtain ⟨d, rfl⟩ : ∃ n, d = n + 1 := ⟨d - 1, by omega⟩
    have hinner : Derives names d .disjunction x.lexemes x :=
      (hx d (Nat.le_of_succ_le_succ h)).loosen (by rw [x.rank_phrase]; exact x.one_le_precedence)
    exact (Derives.group rfl hinner rfl).loosen (by cases p <;> decide)
  · rw [decide_eq_false hprec, deepen, if_neg (by decide)] at h
    rw [decide_eq_false hprec, enclose, if_neg (by decide)]
    exact (hx d h).loosen (by rw [x.rank_phrase]; exact Nat.le_of_not_lt hprec)

/-- The tokens of an expression are a phrase with that expression. -/
theorem derives_lexemes {e : Expr} (hnames : ∀ n ∈ e.guards, n ∈ names) :
    ∀ d, e.nesting ≤ d → Derives names d e.phrase e.lexemes e := by
  induction e with
  | guard name =>
    intro d _
    have hname : String.ofList name.toList ∈ names := by
      rw [String.ofList_toList]
      exact hnames name (by simp [Expr.guards])
    simpa [Expr.lexemes, Expr.phrase] using
      Derives.name (d := d) (t := ⟨.word, name.toList⟩) rfl hname
  | not operand ih =>
    intro d h
    obtain ⟨d, rfl⟩ : ∃ n, d = n + 1 := ⟨d - 1, by rw [Expr.nesting] at h; omega⟩
    exact .negation rfl (derives_enclose (p := .unary) (ih hnames) (Nat.le_of_succ_le_succ h))
  | and lhs rhs ihl ihr =>
    intro d h
    obtain ⟨hl, hr⟩ := List.forall_mem_append.1 hnames
    obtain ⟨hlhs, hrhs⟩ := Nat.max_le.1 h
    exact .and (derives_enclose (p := .conjunction) (ihl hl) hlhs) rfl
      (derives_enclose (p := .unary) (ihr hr) hrhs)
  | or lhs rhs ihl ihr =>
    intro d h
    obtain ⟨hl, hr⟩ := List.forall_mem_append.1 hnames
    obtain ⟨hlhs, hrhs⟩ := Nat.max_le.1 h
    exact .or (derives_enclose (p := .disjunction) (ihl hl) hlhs) rfl
      (derives_enclose (p := .conjunction) (ihr hr) hrhs)

/-! ## No text of an expression is nested less -/

/-- A disjunction needs no parentheses around any expression. -/
theorem deepen_disjunction (e : Expr) (n : Nat) :
    deepen (e.precedence < Phrase.disjunction.rank) n = n := by
  have hnot : ¬ e.precedence < Phrase.disjunction.rank := Nat.not_lt_of_le e.one_le_precedence
  rw [decide_eq_false hnot, deepen, if_neg (by decide)]

theorem deepen_le_deepen {p q : Phrase} (hrank : p.rank ≤ q.rank) (e : Expr) :
    deepen (e.precedence < p.rank) e.nesting ≤ deepen (e.precedence < q.rank) e.nesting := by
  unfold deepen
  by_cases hp : e.precedence < p.rank
  · have hq : e.precedence < q.rank := Nat.lt_of_lt_of_le hp hrank
    simp [hp, hq]
  · by_cases hq : e.precedence < q.rank <;> simp [hp, hq]

/-- **Printing opens no more negations and parentheses than any text of the expression does.** -/
theorem Derives.nesting_le {p : Phrase} {ts : List Token} {e : Expr} (h : Derives names d p ts e) :
    deepen (e.precedence < p.rank) e.nesting ≤ d := by
  induction h with
  | name _ _ => exact Nat.zero_le _
  | group _ _ _ ih =>
    -- parentheses leave room for those that printing may need in their place
    rw [deepen_disjunction] at ih
    unfold deepen
    split <;> omega
  | primary _ ih => exact Nat.le_trans (deepen_le_deepen (q := .primary) (by decide) _) ih
  | negation _ _ ih => exact Nat.succ_le_succ ih
  | unary _ ih => exact Nat.le_trans (deepen_le_deepen (q := .unary) (by decide) _) ih
  | and _ _ _ iha ihb => exact Nat.max_le.2 ⟨iha, ihb⟩
  | conjunction _ ih => exact Nat.le_trans (deepen_le_deepen (q := .conjunction) (by decide) _) ih
  | or _ _ _ iha ihb => exact Nat.max_le.2 ⟨iha, ihb⟩

/-- A derived expression has declared names only. -/
theorem Derives.mem_names {p : Phrase} {ts : List Token} {e : Expr} (h : Derives names d p ts e) :
    ∀ n ∈ e.guards, n ∈ names := by
  induction h with
  | name _ hname => simpa [Expr.guards] using hname
  | group _ _ _ ih => exact ih
  | primary _ ih => exact ih
  | negation _ _ ih => exact ih
  | unary _ ih => exact ih
  | and _ _ _ iha ihb => exact List.forall_mem_append.2 ⟨iha, ihb⟩
  | conjunction _ ih => exact ih
  | or _ _ _ iha ihb => exact List.forall_mem_append.2 ⟨iha, ihb⟩

/-! ## Printing and reading -/

/-- What is derived from some text can be printed within the same bound. -/
theorem nesting_le_of_derives {text : List Char} {e : Expr}
    (h : Derives names d .disjunction (significant (tokens text)) e) :
    e.nesting ≤ d ∧ ∀ n ∈ e.guards, n ∈ names ∧ IsWord n.toList := by
  have hnesting := h.nesting_le
  rw [deepen_disjunction] at hnesting
  exact ⟨hnesting, fun n hn => ⟨h.mem_names n hn, isWord_of_derives h n hn⟩⟩

/-- **The nesting of an expression is the least bound under which its text is derived.** -/
theorem derives_text_iff {e : Expr} :
    Derives names d .disjunction (significant (tokens e.text.toList)) e ↔
      e.nesting ≤ d ∧ ∀ n ∈ e.guards, n ∈ names ∧ IsWord n.toList := by
  constructor
  · exact nesting_le_of_derives
  · rintro ⟨hnesting, hguards⟩
    rw [(spells_text fun n hn => (hguards n hn).2).significant_tokens]
    refine (derives_lexemes (fun n hn => (hguards n hn).1) d hnesting).loosen ?_
    rw [e.rank_phrase]
    exact e.one_le_precedence

end

/-- **Printing and reading are inverse.**  The text of an expression is read back as that expression
exactly when its names are declared words and no more than `maxNesting` negations and parentheses
are open at once in it.  Whatever text an expression was read from, its own text is among those. -/
theorem Grammar.reads_back_printed_text (g : Grammar) (e : Expr) :
    (g.read e.text = .ok e ↔
      mostOpen e.text.toList ≤ maxNesting ∧ ∀ n ∈ e.guards, n ∈ g.names ∧ IsWord n.toList) ∧
    ∀ text, g.read text = .ok e → mostOpen e.text.toList ≤ maxNesting ∧ g.read e.text = .ok e := by
  have hopen : (∀ n ∈ e.guards, n ∈ g.names ∧ IsWord n.toList) →
      mostOpen e.text.toList = e.nesting := fun h => mostOpen_text fun n hn => (h n hn).2
  have hprinted : g.read e.text = .ok e ↔
      mostOpen e.text.toList ≤ maxNesting ∧ ∀ n ∈ e.guards, n ∈ g.names ∧ IsWord n.toList := by
    rw [read_eq_ok_iff, derives_text_iff]
    exact and_congr_left fun hguards => by rw [hopen hguards]
  refine ⟨hprinted, fun text hread => ?_⟩
  obtain ⟨hnesting, hguards⟩ := nesting_le_of_derives ((read_eq_ok_iff g text e).1 hread)
  rw [← hopen hguards] at hnesting
  exact ⟨hnesting, hprinted.2 ⟨hnesting, hguards⟩⟩

/-- A text with parentheses to spare, whose expression needs one pair. -/
theorem reads_back_printed_text_redundant :
    let g : Grammar := ⟨["a", "b"]⟩
    let e : Expr := .and (.or (.guard "a") (.guard "b")) (.not (.not (.guard "a")))
    g.read "(a|((b)))&!(!a)" = .ok e ∧ mostOpen e.text.toList ≤ maxNesting ∧
      g.read e.text = .ok e := by
  intro g e
  have hread : g.read "(a|((b)))&!(!a)" = .ok e := by decide +kernel
  exact ⟨hread, (Grammar.reads_back_printed_text g e).2 _ hread⟩

/-- Parentheses stay on the right of an operator that binds no looser than the operand. -/
example : (Expr.and (.guard "a") (.and (.guard "b") (.not (.or (.guard "a") (.guard "b"))))).text =
    "a & (b & !(a | b))" := by decide

end Rendezvous.Guard
