import Rendezvous.Proofs.Guard.Descent

/-!
# Builders and cursors

A procedure of the descent only adds trees to the builder it is given (`Builder.append`): what it starts
it also finishes.  `Cursor.reads` is what the reader makes of the tokens from a cursor on, given the
state that the cursor stands for, and stays the same while both move past the same token.
-/

namespace Rendezvous.Guard

/-! ## Builders -/

namespace Builder

/-- A builder after more finished trees. -/
def append (b : Builder) (trees : List Tree) : Builder :=
  { b with finished := b.finished ++ trees }

/-- The innermost started node begins within the finished trees. -/
def IsValid (b : Builder) : Prop :=
  ∀ node ∈ b.started.head?, node.2 ≤ b.finished.length

variable {b : Builder} {kind : NodeKind} {trees : List Tree}

@[simp] theorem append_nil (b : Builder) : b.append [] = b := by
  simp [append]

@[simp] theorem append_append (b : Builder) (ts us : List Tree) :
    (b.append ts).append us = b.append (ts ++ us) := by
  simp [append]

theorem token_eq_append (b : Builder) (t : Token) : b.token t = b.append [.leaf t] :=
  rfl

theorem IsValid.append (h : b.IsValid) (trees : List Tree) : (b.append trees).IsValid := by
  intro node hnode
  have hle := h node hnode
  simp only [Builder.append, List.length_append]
  omega

/-- A started node takes the trees that have been added since as its children. -/
theorem finish?_start_append (b : Builder) (kind : NodeKind) (trees : List Tree) :
    ((b.start kind).append trees).finish? = some (b.append [.node kind trees]) := by
  simp [finish?, start, append]

end Builder

/-! ## Appending to levels -/

/-- Adds children to the innermost open node. -/
def Slot.append (s : Slot) (ts : List Tree) : Slot :=
  match s.negations, s.conjunction, s.disjunction with
  | first :: rest, _, _ => { s with negations := (first ++ ts) :: rest }
  | [], some first, _ => { s with conjunction := some (first ++ ts) }
  | [], none, some first => { s with disjunction := some (first ++ ts) }
  | [], none, none => { s with lead := s.lead ++ ts }

@[simp] theorem Slot.append_nil (s : Slot) : s.append [] = s := by
  obtain ⟨lead, _ | disjunction, _ | conjunction, _ | ⟨first, rest⟩⟩ := s <;> simp [append]

theorem Slot.push_append (s : Slot) (ts : List Tree) (t : Tree) :
    (s.append ts).push t = s.append (ts ++ [t]) := by
  obtain ⟨lead, _ | disjunction, _ | conjunction, _ | ⟨first, rest⟩⟩ := s <;> simp [push, append]

/-- Adds children after the last operand. -/
def Filled.append (f : Filled) (ts : List Tree) : Filled :=
  { f with operand := f.operand ++ ts }

@[simp] theorem Filled.append_nil (f : Filled) : f.append [] = f := by
  simp [append]

theorem Filled.push_append (f : Filled) (ts : List Tree) (t : Tree) :
    (f.append ts).push t = f.append (ts ++ [t]) := by
  simp [push, append]

/-! ## Cursors -/

/-- Whether a token is whitespace. -/
def Token.isBlank (t : Token) : Bool :=
  t.kind = .whitespace

/-- The whitespace at the beginning of some tokens, as leaves. -/
def blanks (ts : List Token) : List Tree :=
  (ts.takeWhile Token.isBlank).map .leaf

theorem blanks_cons {t : Token} (h : t.kind = .whitespace) (ts : List Token) :
    blanks (t :: ts) = .leaf t :: blanks ts := by
  simp [blanks, Token.isBlank, h]

theorem blanks_cons_of_ne {t : Token} (h : t.kind ≠ .whitespace) (ts : List Token) :
    blanks (t :: ts) = [] := by
  simp [blanks, Token.isBlank, h]

/-- A reading after errors that were found before. -/
def Reading.after (errors : List SyntaxError) (r : Reading) : Reading :=
  ⟨r.tree, errors ++ r.errors⟩

namespace Cursor

variable {c : Cursor} {names : List String}

/-- The next token is not whitespace. -/
def IsSettled (c : Cursor) : Prop :=
  ∀ t ∈ c.rest.head?, t.kind ≠ .whitespace

/-- What the reader makes of the tokens from a cursor on. -/
def reads (names : List String) (c : Cursor) (state : State) : Reading :=
  (readFrom names c.offset state c.rest).after c.errors

/-- What the reader makes of the tokens from a cursor on when an operand is complete. -/
def outlook (names : List String) (c : Cursor) (outer : List Slot) (f : Filled) : Reading :=
  c.reads names (if c.abandoned then .surplus (unwind outer f) else .operator outer f)

/-- A cursor that has added some trees to a builder, with the number of open nodes `d` and at most `n`
tokens left. -/
structure Holds (c : Cursor) (b : Builder) (trees : List Tree) (d n : Nat) : Prop where
  builder_eq : c.builder = b.append trees
  depth_eq : c.depth = d
  length_le : c.rest.length ≤ n
  swallowed : c.abandoned = true → c.rest = []

/-! ### Skipping -/

theorem skipFrom_eq {c : Cursor} {ts : List Token} (h : c.rest = ts) : c.skipFrom ts =
    { c with
      builder := c.builder.append (blanks ts)
      rest := ts.dropWhile Token.isBlank
      offset := (c.skipFrom ts).offset } := by
  induction ts generalizing c with
  | nil =>
    obtain ⟨builder, rest, offset, depth, abandoned, errors⟩ := c
    subst h
    simp [skipFrom, blanks]
  | cons t ts ih =>
    rw [skipFrom]
    by_cases hkind : t.kind = .whitespace
    · have hblank : t.isBlank = true := by simp [Token.isBlank, hkind]
      rw [if_pos hkind, blanks_cons hkind, List.dropWhile_cons_of_pos hblank, ih rfl]
      simp [advance, Builder.token_eq_append]
    · have hblank : ¬ t.isBlank = true := by simp [Token.isBlank, hkind]
      rw [if_neg hkind, blanks_cons_of_ne hkind, List.dropWhile_cons_of_neg hblank, ← h,
        Builder.append_nil]

/-- Skipping adds whitespace to the tree and changes nothing else. -/
theorem skip_eq (c : Cursor) : c.skip =
    { c with
      builder := c.builder.append (blanks c.rest)
      rest := c.rest.dropWhile Token.isBlank
      offset := c.skip.offset } :=
  skipFrom_eq rfl

@[simp] theorem builder_skip (c : Cursor) : c.skip.builder = c.builder.append (blanks c.rest) := by
  rw [skip_eq]

@[simp] theorem rest_skip (c : Cursor) : c.skip.rest = c.rest.dropWhile Token.isBlank := by
  rw [skip_eq]

@[simp] theorem depth_skip (c : Cursor) : c.skip.depth = c.depth := by
  rw [skip_eq]

@[simp] theorem abandoned_skip (c : Cursor) : c.skip.abandoned = c.abandoned := by
  rw [skip_eq]

theorem isSettled_skip (c : Cursor) : c.skip.IsSettled := by
  intro t ht hkind
  rw [rest_skip] at ht
  have hnot := List.head?_dropWhile_not Token.isBlank c.rest
  rw [ht] at hnot
  simp [Token.isBlank, hkind] at hnot

theorem length_skip_le (c : Cursor) : c.skip.rest.length ≤ c.rest.length := by
  rw [rest_skip]
  exact (List.dropWhile_suffix Token.isBlank).length_le

theorem isSettled_of_cons {t : Token} {ts : List Token} (h : c.rest = t :: ts)
    (hkind : t.kind ≠ .whitespace) : c.IsSettled := by
  intro u hu
  rw [h] at hu
  obtain rfl := Option.some.inj hu
  exact hkind

theorem skip_of_isSettled (h : c.IsSettled) : c.skip = c := by
  unfold skip
  cases hrest : c.rest with
  | nil => rfl
  | cons t ts =>
    rw [skipFrom, if_neg (h t (by rw [hrest]; rfl))]

@[simp] theorem skip_skip (c : Cursor) : c.skip.skip = c.skip :=
  skip_of_isSettled c.isSettled_skip

/-- Reading a token.  What the tree looks like does not matter. -/
theorem reads_step {c' : Cursor} {state state' : State} {t : Token} {ts : List Token}
    {causes : List Cause} (h : c.rest = t :: ts) (hstep : step names state t = (state', causes))
    (hrest : c'.rest = ts) (hoffset : c'.offset = c.offset + Text.byteSize t.text)
    (herrors : c'.errors =
      c.errors ++ SyntaxError.at c.offset (Text.byteSize t.text) causes) :
    c.reads names state = c'.reads names state' := by
  simp [reads, h, readFrom, hstep, hrest, hoffset, herrors, Reading.after]

/-- Reading a token without errors. -/
theorem reads_advance {state state' : State} {t : Token} {ts : List Token}
    (h : c.rest = t :: ts) (hstep : step names state t = (state', [])) :
    c.reads names state = (c.advance t ts).reads names state' :=
  reads_step h hstep rfl rfl (List.append_nil _).symm

/-- The reader keeps whitespace where the descent puts it. -/
theorem reads_skipFrom {ts : List Token} {state : List Tree → State}
    (hstep : ∀ trees t, t.kind = .whitespace →
      step names (state trees) t = (state (trees ++ [.leaf t]), [])) (h : c.rest = ts)
    (trees : List Tree) :
    c.reads names (state trees) = (c.skipFrom ts).reads names (state (trees ++ blanks ts)) := by
  induction ts generalizing c trees with
  | nil => simp [skipFrom, blanks]
  | cons t ts ih =>
    rw [skipFrom]
    by_cases hkind : t.kind = .whitespace
    · have hnext : (c.advance t ts).rest = ts := rfl
      rw [if_pos hkind, blanks_cons hkind, reads_advance h (hstep trees t hkind), ih hnext,
        List.append_assoc, List.singleton_append]
    · rw [if_neg hkind, blanks_cons_of_ne hkind, List.append_nil]

theorem reads_skip_operand (names : List String) (c : Cursor) (outer : List Slot) (s : Slot) :
    c.reads names (.operand outer s) =
      c.skip.reads names (.operand outer (s.append (blanks c.rest))) := by
  have hstep : ∀ trees t, t.kind = .whitespace → step names (.operand outer (s.append trees)) t =
      (.operand outer (s.append (trees ++ [.leaf t])), []) := by
    intro trees t hkind
    simp [step, stepOperand, hkind, Slot.push_append]
  simpa [skip] using reads_skipFrom hstep rfl []

theorem bump_eq {t : Token} {ts : List Token} (h : c.rest = t :: ts) (hkind : t.kind ≠ .whitespace) :
    c.bump = c.advance t ts := by
  simp only [bump, skip_of_isSettled (isSettled_of_cons h hkind), h]

theorem report_eq (hsettled : c.IsSettled) (hactive : c.abandoned = false) (cause : Cause) :
    c.report cause = { c with errors := c.errors ++ SyntaxError.at c.offset c.nextSize [cause] } := by
  simp [report, hactive, skip_of_isSettled hsettled]

theorem report_of_abandoned (h : c.abandoned = true) (cause : Cause) : c.report cause = c := by
  simp [report, h]

end Cursor

end Rendezvous.Guard
