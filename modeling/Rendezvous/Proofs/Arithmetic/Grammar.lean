import Rendezvous.Proofs.Arithmetic.Letters

/-!
# What arithmetic texts denote

The grammar of expressions as a relation between texts and trees, and the symbols of a text.

* `sum := product (('+' | '-') product)*`
* `product := primary (('*' | '/') primary)*`
* `primary := digits | letter | '(' sum ')'`

The repetitions are written with their last operand apart, so the operations of one strength
associate to the left; parentheses leave no trace in the tree.  Cutting a text into symbols loses
nothing (`flatMap_symbols`), and a number is one symbol as long as no digit follows it
(`symbols_digits_append`).
-/

namespace Rendezvous.Arithmetic

/-! ## The grammar -/

/-- The character of an operation. -/
def Operation.char : Operation → Char
  | add => '+'
  | subtract => '-'
  | multiply => '*'
  | divide => '/'

/-- The rules of the grammar. -/
inductive Phrase where
  | sum
  | product
  | primary
  deriving DecidableEq, Repr

/-- `Denotes p text e`: the text is a phrase `p` with the tree `e`. -/
inductive Denotes : Phrase → List Char → Expr → Prop
  | number {ds : List Char} : ds ≠ [] → (∀ d ∈ ds, d.isDigit = true) →
      Denotes .primary ds (.literal (Nat.ofDigitChars 10 ds 0))
  | parameter {c : Char} : c.isLower = true → Denotes .primary [c] (.parameter c)
  | group {cs : List Char} {e : Expr} : Denotes .sum cs e →
      Denotes .primary ('(' :: (cs ++ [')'])) e
  | primary {cs : List Char} {e : Expr} : Denotes .primary cs e → Denotes .product cs e
  | scale {op : Operation} {cs ds : List Char} {a b : Expr} : Denotes .product cs a →
      op.bindsTightly = true → Denotes .primary ds b →
      Denotes .product (cs ++ op.char :: ds) (.binary op a b)
  | product {cs : List Char} {e : Expr} : Denotes .product cs e → Denotes .sum cs e
  | shift {op : Operation} {cs ds : List Char} {a b : Expr} : Denotes .sum cs a →
      op.bindsTightly = false → Denotes .product ds b →
      Denotes .sum (cs ++ op.char :: ds) (.binary op a b)

/-! ## Symbols -/

/-- The characters of a symbol. -/
def Symbol.text : Symbol → List Char
  | digits ds => ds
  | letter c => [c]
  | operation op => [op.char]
  | opening => ['(']
  | closing => [')']

theorem Symbol.text_ofChar (c : Char) : (Symbol.ofChar c).text = [c] := by
  unfold Symbol.ofChar
  split <;> rfl

theorem Symbol.ofChar_ne_digits (c : Char) (ds : List Char) : Symbol.ofChar c ≠ .digits ds := by
  unfold Symbol.ofChar
  split <;> nofun

/-- Puts a digit in front of symbols, joining it to a number that starts there. -/
def joinDigit (d : Char) : List Symbol → List Symbol
  | .digits ds :: rest => .digits (d :: ds) :: rest
  | rest => .digits [d] :: rest

/-- The symbols of a text. -/
def symbols : List Char → List Symbol
  | [] => []
  | c :: rest => if c.isDigit then joinDigit c (symbols rest) else .ofChar c :: symbols rest

theorem map_symbol_consDigit (offset : Nat) (d : Char) (ls : List Lexeme) :
    (consDigit offset d ls).map Lexeme.symbol = joinDigit d (ls.map Lexeme.symbol) := by
  match ls with
  | [] => rfl
  | ⟨_, symbol⟩ :: rest => cases symbol <;> rfl

/-- The symbols of a text are those of its lexemes. -/
theorem map_symbol_lexemes (offset : Nat) (text : List Char) :
    (lexemes offset text).map Lexeme.symbol = symbols text := by
  induction text generalizing offset with
  | nil => rfl
  | cons c rest ih =>
    rw [lexemes, symbols, ← ih (offset + 1)]
    split
    · exact map_symbol_consDigit offset c _
    · rfl

theorem flatMap_joinDigit (d : Char) (ss : List Symbol) :
    (joinDigit d ss).flatMap Symbol.text = d :: ss.flatMap Symbol.text := by
  match ss with
  | [] => rfl
  | symbol :: rest => cases symbol <;> rfl

/-- The symbols of a text put together are the text. -/
theorem flatMap_symbols (text : List Char) : (symbols text).flatMap Symbol.text = text := by
  induction text with
  | nil => rfl
  | cons c rest ih =>
    rw [symbols]
    split
    · rw [flatMap_joinDigit, ih]
    · rw [List.flatMap_cons, ih, Symbol.text_ofChar, List.singleton_append]

/-! ## Symbols at the front of a text -/

theorem isDigit_eq_false_of_isLower {c : Char} (h : c.isLower = true) : c.isDigit = false := by
  refine Bool.eq_false_iff.2 fun hdigit => ?_
  have hlower : 'a'.val ≤ c.val := of_decide_eq_true (Bool.and_eq_true_iff.1 h).1
  have hnine : c.val ≤ '9'.val := of_decide_eq_true (Bool.and_eq_true_iff.1 hdigit).2
  exact absurd (UInt32.le_trans hlower hnine) (by decide)

theorem isLower_eq_false_of_isDigit {c : Char} (h : c.isDigit = true) : c.isLower = false := by
  refine Bool.eq_false_iff.2 fun hlower => ?_
  rw [isDigit_eq_false_of_isLower hlower] at h
  cases h

theorem not_mem_punctuation_of_isLower {c : Char} (h : c.isLower = true) :
    c ∉ Parameters.punctuation := by
  have hnone : Parameters.punctuation.all (fun d => !d.isLower) = true := by decide
  intro hc
  have hc' := List.all_eq_true.1 hnone c hc
  rw [h] at hc'
  cases hc'

theorem isLower_eq_false_of_mem_punctuation {c : Char} (h : c ∈ Parameters.punctuation) :
    c.isLower = false :=
  Bool.eq_false_iff.2 fun hlower => not_mem_punctuation_of_isLower hlower h

theorem Operation.char_mem_punctuation (op : Operation) : op.char ∈ Parameters.punctuation := by
  cases op <;> decide

theorem symbols_cons {c : Char} (h : c.isDigit = false) (rest : List Char) :
    symbols (c :: rest) = .ofChar c :: symbols rest := by
  simp [symbols, h]

theorem symbols_operation (op : Operation) (rest : List Char) :
    symbols (op.char :: rest) = .operation op :: symbols rest := by
  cases op <;> exact symbols_cons (by decide) rest

theorem symbols_opening (rest : List Char) : symbols ('(' :: rest) = .opening :: symbols rest :=
  symbols_cons (by decide) rest

theorem symbols_closing (rest : List Char) : symbols (')' :: rest) = .closing :: symbols rest :=
  symbols_cons (by decide) rest

theorem symbols_letter {c : Char} (h : c.isLower = true) (rest : List Char) :
    symbols (c :: rest) = .letter c :: symbols rest := by
  rw [symbols_cons (isDigit_eq_false_of_isLower h),
    ofChar_eq_letter_iff.2 ⟨rfl, not_mem_punctuation_of_isLower h⟩]

/-- No number continues in a text. -/
def Apart (rest : List Char) : Prop :=
  ∀ c ∈ rest.head?, c.isDigit = false

theorem apart_nil : Apart [] := by simp [Apart]

theorem apart_operation (op : Operation) (rest : List Char) : Apart (op.char :: rest) := by
  cases op <;> simp [Apart, Operation.char]

theorem apart_closing (rest : List Char) : Apart (')' :: rest) := by simp [Apart]

theorem joinDigit_symbols (d : Char) {rest : List Char} (hrest : Apart rest) :
    joinDigit d (symbols rest) = .digits [d] :: symbols rest := by
  cases rest with
  | nil => rfl
  | cons c rest =>
    rw [symbols_cons (hrest c rfl), Symbol.ofChar.eq_def]
    split <;> rfl

/-- A number is one symbol. -/
theorem symbols_digits_append {ds rest : List Char} (hne : ds ≠ [])
    (hdigits : ∀ d ∈ ds, d.isDigit = true) (hrest : Apart rest) :
    symbols (ds ++ rest) = .digits ds :: symbols rest := by
  induction ds with
  | nil => exact absurd rfl hne
  | cons d ds ih =>
    obtain ⟨hd, hdigits⟩ := List.forall_mem_cons.1 hdigits
    rw [List.cons_append, symbols, if_pos hd]
    cases ds with
    | nil => exact joinDigit_symbols d hrest
    | cons d' ds =>
      rw [ih (List.cons_ne_nil d' ds) hdigits]
      rfl

/-! ## Symbols of allowed texts -/

/-- Numbers have digits, and letters are lower case. -/
def Symbol.Valid : Symbol → Prop
  | digits ds => ds ≠ [] ∧ ∀ d ∈ ds, d.isDigit = true
  | letter c => c.isLower = true
  | _ => True

theorem valid_joinDigit {d : Char} (hd : d.isDigit = true) {ss : List Symbol}
    (h : ∀ s ∈ ss, s.Valid) : ∀ s ∈ joinDigit d ss, s.Valid := by
  unfold joinDigit
  split
  · next ds rest =>
    obtain ⟨⟨_, hdigits⟩, hrest⟩ := List.forall_mem_cons.1 h
    exact List.forall_mem_cons.2
      ⟨⟨List.cons_ne_nil d ds, List.forall_mem_cons.2 ⟨hd, hdigits⟩⟩, hrest⟩
  · exact List.forall_mem_cons.2 ⟨⟨List.cons_ne_nil d [], by simpa using hd⟩, h⟩

/-- A text of allowed characters has valid symbols. -/
theorem valid_symbols {ps : Parameters} {text : List Char}
    (h : ∀ c ∈ text, ps.allows c = true) : ∀ s ∈ symbols text, s.Valid := by
  induction text with
  | nil => exact fun s hs => absurd hs List.not_mem_nil
  | cons c rest ih =>
    obtain ⟨hc, hrest⟩ := List.forall_mem_cons.1 h
    rw [symbols]
    split
    · next hdigit => exact valid_joinDigit hdigit (ih hrest)
    · next hdigit =>
      refine List.forall_mem_cons.2 ⟨?_, ih hrest⟩
      cases hsymbol : Symbol.ofChar c with
      | letter d =>
        obtain ⟨rfl, hpunctuation⟩ := ofChar_eq_letter_iff.1 hsymbol
        exact ps.lower c (mem_letters_of_allows hc (by simpa using hdigit) hpunctuation)
      | digits ds => exact absurd hsymbol (Symbol.ofChar_ne_digits c ds)
      | operation | opening | closing => trivial

end Rendezvous.Arithmetic
