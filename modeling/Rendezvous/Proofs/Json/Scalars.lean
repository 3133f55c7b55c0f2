import Mathlib.Data.List.TakeWhile
import Rendezvous.Json.Printer
import Rendezvous.Proofs.Config.Literals

/-!
# Written strings and numbers

The strings and the integers that the printer writes are read back as they were.  A string is one token
(`tokensFrom_quoted`), whose pieces give its characters again (`textOf?_piecesOf`).  An integer is one
token, too, if what follows cannot continue it (`tokensFrom_integer`), and its value is its own
(`read?_integerChars`).
-/

namespace Rendezvous.Json

/-! ## Single steps -/

section
variable {m m' : Mode} {c : Char} {rest : Text.Decoded}

/-- A character that ends no token only changes the mode. -/
theorem tokensFrom_silent (h : step m c = some ([], m')) :
    tokensFrom m (some c :: rest) = tokensFrom m' rest := by
  simp [tokensFrom, h]

/-- A character that ends a token adds it. -/
theorem tokensFrom_emit {t : Token} (h : step m c = some ([t], m')) :
    tokensFrom m (some c :: rest) = (tokensFrom m' rest).map (t :: ·) := by
  simp [tokensFrom, h]

end

/-! ## Strings -/

/-- The piece that a character is read as after it has been written. -/
def pieceOf (c : Char) : Piece :=
  if c.toNat < 0x20 ∧ c ∉ ['\x08', '\x0c', '\n', '\r', '\t'] then .unit c.toNat else .char c

/-- The pieces of a string that has been written. -/
def piecesOf (s : String) : List Piece :=
  s.toList.map pieceOf

theorem hexValue?_hexDigit {n : Nat} (h : n < 16) : hexValue? (hexDigit n) = some n := by
  have hall : ∀ n < 16, hexValue? (hexDigit n) = some n := by decide
  exact hall n h

/-- A short escape is read as its character. -/
theorem tokensFrom_shortEscape {e c : Char} (hne : e ≠ 'u') (h : shortEscape? e = some c)
    (pieces : List Piece) (rest : Text.Decoded) :
    tokensFrom (.string pieces) (['\\', e].map some ++ rest) =
      tokensFrom (.string (.char c :: pieces)) rest := by
  have hescape : step (.escape pieces) e = some ([], .string (.char c :: pieces)) := by
    simp [step, stepEscape, hne, h]
  exact (tokensFrom_silent rfl).trans (tokensFrom_silent hescape)

/-- Four hexadecimal digits are read as a code unit. -/
theorem tokensFrom_unit {n : Nat} (h : n < 256) (pieces : List Piece) (rest : Text.Decoded) :
    tokensFrom (.string pieces)
        (['\\', 'u', '0', '0', hexDigit (n / 16), hexDigit (n % 16)].map some ++ rest) =
      tokensFrom (.string (.unit n :: pieces)) rest := by
  have hhigh : step (.unit pieces 0 2) (hexDigit (n / 16)) =
      some ([], .unit pieces (n / 16) 1) := by
    simp [step, stepUnit, hexValue?_hexDigit (show n / 16 < 16 by omega)]
  have hlow : step (.unit pieces (n / 16) 1) (hexDigit (n % 16)) =
      some ([], .string (.unit n :: pieces)) := by
    simp [step, stepUnit, hexValue?_hexDigit (show n % 16 < 16 by omega), Nat.div_add_mod]
  calc tokensFrom (.string pieces)
        (['\\', 'u', '0', '0', hexDigit (n / 16), hexDigit (n % 16)].map some ++ rest)
      = tokensFrom (.unit pieces 0 2) (some (hexDigit (n / 16)) :: some (hexDigit (n % 16)) :: rest) :=
        (tokensFrom_silent rfl).trans ((tokensFrom_silent rfl).trans
          ((tokensFrom_silent rfl).trans (tokensFrom_silent rfl)))
    _ = tokensFrom (.string (.unit n :: pieces)) rest :=
        (tokensFrom_silent hhigh).trans (tokensFrom_silent hlow)

/-- Some characters are written as short escapes of themselves. -/
theorem escapeChar_of_mem {c : Char} (h : c ∈ ['"', '\\', '\x08', '\x0c', '\n', '\r', '\t']) :
    ∃ e, e ≠ 'u' ∧ escapeChar c = ['\\', e] ∧ shortEscape? e = some c ∧ pieceOf c = .char c := by
  simp only [List.mem_cons, List.not_mem_nil, or_false] at h
  rcases h with rfl | rfl | rfl | rfl | rfl | rfl | rfl
  · exact ⟨'"', by decide, rfl, rfl, rfl⟩
  · exact ⟨'\\', by decide, rfl, rfl, rfl⟩
  · exact ⟨'b', by decide, rfl, rfl, rfl⟩
  · exact ⟨'f', by decide, rfl, rfl, rfl⟩
  · exact ⟨'n', by decide, rfl, rfl, rfl⟩
  · exact ⟨'r', by decide, rfl, rfl, rfl⟩
  · exact ⟨'t', by decide, rfl, rfl, rfl⟩

/-- However a character is written, it is read as one piece. -/
theorem tokensFrom_escapeChar (pieces : List Piece) (c : Char) (rest : Text.Decoded) :
    tokensFrom (.string pieces) ((escapeChar c).map some ++ rest) =
      tokensFrom (.string (pieceOf c :: pieces)) rest := by
  by_cases hshort : c ∈ ['"', '\\', '\x08', '\x0c', '\n', '\r', '\t']
  · obtain ⟨e, hne, hescape, hvalue, hpiece⟩ := escapeChar_of_mem hshort
    rw [hescape, hpiece]
    exact tokensFrom_shortEscape hne hvalue pieces rest
  simp only [List.mem_cons, List.not_mem_nil, or_false, not_or] at hshort
  obtain ⟨hquote, hbackslash, hb, hf, hn, hr, ht⟩ := hshort
  have hescape : escapeChar c = if c.toNat < 0x20 then
      ['\\', 'u', '0', '0', hexDigit (c.toNat / 16), hexDigit (c.toNat % 16)] else [c] := by
    simp only [escapeChar, hquote, hbackslash, hb, hf, hn, hr, ht, if_false]
  rw [hescape]
  by_cases hcontrol : c.toNat < 0x20
  · have hpiece : pieceOf c = .unit c.toNat := if_pos ⟨hcontrol, by simp [hb, hf, hn, hr, ht]⟩
    rw [if_pos hcontrol, hpiece]
    exact tokensFrom_unit (by omega) pieces rest
  · have hpiece : pieceOf c = .char c := if_neg fun h => hcontrol h.1
    rw [if_neg hcontrol, hpiece]
    exact tokensFrom_silent (by simp [step, stepString, hquote, hbackslash, hcontrol])

/-- A written string is one token. -/
theorem tokensFrom_quoted (s : String) (rest : Text.Decoded) :
    tokensFrom .between ((quoted s).toList.map some ++ rest) =
      (tokensFrom .between rest).map (.string (piecesOf s) :: ·) := by
  have hchars : ∀ (cs : List Char) (pieces : List Piece),
      tokensFrom (.string pieces) ((cs.flatMap escapeChar ++ ['"']).map some ++ rest) =
        (tokensFrom .between rest).map (.string (pieces.reverse ++ cs.map pieceOf) :: ·) := by
    intro cs
    induction cs with
    | nil =>
      intro pieces
      rw [List.map_nil, List.append_nil]
      exact tokensFrom_emit rfl
    | cons c cs ih =>
      intro pieces
      rw [List.flatMap_cons, List.append_assoc, List.map_append, List.append_assoc,
        tokensFrom_escapeChar, ih, List.reverse_cons, List.append_assoc, List.map_cons,
        List.singleton_append]
  rw [quoted, String.toList_ofList, List.map_cons, List.cons_append, tokensFrom_silent rfl, hchars]
  rfl

theorem charsOf?_unit {n : Nat} (h : n < 0xD800) (pieces : List Piece) :
    charsOf? (.unit n :: pieces) = (charsOf? pieces).map (Char.ofNat n :: ·) := by
  have hhigh : isHighSurrogate n = false := by simp [isHighSurrogate]; omega
  have hlow : isLowSurrogate n = false := by simp [isLowSurrogate]; omega
  cases pieces with
  | nil => simp [charsOf?, hhigh, hlow]
  | cons p pieces =>
    cases p with
    | unit m => simp [charsOf?, hhigh, hlow]
    | char c => simp [charsOf?, hhigh, hlow]
    | gap => simp [charsOf?, hhigh, hlow]

theorem charsOf?_map_pieceOf (cs : List Char) : charsOf? (cs.map pieceOf) = some cs := by
  induction cs with
  | nil => rfl
  | cons c cs ih =>
    rw [List.map_cons, pieceOf]
    split
    · next h =>
      rw [charsOf?_unit (by omega), ih, Option.map_some, Char.ofNat_toNat]
    · rw [charsOf?, ih, Option.map_some]

/-- The pieces of a written string are its text. -/
theorem textOf?_piecesOf (s : String) : textOf? (piecesOf s) = some s := by
  rw [textOf?, piecesOf, charsOf?_map_pieceOf, Option.map_some, String.ofList_toList]

/-! ## Integers -/

/-- The characters that an integer is written with. -/
def integerChars (z : Int) : List Char :=
  (Number.integer z).text.toList

/-- An integer of 64 bits, signed or unsigned. -/
def FitsNumber (z : Int) : Prop :=
  -9223372036854775808 ≤ z ∧ z < 18446744073709551616

theorem integerChars_natCast (n : Nat) : integerChars n = Nat.toDigits 10 n := by
  have htext : (Number.integer n).text = toString n := rfl
  rw [integerChars, htext, Nat.toString_eq_repr, Nat.toList_repr]

theorem integerChars_negSucc (n : Nat) :
    integerChars (.negSucc n) = '-' :: Nat.toDigits 10 (n + 1) := by
  have htext : (Number.integer (.negSucc n)).text = "-" ++ toString (n + 1) := rfl
  rw [integerChars, htext, String.toList_append, Nat.toString_eq_repr, Nat.toList_repr]
  rfl

theorem isDigit_of_mem_toDigits {n : Nat} {c : Char} (h : c ∈ Nat.toDigits 10 n) :
    c.isDigit = true :=
  Nat.isDigit_of_mem_toDigits (by decide) (by decide) h

/-- A natural number is written without a leading zero. -/
theorem whole?_toDigits (n : Nat) : whole? (Nat.toDigits 10 n) = some (Nat.toDigits 10 n, []) := by
  have htake : (Nat.toDigits 10 n).takeWhile Char.isDigit = Nat.toDigits 10 n :=
    List.takeWhile_eq_self_iff.2 fun c hc => isDigit_of_mem_toDigits hc
  have hdrop : (Nat.toDigits 10 n).dropWhile Char.isDigit = [] :=
    List.dropWhile_eq_nil_iff.2 fun c hc => isDigit_of_mem_toDigits hc
  have hne : (Nat.toDigits 10 n).isEmpty = false := by
    simp
  have hzero : ¬ ((Nat.toDigits 10 n).head? = some '0' ∧ Nat.toDigits 10 n ≠ ['0']) := by
    rintro ⟨hhead, hne⟩
    rcases Nat.eq_zero_or_pos n with rfl | hpos
    · exact hne (Nat.toDigits_zero 10)
    · exact Arithmetic.head?_toDigits_ne hpos hhead
  simp only [whole?, digits?, htake, hdrop, hne, Bool.false_eq_true, if_false, Option.bind_some,
    if_neg hzero]

theorem numeral_natCast (n : Nat) :
    Numeral.read? (integerChars n) = some ⟨false, Nat.toDigits 10 n, none, none⟩ := by
  have hsign : numberSign (Nat.toDigits 10 n) = (false, Nat.toDigits 10 n) := by
    unfold numberSign
    split
    · next rest heq =>
      have hdigit := isDigit_of_mem_toDigits (n := n) (c := '-') (by rw [heq]; exact .head _)
      exact absurd hdigit (by decide)
    · rfl
  rw [integerChars_natCast, Numeral.read?, hsign]
  simp [whole?_toDigits, fraction?, exponent?]

theorem numeral_negSucc (n : Nat) :
    Numeral.read? (integerChars (.negSucc n)) = some ⟨true, Nat.toDigits 10 (n + 1), none, none⟩ := by
  rw [integerChars_negSucc, Numeral.read?, numberSign]
  simp [whole?_toDigits, fraction?, exponent?]

theorem isSome_numeral (z : Int) : (Numeral.read? (integerChars z)).isSome = true := by
  cases z with
  | ofNat n =>
    rw [Int.ofNat_eq_natCast, numeral_natCast]
    rfl
  | negSucc n =>
    rw [numeral_negSucc]
    rfl

/-- A written integer of 64 bits is read as itself. -/
theorem read?_integerChars {z : Int} (h : FitsNumber z) :
    Number.read? (integerChars z) = some (.integer z) := by
  obtain ⟨hmin, hmax⟩ := h
  cases z with
  | ofNat n =>
    rw [Int.ofNat_eq_natCast] at hmax ⊢
    have hfits : n < UInt64.size := by
      have hsize : UInt64.size = 18446744073709551616 := rfl
      omega
    simp [Number.read?, numeral_natCast, Numeral.integer?, Nat.ofDigitChars_ten_toDigits, hfits]
  | negSucc n =>
    have hleast : Int64.minValue.toInt = -9223372036854775808 := rfl
    have hfits : Int64.minValue.toInt ≤ -((n + 1 : Nat) : Int) := by
      rw [hleast]
      omega
    have hinteger : Numeral.integer? ⟨true, Nat.toDigits 10 (n + 1), none, none⟩ =
        some (.negSucc n) := by
      simp only [Numeral.integer?, Option.isSome_none, Bool.or_self, Bool.false_eq_true, if_false,
        if_true, Nat.ofDigitChars_ten_toDigits]
      exact if_pos ⟨Nat.succ_pos n, hfits⟩
    rw [Number.read?, numeral_negSucc, Option.bind_some, hinteger]

/-! ## Integers as tokens -/

/-- Nothing that follows can continue a number. -/
def Stops (rest : Text.Decoded) : Prop :=
  ∀ c, rest.head? = some (some c) → isNumeric c = false

theorem stops_nil : Stops [] :=
  fun _ h => nomatch h

theorem stops_cons {c : Char} (h : isNumeric c = false) (rest : Text.Decoded) :
    Stops (some c :: rest) := by
  intro d hd
  cases hd
  exact h

theorem tokensFrom_number_stop {rest : Text.Decoded} (h : Stops rest) (chars : List Char) :
    tokensFrom (.number chars) rest =
      (tokensFrom .between rest).map (.number chars.reverse :: ·) := by
  cases rest with
  | nil => rfl
  | cons x rest =>
    cases x with
    | none => rfl
    | some c =>
      have hc : isNumeric c = false := h c rfl
      simp only [tokensFrom, step, hc, Bool.false_eq_true, if_false]
      cases stepBetween c with
      | none => rfl
      | some r => simp [Function.comp_def]

theorem isNumeric_of_isDigit {c : Char} (h : c.isDigit = true) : isNumeric c = true := by
  simp [isNumeric, h]

theorem tokensFrom_digits {cs : List Char} (hcs : ∀ c ∈ cs, c.isDigit = true) (chars : List Char)
    (rest : Text.Decoded) :
    tokensFrom (.number chars) (cs.map some ++ rest) =
      tokensFrom (.number (cs.reverse ++ chars)) rest := by
  induction cs generalizing chars with
  | nil => rfl
  | cons c cs ih =>
    obtain ⟨hc, hcs⟩ := List.forall_mem_cons.1 hcs
    have hstep : step (.number chars) c = some ([], .number (c :: chars)) := by
      simp [step, isNumeric_of_isDigit hc]
    rw [List.map_cons, List.cons_append, tokensFrom_silent hstep, ih hcs, List.reverse_cons,
      List.append_assoc]
    rfl

/-- A written integer is one token. -/
theorem tokensFrom_integer (z : Int) {rest : Text.Decoded} (h : Stops rest) :
    tokensFrom .between ((integerChars z).map some ++ rest) =
      (tokensFrom .between rest).map (.number (integerChars z) :: ·) := by
  cases z with
  | ofNat n =>
    rw [Int.ofNat_eq_natCast, integerChars_natCast]
    obtain ⟨d, ds, hds⟩ := List.exists_cons_of_ne_nil (Nat.toDigits_ne_nil (n := n) (b := 10))
    have hdigits : ∀ c ∈ d :: ds, c.isDigit = true :=
      fun c hc => isDigit_of_mem_toDigits (n := n) (hds ▸ hc)
    obtain ⟨hd, hrest⟩ := List.forall_mem_cons.1 hdigits
    have hfirst : step .between d = some ([], .number [d]) := by
      have hbegins : beginsNumber d = true := by simp [beginsNumber, hd]
      have hspace : isSpace d = false := by
        rw [Bool.eq_false_iff]
        intro hspace
        simp only [isSpace, Bool.or_eq_true, beq_iff_eq] at hspace
        rcases hspace with ((rfl | rfl) | rfl) | rfl <;> cases hd
      have hquote : (d == '"') = false := by
        rw [beq_eq_false_iff_ne]
        rintro rfl
        cases hd
      simp [step, stepBetween, hbegins, hspace, hquote]
    rw [hds, List.map_cons, List.cons_append, tokensFrom_silent hfirst, tokensFrom_digits hrest,
      tokensFrom_number_stop h]
    simp
  | negSucc n =>
    rw [integerChars_negSucc, List.map_cons, List.cons_append, tokensFrom_silent rfl,
      tokensFrom_digits (fun c hc => isDigit_of_mem_toDigits hc), tokensFrom_number_stop h]
    simp

end Rendezvous.Json
