import Rendezvous.Proofs.Json.Scalars

/-!
# Written documents

A document without double-precision numbers is read as the syntax tree of the value it was written
from, whether it is written on lines or compactly (`tree?_pretty`, `tree?_compact`).  The reader's two
passes are followed one after the other: the text of a value is cut into the tokens of the value,
whatever its indentation (`cuts_indented`, `cuts_compact`), and these are put together to its tree
(`builds_tokensOf`).
-/

namespace Rendezvous.Json

/-- A value whose numbers are integers of 64 bits. -/
inductive IsIntegral : Value → Prop
  | null : IsIntegral .null
  | bool (b : Bool) : IsIntegral (.bool b)
  | integer {z : Int} (h : FitsNumber z) : IsIntegral (.number (.integer z))
  | text (s : String) : IsIntegral (.text s)
  | array {items : List Value} (h : ∀ v ∈ items, IsIntegral v) : IsIntegral (.array items)
  | object {fields : List (String × Value)} (h : ∀ f ∈ fields, IsIntegral f.2) :
      IsIntegral (.object fields)

/-! ## Tokens and trees of values -/

mutual

/-- The tokens that a value is written with. -/
def tokensOf : Value → List Token
  | .null => [.null]
  | .bool b => [.bool b]
  | .number n => [.number n.text.toList]
  | .text s => [.string (piecesOf s)]
  | .array items => .openBracket :: (itemTokens items ++ [.closeBracket])
  | .object fields => .openBrace :: (fieldTokens fields ++ [.closeBrace])

/-- The tokens of items, with commas between them. -/
def itemTokens : List Value → List Token
  | [] => []
  | [v] => tokensOf v
  | v :: rest => tokensOf v ++ .comma :: itemTokens rest

/-- The tokens of fields, with commas between them. -/
def fieldTokens : List (String × Value) → List Token
  | [] => []
  | [(key, v)] => .string (piecesOf key) :: .colon :: tokensOf v
  | (key, v) :: rest =>
    .string (piecesOf key) :: .colon :: (tokensOf v ++ .comma :: fieldTokens rest)

end

theorem itemTokens_cons_cons (v w : Value) (items : List Value) :
    itemTokens (v :: w :: items) = tokensOf v ++ .comma :: itemTokens (w :: items) := by
  simp [itemTokens]

theorem fieldTokens_cons_cons (key : String) (v : Value) (f : String × Value)
    (fields : List (String × Value)) :
    fieldTokens ((key, v) :: f :: fields) =
      .string (piecesOf key) :: .colon :: (tokensOf v ++ .comma :: fieldTokens (f :: fields)) := by
  simp [fieldTokens]

mutual

/-- The syntax tree of a written value. -/
def treeOf : Value → Tree
  | .null => .null
  | .bool b => .bool b
  | .number n => .number n.text.toList
  | .text s => .string (piecesOf s)
  | .array items => .array (itemTrees items)
  | .object fields => .object (fieldTrees fields)

def itemTrees : List Value → List Tree
  | [] => []
  | v :: rest => treeOf v :: itemTrees rest

def fieldTrees : List (String × Value) → List (List Piece × Tree)
  | [] => []
  | (key, v) :: rest => (piecesOf key, treeOf v) :: fieldTrees rest

end

/-! ## Cutting a text into tokens -/

/-- A text between tokens is cut into these tokens, in front of what follows. -/
def CutsBefore (rest : Text.Decoded) (text : String) (ts : List Token) : Prop :=
  tokensFrom .between (text.toList.map some ++ rest) = (tokensFrom .between rest).map (ts ++ ·)

/-- A text is cut into these tokens, whatever follows. -/
def Closed (text : String) (ts : List Token) : Prop :=
  ∀ rest, CutsBefore rest text ts

/-- A text is cut into these tokens, if nothing continues it. -/
def Cuts (text : String) (ts : List Token) : Prop :=
  ∀ rest, Stops rest → CutsBefore rest text ts

/-- A text begins with a character that continues no number. -/
def BeginsApart (text : String) : Prop :=
  ∃ c rest, text.toList = c :: rest ∧ isNumeric c = false

section
variable {a b : String} {ts ts' : List Token} {rest : Text.Decoded}

theorem CutsBefore.append (h : CutsBefore (b.toList.map some ++ rest) a ts)
    (h' : CutsBefore rest b ts') : CutsBefore rest (a ++ b) (ts ++ ts') := by
  unfold CutsBefore at h h' ⊢
  rw [String.toList_append, List.map_append, List.append_assoc, h, h', Option.map_map]
  simp [Function.comp_def]

theorem Closed.cuts (h : Closed a ts) : Cuts a ts :=
  fun rest _ => h rest

theorem Closed.append (h : Closed a ts) (h' : Closed b ts') : Closed (a ++ b) (ts ++ ts') :=
  fun rest => (h _).append (h' rest)

theorem Closed.append_cuts (h : Closed a ts) (h' : Cuts b ts') : Cuts (a ++ b) (ts ++ ts') :=
  fun rest hstops => (h _).append (h' rest hstops)

theorem Cuts.append (h : Cuts a ts) (h' : Closed b ts') (hb : BeginsApart b) :
    Closed (a ++ b) (ts ++ ts') := by
  intro rest
  obtain ⟨c, cs, hcs, hc⟩ := hb
  have hstops : Stops (b.toList.map some ++ rest) := by
    rw [hcs]
    exact stops_cons hc _
  exact (h _ hstops).append (h' rest)

end

theorem closed_quoted (s : String) : Closed (quoted s) [.string (piecesOf s)] :=
  fun rest => tokensFrom_quoted s rest

theorem closed_of_toList {text : String} {cs : List Char} {ts : List Token} (htext : text.toList = cs)
    (h : ∀ rest, tokensFrom .between (cs.map some ++ rest) =
      (tokensFrom .between rest).map (ts ++ ·)) : Closed text ts := by
  intro rest
  rw [CutsBefore, htext]
  exact h rest

theorem closed_empty : Closed "" [] :=
  closed_of_toList rfl fun rest => by simp

theorem closed_single {text : String} {c : Char} {t : Token} (htext : text.toList = [c])
    (h : step .between c = some ([t], .between)) : Closed text [t] :=
  closed_of_toList htext fun _ => tokensFrom_emit h

theorem tokensFrom_literal (x : Char) (cs : List Char) (t : Token) (rest : Text.Decoded) :
    tokensFrom (.literal (x :: cs) t) ((x :: cs).map some ++ rest) =
      (tokensFrom .between rest).map (t :: ·) := by
  induction cs generalizing x with
  | nil => exact tokensFrom_emit (if_pos rfl)
  | cons y cs ih =>
    have hx : step (.literal (x :: y :: cs) t) x = some ([], .literal (y :: cs) t) := if_pos rfl
    exact (tokensFrom_silent hx).trans (ih y)

theorem closed_literal {text : String} {c x : Char} {cs : List Char} {t : Token}
    (htext : text.toList = c :: x :: cs)
    (h : step .between c = some ([], .literal (x :: cs) t)) : Closed text [t] :=
  closed_of_toList htext fun rest => (tokensFrom_silent h).trans (tokensFrom_literal x cs t rest)

theorem closed_null : Closed "null" [.null] :=
  closed_literal rfl rfl

theorem closed_bool (b : Bool) : Closed (if b then "true" else "false") [.bool b] := by
  cases b with
  | true => exact closed_literal rfl rfl
  | false => exact closed_literal rfl rfl

theorem closed_openBracket : Closed "[" [.openBracket] :=
  closed_single rfl rfl

theorem closed_closeBracket : Closed "]" [.closeBracket] :=
  closed_single rfl rfl

theorem closed_openBrace : Closed "\x7b" [.openBrace] :=
  closed_single rfl rfl

theorem closed_closeBrace : Closed "\x7d" [.closeBrace] :=
  closed_single rfl rfl

/-- A comma after an item or a field. -/
theorem Cuts.append_comma {text : String} {ts : List Token} (h : Cuts text ts) :
    Closed (text ++ ",") (ts ++ [.comma]) := by
  have hcomma : Closed "," [.comma] := closed_single rfl rfl
  exact h.append hcomma ⟨',', [], rfl, by decide⟩

/-! ### Lines and fields -/

theorem toList_newline (level : Nat) :
    (newline level).toList = '\n' :: List.replicate (2 * level) ' ' := by
  simp [newline]

theorem beginsApart_newline (level : Nat) : BeginsApart (newline level) :=
  ⟨'\n', _, toList_newline level, by decide⟩

theorem tokensFrom_spaces (n : Nat) (rest : Text.Decoded) :
    tokensFrom .between ((List.replicate n ' ').map some ++ rest) = tokensFrom .between rest := by
  induction n with
  | zero => rfl
  | succ n ih => exact (tokensFrom_silent rfl).trans ih

theorem closed_newline (level : Nat) : Closed (newline level) [] := by
  refine closed_of_toList (toList_newline level) fun rest => ?_
  have hid : (tokensFrom .between rest).map ([] ++ ·) = tokensFrom .between rest := by simp
  rw [hid, ← tokensFrom_spaces (2 * level) rest]
  exact tokensFrom_silent rfl

theorem closed_key (key : String) :
    Closed (quoted key ++ ": ") [.string (piecesOf key), .colon] := by
  have hcolon : Closed ": " [.colon] := by
    have hchars : ": ".toList = [':', ' '] := rfl
    refine closed_of_toList hchars fun rest => ?_
    rw [← tokensFrom_spaces 1 rest]
    exact tokensFrom_emit rfl
  exact (closed_quoted key).append hcolon

/-- A comma and the start of a line, after an item or a field. -/
theorem Cuts.append_comma_newline {text : String} {ts : List Token} (h : Cuts text ts) (level : Nat) :
    Closed (text ++ "," ++ newline level) (ts ++ [.comma]) := by
  simpa using h.append_comma.append (closed_newline level)

/-- The lines of items or fields, between brackets or braces on lines of their own. -/
theorem Cuts.enclosed {opening body closing : String} {t t' : Token} {ts : List Token}
    (hopening : Closed opening [t]) (hbody : Cuts body ts) (hclosing : Closed closing [t'])
    (level : Nat) :
    Closed (opening ++ newline (level + 1) ++ body ++ newline level ++ closing)
      (t :: (ts ++ [t'])) := by
  have hstart := hopening.append (closed_newline (level + 1))
  have hlines := (hstart.append_cuts hbody).append (closed_newline level) (beginsApart_newline level)
  simpa using hlines.append hclosing

theorem cuts_indentedItems {items : List Value}
    (h : ∀ v ∈ items, ∀ level, Cuts (indented level v) (tokensOf v)) (level : Nat) :
    Cuts (indentedItems level items) (itemTokens items) := by
  induction items with
  | nil => exact closed_empty.cuts
  | cons v items ih =>
    obtain ⟨hv, hitems⟩ := List.forall_mem_cons.1 h
    cases items with
    | nil => exact hv level
    | cons w items =>
      simpa [indentedItems, itemTokens] using
        ((hv level).append_comma_newline level).append_cuts (ih hitems)

theorem cuts_indentedFields {fields : List (String × Value)}
    (h : ∀ f ∈ fields, ∀ level, Cuts (indented level f.2) (tokensOf f.2)) (level : Nat) :
    Cuts (indentedFields level fields) (fieldTokens fields) := by
  induction fields with
  | nil => exact closed_empty.cuts
  | cons f fields ih =>
    obtain ⟨key, v⟩ := f
    obtain ⟨hv, hfields⟩ := List.forall_mem_cons.1 h
    have hfield := (closed_key key).append_cuts (hv level)
    cases fields with
    | nil => exact hfield
    | cons g fields =>
      simpa [indentedFields, fieldTokens] using
        (hfield.append_comma_newline level).append_cuts (ih hfields)

/-- A value is cut into its tokens, at any level of indentation. -/
theorem cuts_indented {v : Value} (h : IsIntegral v) (level : Nat) :
    Cuts (indented level v) (tokensOf v) := by
  induction h generalizing level with
  | null => exact closed_null.cuts
  | bool b => exact (closed_bool b).cuts
  | integer h => exact fun rest hstops => tokensFrom_integer _ hstops
  | text s => exact (closed_quoted s).cuts
  | @array items _ ih =>
    cases items with
    | nil => exact (closed_openBracket.append closed_closeBracket).cuts
    | cons v items =>
      exact (Cuts.enclosed closed_openBracket (cuts_indentedItems ih (level + 1))
        closed_closeBracket level).cuts
  | @object fields _ ih =>
    cases fields with
    | nil => exact (closed_openBrace.append closed_closeBrace).cuts
    | cons f fields =>
      exact (Cuts.enclosed closed_openBrace (cuts_indentedFields ih (level + 1))
        closed_closeBrace level).cuts

/-! ## Putting tokens together -/

section
variable {stack stack' : List Frame} {due due' : Due} {t : Token} {rest : List Token}

theorem treeFrom_token (h : stepToken stack due t = some (stack', due')) :
    treeFrom stack due (t :: rest) = treeFrom stack' due' rest := by
  simp [treeFrom, h]

/-- A value may come first in an array as it may come anywhere else. -/
theorem treeFrom_value (hdue : due = .value ∨ due = .firstItem)
    (h : stepValue stack t = some (stack', due')) :
    treeFrom stack due (t :: rest) = treeFrom stack' due' rest := by
  rcases hdue with rfl | rfl
  · exact treeFrom_token h
  · refine treeFrom_token ?_
    cases t with
    | closeBracket => cases h
    | _ => exact h

end

/-- Tokens are read as a tree, wherever a value may come. -/
def Builds (ts : List Token) (tree : Tree) : Prop :=
  ∀ (stack : List Frame) (due : Due) (rest : List Token), due = .value ∨ due = .firstItem →
    treeFrom stack due (ts ++ rest) = treeFrom stack (.after tree) rest

theorem treeFrom_itemTokens {v : Value} {items : List Value}
    (h : ∀ w ∈ v :: items, Builds (tokensOf w) (treeOf w)) {done : List Tree} {stack : List Frame}
    {due : Due} (hdue : due = .value ∨ due = .firstItem) (rest : List Token) :
    treeFrom (.array done :: stack) due (itemTokens (v :: items) ++ .closeBracket :: rest) =
      treeFrom stack (.after (.array (done.reverse ++ itemTrees (v :: items)))) rest := by
  induction items generalizing v done due with
  | nil =>
    rw [itemTokens, h v (.head _) _ _ _ hdue, treeFrom_token rfl, List.reverse_cons]
    rfl
  | cons w items ih =>
    obtain ⟨hv, hitems⟩ := List.forall_mem_cons.1 h
    rw [itemTokens_cons_cons, List.append_assoc, hv _ _ _ hdue, List.cons_append, treeFrom_token rfl,
      ih hitems (.inl rfl), List.reverse_cons, List.append_assoc]
    rfl

/-- The fields of an object, where the next token may be a key. -/
theorem treeFrom_fieldTokens {f : String × Value} {fields : List (String × Value)}
    (h : ∀ g ∈ f :: fields, Builds (tokensOf g.2) (treeOf g.2)) {done : List (List Piece × Tree)}
    {stack : List Frame} {due : Due}
    (hdue : ∀ key, stepToken stack due (.string key) = some (stack, .colon done key))
    (rest : List Token) :
    treeFrom stack due (fieldTokens (f :: fields) ++ .closeBrace :: rest) =
      treeFrom stack (.after (.object (done.reverse ++ fieldTrees (f :: fields)))) rest := by
  induction fields generalizing f done due with
  | nil =>
    obtain ⟨key, v⟩ := f
    have hv : Builds (tokensOf v) (treeOf v) := h (key, v) (.head _)
    rw [fieldTokens, List.cons_append, treeFrom_token (hdue _), List.cons_append, treeFrom_token rfl,
      hv _ _ _ (.inl rfl), treeFrom_token rfl, List.reverse_cons]
    rfl
  | cons g fields ih =>
    obtain ⟨key, v⟩ := f
    obtain ⟨hv, hfields⟩ := List.forall_mem_cons.1 h
    rw [fieldTokens_cons_cons, List.cons_append, treeFrom_token (hdue _), List.cons_append,
      treeFrom_token rfl, List.append_assoc, hv _ _ _ (.inl rfl), List.cons_append,
      treeFrom_token rfl, ih hfields fun _ => rfl, List.reverse_cons, List.append_assoc]
    rfl

/-- The tokens of a value are read as its tree. -/
theorem builds_tokensOf {v : Value} (h : IsIntegral v) : Builds (tokensOf v) (treeOf v) := by
  induction h with
  | null => exact fun _ _ _ hdue => treeFrom_value hdue rfl
  | bool b => exact fun _ _ _ hdue => treeFrom_value hdue rfl
  | @integer z h =>
    intro stack due rest hdue
    exact treeFrom_value hdue (if_pos (isSome_numeral z))
  | text s => exact fun _ _ _ hdue => treeFrom_value hdue rfl
  | @array items _ ih =>
    intro stack due rest hdue
    rw [tokensOf, List.cons_append, List.append_assoc, treeFrom_value hdue rfl]
    cases items with
    | nil => exact treeFrom_token rfl
    | cons v items => exact treeFrom_itemTokens ih (.inr rfl) rest
  | @object fields _ ih =>
    intro stack due rest hdue
    rw [tokensOf, List.cons_append, List.append_assoc, treeFrom_value hdue rfl]
    cases fields with
    | nil => exact treeFrom_token rfl
    | cons f fields =>
      have hfirst : ∀ key, stepToken stack .firstKey (.string key) = some (stack, .colon [] key) :=
        fun _ => rfl
      exact treeFrom_fieldTokens ih hfirst rest

/-- A text that is cut into the tokens of a value is read as the tree of the value. -/
theorem tree?_of_cuts {text : String} {v : Value} (h : IsIntegral v) (hcuts : Cuts text (tokensOf v)) :
    tree? (Text.decoded text) = some (treeOf v) := by
  have htokens : tokens? (Text.decoded text) = some (tokensOf v) := by
    have hall := hcuts [] stops_nil
    rw [CutsBefore, List.append_nil] at hall
    rw [tokens?, Text.decoded, hall]
    simp [tokensFrom, lastTokens?]
  have hbuilds := builds_tokensOf h [] .value [] (.inl rfl)
  rw [List.append_nil] at hbuilds
  rw [tree?, htokens, Option.bind_some, hbuilds]
  rfl

/-- A document with one item or field on each line is read as the tree of its value. -/
theorem tree?_pretty {v : Value} (h : IsIntegral v) :
    tree? (Text.decoded (pretty v)) = some (treeOf v) :=
  tree?_of_cuts h (cuts_indented h 0)

/-! ## Compact documents -/

theorem cuts_compactItems {items : List Value} (h : ∀ v ∈ items, Cuts (compact v) (tokensOf v)) :
    Cuts (compactItems items) (itemTokens items) := by
  induction items with
  | nil => exact closed_empty.cuts
  | cons v items ih =>
    obtain ⟨hv, hitems⟩ := List.forall_mem_cons.1 h
    cases items with
    | nil => exact hv
    | cons w items => simpa [compactItems, itemTokens] using hv.append_comma.append_cuts (ih hitems)

theorem cuts_compactFields {fields : List (String × Value)}
    (h : ∀ f ∈ fields, Cuts (compact f.2) (tokensOf f.2)) :
    Cuts (compactFields fields) (fieldTokens fields) := by
  have hcolon : Closed ":" [.colon] := closed_single rfl rfl
  induction fields with
  | nil => exact closed_empty.cuts
  | cons f fields ih =>
    obtain ⟨key, v⟩ := f
    obtain ⟨hv, hfields⟩ := List.forall_mem_cons.1 h
    have hfield := ((closed_quoted key).append hcolon).append_cuts hv
    cases fields with
    | nil => exact hfield
    | cons g fields =>
      simpa [compactFields, fieldTokens] using hfield.append_comma.append_cuts (ih hfields)

/-- A value without any whitespace is cut into its tokens. -/
theorem cuts_compact {v : Value} (h : IsIntegral v) : Cuts (compact v) (tokensOf v) := by
  induction h with
  | null => exact closed_null.cuts
  | bool b => exact (closed_bool b).cuts
  | integer h => exact fun rest hstops => tokensFrom_integer _ hstops
  | text s => exact (closed_quoted s).cuts
  | @array items _ ih =>
    have hitems := closed_openBracket.append_cuts (cuts_compactItems ih)
    exact (hitems.append closed_closeBracket ⟨']', [], rfl, by decide⟩).cuts
  | @object fields _ ih =>
    have hfields := closed_openBrace.append_cuts (cuts_compactFields ih)
    exact (hfields.append closed_closeBrace ⟨'\x7d', [], rfl, by decide⟩).cuts

/-- A compact document is read as the tree of its value. -/
theorem tree?_compact {v : Value} (h : IsIntegral v) :
    tree? (Text.decoded (compact v)) = some (treeOf v) :=
  tree?_of_cuts h (cuts_compact h)

end Rendezvous.Json
