/-!
# Reading XML documents

A document of elements with attributes is read in two passes.  The first cuts it into tags: between
tags there is nothing but whitespace and declarations, and an attribute value is what stands between
its quotes, with the five named character references replaced by what they stand for.  The second pass
follows the tags with a stack of the elements that are still open.  A single tag `<a/>` is an element
without content, as is `<a></a>`.
-/

namespace Rendezvous.Xml

/-! ## Tags -/

/-- A tag of a document, with the values of its attributes. -/
inductive Tag where
  | opening (name : String) (attributes : List (String × String))
  | closing (name : String)
  /-- The only tag of an element without content. -/
  | single (name : String) (attributes : List (String × String))
  deriving DecidableEq, Repr

/-- What the first pass is in the middle of.  Characters are held last one first. -/
inductive Mode where
  | between
  /-- After `<`. -/
  | angle
  /-- In a declaration; whether the last character was a question mark. -/
  | declaration (marked : Bool)
  | closing (chars : List Char)
  | opening (chars : List Char)
  /-- In a tag with a name and some attributes. -/
  | inside (name : String) (attributes : List (String × String))
  | key (name : String) (attributes : List (String × String)) (chars : List Char)
  /-- After `=`. -/
  | equals (name : String) (attributes : List (String × String)) (key : String)
  | value (name : String) (attributes : List (String × String)) (key : String) (chars : List Char)
  /-- After `&` in a value. -/
  | reference (name : String) (attributes : List (String × String)) (key : String)
    (chars : List Char) (entity : List Char)
  /-- After the slash of a single tag. -/
  | slash (name : String) (attributes : List (String × String))
  deriving DecidableEq, Repr

def isSpace (c : Char) : Bool :=
  c == ' ' || c == '\t' || c == '\n' || c == '\r'

/-- Whether the names of elements and attributes are written with a character. -/
def isNameChar (c : Char) : Bool :=
  c.isAlphanum || c == '-' || c == '_' || c == '.' || c == ':'

/-- The character that a named reference stands for. -/
def entity? (name : List Char) : Option Char :=
  if name = ['l', 't'] then some '<'
  else if name = ['g', 't'] then some '>'
  else if name = ['a', 'm', 'p'] then some '&'
  else if name = ['a', 'p', 'o', 's'] then some '\''
  else if name = ['q', 'u', 'o', 't'] then some '"'
  else none

/-- A text from its characters, last one first. -/
def textOf (chars : List Char) : String :=
  String.ofList chars.reverse

/-- What a character after `<` does. -/
def stepAngle (c : Char) : Option (Option Tag × Mode) :=
  if isNameChar c then some (none, .opening [c])
  else if c = '/' then some (none, .closing [])
  else if c = '?' then some (none, .declaration false)
  else none

/-- What a character in a tag does, outside of names and values. -/
def stepInside (name : String) (attributes : List (String × String)) (c : Char) :
    Option (Option Tag × Mode) :=
  if isNameChar c then some (none, .key name attributes [c])
  else if isSpace c then some (none, .inside name attributes)
  else if c = '/' then some (none, .slash name attributes)
  else if c = '>' then some (some (.opening name attributes), .between)
  else none

/-- What a character of an attribute value does. -/
def stepValue (name : String) (attributes : List (String × String)) (key : String)
    (chars : List Char) (c : Char) : Option (Option Tag × Mode) :=
  if c = '"' then some (none, .inside name (attributes ++ [(key, textOf chars)]))
  else if c = '&' then some (none, .reference name attributes key chars [])
  else if c = '<' then none
  else some (none, .value name attributes key (c :: chars))

/-- The tag that a character ends, and the mode after it. -/
def step (mode : Mode) (c : Char) : Option (Option Tag × Mode) :=
  match mode with
  | .between =>
    if isSpace c then some (none, .between) else if c = '<' then some (none, .angle) else none
  | .angle => stepAngle c
  | .declaration marked =>
    if marked = true ∧ c = '>' then some (none, .between) else some (none, .declaration (c == '?'))
  | .closing chars =>
    if isNameChar c then some (none, .closing (c :: chars))
    else if c = '>' then some (some (.closing (textOf chars)), .between)
    else none
  | .opening chars =>
    if isNameChar c then some (none, .opening (c :: chars)) else stepInside (textOf chars) [] c
  | .inside name attributes => stepInside name attributes c
  | .key name attributes chars =>
    if isNameChar c then some (none, .key name attributes (c :: chars))
    else if c = '=' then some (none, .equals name attributes (textOf chars))
    else none
  | .equals name attributes key =>
    if c = '"' then some (none, .value name attributes key []) else none
  | .value name attributes key chars => stepValue name attributes key chars c
  | .reference name attributes key chars entity =>
    if c = ';' then
      (entity? entity.reverse).map fun x => (none, .value name attributes key (x :: chars))
    else some (none, .reference name attributes key chars (c :: entity))
  | .slash name attributes =>
    if c = '>' then some (some (.single name attributes), .between) else none

/-- The tags of some characters, and the mode after them. -/
def run (mode : Mode) : List Char → Option (List Tag × Mode)
  | [] => some ([], mode)
  | c :: rest =>
    (step mode c).bind fun r => (run r.2 rest).map fun r' => (r.1.toList ++ r'.1, r'.2)

/-- The tags of a document. -/
def tags? (text : String) : Option (List Tag) :=
  match run .between text.toList with
  | some (ts, .between) => some ts
  | _ => none

/-! ## Elements -/

/-- An element with its attributes and its content. -/
inductive Element where
  | node (name : String) (attributes : List (String × String)) (content : List Element)
  deriving Repr

namespace Element

def name : Element → String
  | node name _ _ => name

def attributes : Element → List (String × String)
  | node _ attributes _ => attributes

def content : Element → List Element
  | node _ _ content => content

/-- The value of an attribute. -/
def attribute? (e : Element) (key : String) : Option String :=
  e.attributes.lookup key

end Element

/-- An element that is still open, with the elements before it. -/
structure Frame where
  name : String
  attributes : List (String × String)
  before : List Element

/-- Follows the remaining tags, after the elements of the innermost open one. -/
def follow : List Frame → List Element → List Tag → Option (List Frame × List Element)
  | frames, es, [] => some (frames, es)
  | frames, es, .single name attributes :: rest =>
    follow frames (es ++ [.node name attributes []]) rest
  | frames, es, .opening name attributes :: rest => follow (⟨name, attributes, es⟩ :: frames) [] rest
  | f :: frames, es, .closing name :: rest =>
    if name = f.name then follow frames (f.before ++ [.node name f.attributes es]) rest else none
  | [], _, .closing _ :: _ => none

/-- The element that is all of a document. -/
def document? (text : String) : Option Element :=
  match (tags? text).bind (follow [] []) with
  | some ([], [e]) => some e
  | _ => none

/-! ## Runs over characters -/

section
variable {m m' m'' : Mode} {cs cs' : List Char} {ts ts' : List Tag} {c : Char}

/-- A character that ends no tag only changes the mode. -/
theorem run_silent (h : step m c = some (none, m')) : run m (c :: cs) = run m' cs := by
  simp [run, h]

theorem run_append (h : run m cs = some (ts, m')) (h' : run m' cs' = some (ts', m'')) :
    run m (cs ++ cs') = some (ts ++ ts', m'') := by
  induction cs generalizing m ts with
  | nil =>
    cases h
    exact h'
  | cons c cs ih =>
    obtain ⟨⟨t, m₁⟩, hstep, hrest⟩ := Option.bind_eq_some_iff.1 h
    obtain ⟨⟨ts₁, m₂⟩, hrun, heq⟩ := Option.map_eq_some_iff.1 hrest
    cases heq
    rw [List.cons_append, run, hstep, Option.bind_some, ih hrun, Option.map_some,
      List.append_assoc]

theorem run_spaces (n : Nat) : run .between (List.replicate n ' ') = some ([], .between) := by
  induction n with
  | zero => rfl
  | succ n ih =>
    rw [List.replicate_succ, run_silent rfl]
    exact ih

end

/-! ## Names -/

/-- A text that can stand as a name. -/
def IsName (name : String) : Prop :=
  name.toList ≠ [] ∧ ∀ c ∈ name.toList, isNameChar c = true

instance (name : String) : Decidable (IsName name) :=
  decidable_of_decidable_of_iff (p := (!name.toList.isEmpty && name.toList.all isNameChar) = true)
    (by simp [IsName])

section
variable {name : String} {attributes : List (String × String)} {key : String}

theorem textOf_reverse (s : String) : textOf s.toList.reverse = s := by
  rw [textOf, List.reverse_reverse, String.ofList_toList]

/-- The characters of a name are gathered. -/
theorem run_name (mode : List Char → Mode) {cs : List Char}
    (hstep : ∀ chars c, isNameChar c = true → step (mode chars) c = some (none, mode (c :: chars)))
    (hcs : ∀ c ∈ cs, isNameChar c = true) (chars : List Char) :
    run (mode chars) cs = some ([], mode (cs.reverse ++ chars)) := by
  induction cs generalizing chars with
  | nil => rfl
  | cons c cs ih =>
    obtain ⟨hc, hcs⟩ := List.forall_mem_cons.1 hcs
    rw [run_silent (hstep chars c hc), ih hcs, List.reverse_cons, List.append_assoc]
    rfl

theorem run_openingName (h : IsName name) :
    run .between ('<' :: name.toList) = some ([], .opening name.toList.reverse) := by
  obtain ⟨hne, hchars⟩ := h
  obtain ⟨c, cs, hcs⟩ := List.exists_cons_of_ne_nil hne
  rw [hcs] at hchars ⊢
  obtain ⟨hc, hchars⟩ := List.forall_mem_cons.1 hchars
  have hangle : step .angle c = some (none, .opening [c]) := by simp [step, stepAngle, hc]
  rw [run_silent rfl, run_silent hangle,
    run_name .opening (fun chars c hc => by simp [step, hc]) hchars, List.reverse_cons]

theorem run_key (h : IsName key) :
    run (.inside name attributes) (key.toList ++ ['=', '"']) =
      some ([], .value name attributes key []) := by
  obtain ⟨hne, hchars⟩ := h
  obtain ⟨c, cs, hcs⟩ := List.exists_cons_of_ne_nil hne
  have hkey : run (.inside name attributes) key.toList =
      some ([], .key name attributes key.toList.reverse) := by
    rw [hcs] at hchars ⊢
    obtain ⟨hc, hchars⟩ := List.forall_mem_cons.1 hchars
    have hfirst : step (.inside name attributes) c = some (none, .key name attributes [c]) := by
      simp [step, stepInside, hc]
    rw [run_silent hfirst, run_name (.key name attributes)
      (fun chars c hc => by simp [step, hc]) hchars, List.reverse_cons]
  have hequals : run (.key name attributes key.toList.reverse) ['=', '"'] =
      some ([], .value name attributes (textOf key.toList.reverse) []) := rfl
  rw [textOf_reverse] at hequals
  exact run_append hkey hequals

/-! ## References -/

/-- A named reference in a value is read as its character. -/
theorem run_reference (entity : List Char) {x : Char} (h : entity? entity = some x)
    (hend : ';' ∉ entity) (chars rest : List Char) :
    run (.value name attributes key chars) ('&' :: entity ++ ';' :: rest) =
      run (.value name attributes key (x :: chars)) rest := by
  have hgather : ∀ cs gathered : List Char, ';' ∉ cs →
      run (.reference name attributes key chars gathered) (cs ++ ';' :: rest) =
        run (.reference name attributes key chars (cs.reverse ++ gathered)) (';' :: rest) := by
    intro cs
    induction cs with
    | nil => exact fun _ _ => rfl
    | cons c cs ih =>
      intro gathered hcs
      rw [List.mem_cons, not_or] at hcs
      have hstep : step (.reference name attributes key chars gathered) c =
          some (none, .reference name attributes key chars (c :: gathered)) :=
        if_neg (Ne.symm hcs.1)
      rw [List.cons_append, run_silent hstep, ih _ hcs.2, List.reverse_cons, List.append_assoc]
      rfl
  have hlast : step (.reference name attributes key chars entity.reverse) ';' =
      some (none, .value name attributes key (x :: chars)) := by
    simp [step, h]
  rw [List.cons_append, run_silent rfl, hgather entity [] hend, List.append_nil, run_silent hlast]

/-! ## Tags -/

theorem run_opening (h : IsName name) :
    run .between ('<' :: name.toList ++ ['>']) = some ([.opening name []], .between) := by
  have hend : run (.opening name.toList.reverse) ['>'] =
      some ([.opening (textOf name.toList.reverse) []], .between) := rfl
  rw [textOf_reverse] at hend
  exact run_append (run_openingName h) hend

theorem run_closing (h : IsName name) :
    run .between ('<' :: '/' :: name.toList ++ ['>']) = some ([.closing name], .between) := by
  have hname := run_name .closing (fun chars c hc => by simp [step, hc]) h.2 []
  have hend : run (.closing name.toList.reverse) ['>'] =
      some ([.closing (textOf name.toList.reverse)], .between) := rfl
  rw [List.append_nil] at hname
  rw [textOf_reverse] at hend
  rw [List.cons_append, run_silent rfl, List.cons_append, run_silent rfl]
  exact run_append hname hend

end

/-! ## Documents in pieces -/

/-- Tags that add elements to those before them. -/
def Builds (ts : List Tag) (es : List Element) : Prop :=
  ∀ frames before rest, follow frames before (ts ++ rest) = follow frames (before ++ es) rest

/-- A text between tags that adds elements to those before it. -/
def Reads (text : String) (es : List Element) : Prop :=
  ∃ ts, run .between text.toList = some (ts, .between) ∧ Builds ts es

section
variable {text text' : String} {es es' : List Element} {name : String}

theorem reads_empty : Reads "" [] :=
  ⟨[], rfl, fun _ before _ => by rw [List.nil_append, List.append_nil]⟩

theorem Reads.append (h : Reads text es) (h' : Reads text' es') :
    Reads (text ++ text') (es ++ es') := by
  obtain ⟨ts, hrun, hbuilds⟩ := h
  obtain ⟨ts', hrun', hbuilds'⟩ := h'
  refine ⟨ts ++ ts', ?_, fun frames before rest => ?_⟩
  · rw [String.toList_append]
    exact run_append hrun hrun'
  · rw [List.append_assoc, hbuilds, hbuilds', List.append_assoc]

/-- Texts one after the other add the elements of all. -/
theorem reads_join {α : Type} {f : α → String} {g : α → Element} (h : ∀ x, Reads (f x) [g x])
    (xs : List α) : Reads (String.join (xs.map f)) (xs.map g) := by
  induction xs with
  | nil => exact reads_empty
  | cons x xs ih =>
    rw [List.map_cons, List.map_cons, String.join_cons]
    exact (h x).append ih

/-- A text without tags adds nothing. -/
theorem reads_of_run (h : run .between text.toList = some ([], .between)) : Reads text [] :=
  ⟨[], h, fun _ before _ => by rw [List.nil_append, List.append_nil]⟩

theorem reads_single {attributes : List (String × String)}
    (h : run .between text.toList = some ([.single name attributes], .between)) :
    Reads text [.node name attributes []] :=
  ⟨_, h, fun _ _ _ => rfl⟩

/-- An element adds itself, with what its content adds. -/
theorem Reads.element {opening closing : String}
    (hopening : run .between opening.toList = some ([.opening name []], .between))
    (h : Reads text es)
    (hclosing : run .between closing.toList = some ([.closing name], .between)) :
    Reads (opening ++ text ++ closing) [.node name [] es] := by
  obtain ⟨ts, hrun, hbuilds⟩ := h
  refine ⟨[.opening name []] ++ ts ++ [.closing name], ?_, fun frames before rest => ?_⟩
  · rw [String.toList_append, String.toList_append]
    exact run_append (run_append hopening hrun) hclosing
  · rw [List.append_assoc, List.append_assoc, List.singleton_append, follow, hbuilds,
      List.singleton_append, follow, if_pos rfl, List.nil_append]

/-- A text that adds one element is a document of it. -/
theorem Reads.document?_eq {e : Element} (h : Reads text [e]) : document? text = some e := by
  obtain ⟨ts, hrun, hbuilds⟩ := h
  have htags : tags? text = some ts := by rw [tags?, hrun]
  have hfollow := hbuilds [] [] []
  rw [List.append_nil] at hfollow
  rw [document?, htags, Option.bind_some, hfollow]
  rfl

end

end Rendezvous.Xml
