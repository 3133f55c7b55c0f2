import Rendezvous.Proofs.Guard.Reading
import Rendezvous.Proofs.Guard.Words

/-!
# Expressions over declared names

A grammar is made from a list of names and keeps the distinct non-empty ones of them.  What is left
out makes no difference to what it reads: a word is never empty, and a name is declared once or not at
all.  So a grammar accepts exactly the expressions over the names that it was made from
(`Grammar.exists_read_eq_ok_iff`).  The names that texts can refer to are the declared words: a name
with whitespace or operators in it is kept, but no accepted text has it as a guard
(`Grammar.read_name_eq_guard_iff`).
-/

namespace Rendezvous.Guard

/-- A text is an expression over some names, with at most `maxNesting` negations and parentheses open
at once. -/
def IsExpressionOver (names : List String) (text : String) : Prop :=
  ∃ e, Derives names maxNesting .disjunction (significant (tokens text.toList)) e

/-- A phrase is a phrase over any names that have those of its words. -/
theorem Derives.mono_names {names names' : List String} {d : Nat} {p : Phrase} {ts : List Token} {e : Expr}
    (h : Derives names d p ts e)
    (hnames : ∀ t ∈ ts, String.ofList t.text ∈ names → String.ofList t.text ∈ names') :
    Derives names' d p ts e := by
  induction h with
  | @name _ t hword hmem => exact .name hword (hnames t (List.mem_singleton_self t) hmem)
  | group hl _ hr ih =>
    exact .group hl (ih fun t ht => hnames t (.tail _ (List.mem_append_left _ ht))) hr
  | primary _ ih => exact .primary (ih hnames)
  | negation hbang _ ih => exact .negation hbang (ih fun t ht => hnames t (.tail _ ht))
  | unary _ ih => exact .unary (ih hnames)
  | and _ hamp _ iha ihb =>
    exact .and (iha fun t ht => hnames t (List.mem_append_left _ ht)) hamp
      (ihb fun t ht => hnames t (List.mem_append_right _ (.tail _ ht)))
  | conjunction _ ih => exact .conjunction (ih hnames)
  | or _ hpipe _ iha ihb =>
    exact .or (iha fun t ht => hnames t (List.mem_append_left _ ht)) hpipe
      (ihb fun t ht => hnames t (List.mem_append_right _ (.tail _ ht)))

/-- Only the non-empty names count. -/
theorem isExpressionOver_congr {names names' : List String}
    (h : ∀ n, n ≠ "" → (n ∈ names ↔ n ∈ names')) {text : String} :
    IsExpressionOver names text ↔ IsExpressionOver names' text := by
  have hword : ∀ t ∈ significant (tokens text.toList), String.ofList t.text ≠ "" := by
    intro t ht hempty
    obtain ⟨hne, -⟩ := uniform_of_mem_tokens t (List.mem_filter.1 ht).1
    exact hne (String.ofList_eq_empty_iff.1 hempty)
  exact exists_congr fun e =>
    ⟨fun hderives => hderives.mono_names fun t ht => (h _ (hword t ht)).1,
      fun hderives => hderives.mono_names fun t ht => (h _ (hword t ht)).2⟩

namespace Grammar

variable {names : List String} {g : Grammar}

/-- Without names there is no grammar. -/
theorem build_eq_none_iff : build names = none ↔ ∀ n ∈ names, n = "" := by
  have hempty : ((names.filter fun n => n ≠ "").eraseDups.isEmpty = true) ↔ ∀ n ∈ names, n = "" := by
    rw [List.isEmpty_iff, List.eq_nil_iff_forall_not_mem]
    simp only [List.mem_eraseDups, List.mem_filter, decide_eq_true_iff, not_and, not_not]
  rw [← hempty, build]
  simp

/-- A grammar has the non-empty names that it was made from. -/
theorem mem_names_of_build (h : build names = some g) {n : String} :
    n ∈ g.names ↔ n ∈ names ∧ n ≠ "" := by
  unfold build at h
  dsimp only at h
  split at h
  · cases h
  · cases h
    rw [List.mem_eraseDups, List.mem_filter, decide_eq_true_iff]

/-- A text is accepted exactly when it is an expression over the names. -/
theorem exists_read_eq_ok_iff (h : build names = some g) {text : String} :
    (∃ e, g.read text = .ok e) ↔ IsExpressionOver names text := by
  have hnames : ∀ n, n ≠ "" → (n ∈ g.names ↔ n ∈ names) := by
    intro n hn
    rw [mem_names_of_build h, and_iff_left hn]
  rw [← isExpressionOver_congr hnames]
  exact exists_congr fun e => read_eq_ok_iff g text e

/-- The guards of an accepted text are words. -/
theorem isWord_of_read {text : String} {e : Expr} (h : g.read text = .ok e) {n : String}
    (hn : n ∈ e.guards) : IsWord n.toList :=
  isWord_of_derives ((read_eq_ok_iff g text e).1 h) n hn

/-- A declared word is an expression. -/
theorem read_of_isWord {n : String} (hn : n ∈ g.names) (hword : IsWord n.toList) :
    g.read n = .ok (.guard n) := by
  have hname : String.ofList (Token.mk .word n.toList).text ∈ g.names := by
    rwa [String.ofList_toList]
  have hderives : Derives g.names maxNesting .disjunction [⟨.word, n.toList⟩] _ :=
    .conjunction (.unary (.primary (.name rfl hname)))
  rw [String.ofList_toList] at hderives
  rw [read_eq_ok_iff, (spells_word hword).significant_tokens]
  exact hderives

/-- **A declared name is a terminal exactly when it is a word.**  Its text is read as the reference to
it then and only then, so all the names of a grammar are terminals exactly when all non-empty names
that it was made from are words.  No accepted text refers to any other name. -/
theorem read_name_eq_guard_iff (h : build names = some g) :
    (∀ n ∈ g.names, g.read n = .ok (.guard n) ↔ IsWord n.toList) ∧
      ((∀ n ∈ g.names, g.read n = .ok (.guard n)) ↔ ∀ n ∈ names, n ≠ "" → IsWord n.toList) ∧
      ∀ n, ¬ IsWord n.toList → ∀ text e, g.read text = .ok e → n ∉ e.guards := by
  have hterminal : ∀ n ∈ g.names, g.read n = .ok (.guard n) ↔ IsWord n.toList := fun n hn =>
    ⟨fun hread => isWord_of_read hread (List.mem_singleton_self n), read_of_isWord hn⟩
  refine ⟨hterminal, ?_, fun n hn text e hread hguard => hn (isWord_of_read hread hguard)⟩
  constructor
  · intro hall n hn hne
    have hmem : n ∈ g.names := (mem_names_of_build h).2 ⟨hn, hne⟩
    exact (hterminal n hmem).1 (hall n hmem)
  · intro hwords n hn
    obtain ⟨hmem, hne⟩ := (mem_names_of_build h).1 hn
    exact (hterminal n hn).2 (hwords n hmem hne)

/-- A word beside a name with a space. -/
theorem read_name_eq_guard_iff_spaced :
    build ["ready", "", "a b", "ready"] = some ⟨["ready", "a b"]⟩ ∧
      (Grammar.mk ["ready", "a b"]).read "ready" = .ok (.guard "ready") ∧
      (Grammar.mk ["ready", "a b"]).read "a b" ≠ .ok (.guard "a b") ∧
      ∀ text e, (Grammar.mk ["ready", "a b"]).read text = .ok e → "a b" ∉ e.guards := by
  have hbuild : build ["ready", "", "a b", "ready"] = some ⟨["ready", "a b"]⟩ := by decide +kernel
  obtain ⟨hterminal, -, hother⟩ := read_name_eq_guard_iff hbuild
  have hready : IsWord "ready".toList := isWord_of_all (by decide) (by decide)
  have hspaced : ¬ IsWord "a b".toList := fun hword =>
    absurd (hword.2 ' ' (by decide)) (by decide)
  exact ⟨hbuild, (hterminal "ready" (by decide)).2 hready, mt (hterminal "a b" (by decide)).1 hspaced,
    hother "a b" hspaced⟩

/-- A declared name that is two words is refused: its first word as undeclared and its second as
unexpected. -/
theorem not_reads_spacedName :
    build ["a b"] = some ⟨["a b"]⟩ ∧
      ((Grammar.mk ["a b"]).readTree "a b").errors =
        [⟨.undeclaredName ['a'], 0, 1⟩, ⟨.unexpected ⟨.word, ['b']⟩, 2, 1⟩] ∧
      ¬ ∀ n ∈ (Grammar.mk ["a b"]).names, (Grammar.mk ["a b"]).read n = .ok (.guard n) := by
  refine ⟨by decide +kernel, by decide +kernel, fun h => ?_⟩
  exact absurd (h "a b" List.mem_cons_self) (by decide +kernel)

end Grammar

end Rendezvous.Guard
