import Rendezvous.Proofs.Glue.Mentions

/-!
# What ends contribute to a glue

A glue grows end by end: an end makes its port an effect, and adds ports to what that effect accepts
and options to what it requires.  Nothing is ever taken back, so the glue of an architecture consists
of the contributions of all ends of its connectors, each computed from the ends around it
(`ofArchitecture_iff_exists`).  Who stands around whom is symmetric (`StandsAmong.swap`).
-/

namespace Rendezvous.Glue

/-! ## Views of a glue -/

/-- The ports that a port may interact with. -/
def accepts (g : Glue) (p : Port) : List Port :=
  ((g.effects.get? p).getD .empty).accepts

/-- The alternatives of what a port needs. -/
def requires (g : Glue) (p : Port) : List (List Port) :=
  ((g.effects.get? p).getD .empty).requires

section
variable (triggers : List Port) (g : Glue) (e : GlueEnd) (others : List GlueEnd) (p : Port)

theorem accepts_addEnd :
    (addEnd triggers g e others).accepts p =
      if e.port = p then (accepted e others).foldl insertNew (g.accepts p) else g.accepts p := by
  rw [accepts, get?_addEnd]
  split <;> rfl

theorem requires_addEnd :
    (addEnd triggers g e others).requires p =
      if e.port = p then (options e triggers others).foldl insertNew (g.requires p)
      else g.requires p := by
  rw [requires, get?_addEnd]
  split <;> rfl

theorem mem_keys_addEnd :
    p ∈ (addEnd triggers g e others).effects.keys ↔ p ∈ g.effects.keys ∨ e.port = p := by
  rw [Table.mem_keys_iff, Table.mem_keys_iff, get?_addEnd]
  split
  · next h => simp [h]
  · next h => simp [h]

theorem mem_accepts_addEnd (q : Port) :
    q ∈ (addEnd triggers g e others).accepts p ↔
      q ∈ g.accepts p ∨ (e.port = p ∧ q ∈ accepted e others) := by
  rw [accepts_addEnd]
  split
  · next h => rw [mem_foldl_insertNew, and_iff_right h]
  · next h => simp [h]

theorem mem_requires_addEnd (option : List Port) :
    option ∈ (addEnd triggers g e others).requires p ↔
      option ∈ g.requires p ∨ (e.port = p ∧ option ∈ options e triggers others) := by
  rw [requires_addEnd]
  split
  · next h => rw [mem_foldl_insertNew, and_iff_right h]
  · next h => simp [h]

end

/-! ## Ends around an end -/

/-- The ports of the triggers among some ends. -/
def triggersOf (ends : List GlueEnd) : List Port :=
  (ends.filter GlueEnd.isTrigger).map GlueEnd.port

/-- An end is one of `ends`, and `others` are the ones around it. -/
def StandsAmong (ends : List GlueEnd) (e : GlueEnd) (others : List GlueEnd) : Prop :=
  (e, others) ∈ withOthers [] ends

section
variable {ends others : List GlueEnd} {e o : GlueEnd}

theorem standsAmong_iff :
    StandsAmong ends e others ↔ ∃ l r, ends = l ++ e :: r ∧ others = l ++ r :=
  mem_withOthers_iff

theorem StandsAmong.mem (h : StandsAmong ends e others) : e ∈ ends :=
  (mem_withOthers h).1

theorem exists_standsAmong (h : e ∈ ends) : ∃ others, StandsAmong ends e others :=
  exists_mem_withOthers [] h

theorem StandsAmong.mem_of_ne (h : StandsAmong ends e others) (ho : o ∈ ends) (hne : o ≠ e) :
    o ∈ others := by
  obtain ⟨l, r, rfl, rfl⟩ := standsAmong_iff.1 h
  simp only [List.mem_append, List.mem_cons] at ho ⊢
  tauto

/-- An end that stands around another has that one around itself. -/
theorem StandsAmong.swap (h : StandsAmong ends e others) (ho : o ∈ others) :
    ∃ others', StandsAmong ends o others' ∧ e ∈ others' := by
  obtain ⟨l, r, rfl, rfl⟩ := standsAmong_iff.1 h
  rcases List.mem_append.1 ho with ho | ho
  · obtain ⟨l₁, l₂, rfl⟩ := List.append_of_mem ho
    exact ⟨l₁ ++ (l₂ ++ e :: r), standsAmong_iff.2 ⟨l₁, l₂ ++ e :: r, by simp, rfl⟩, by simp⟩
  · obtain ⟨r₁, r₂, rfl⟩ := List.append_of_mem ho
    exact ⟨(l ++ e :: r₁) ++ r₂, standsAmong_iff.2 ⟨l ++ e :: r₁, r₂, by simp, rfl⟩, by simp⟩

theorem mem_triggersOf {t : Port} :
    t ∈ triggersOf ends ↔ ∃ x ∈ ends, x.isTrigger = true ∧ x.port = t := by
  simp [triggersOf, and_assoc]

theorem triggersOf_eq_nil_iff : triggersOf ends = [] ↔ ∀ x ∈ ends, x.isTrigger = false := by
  simp [triggersOf]

end

/-! ## The glue of an architecture -/

/-- The ends of a connector as the glue sees them: those that are connected to a port. -/
def endsOf (s : Store) (a : Architecture) (c : Path) : List GlueEnd :=
  (a.ends c).filterMap (end? s a)

/-- What adding an end keeps holds of the glue of an architecture. -/
theorem ofArchitecture_induction {P : Glue → Prop} (hempty : P empty)
    (hend : ∀ triggers g e others, P g → P (addEnd triggers g e others)) (s : Store)
    (a : Architecture) : P (ofArchitecture s a) := by
  refine List.foldlRecOn (motive := P) a.connectors _ hempty fun g hg c _ => ?_
  exact List.foldlRecOn (motive := P) _ _ hg fun g hg x _ => hend _ g x.1 x.2 hg

/-- **A fact that ends bring to a glue is brought by one of the ends.** -/
theorem ofArchitecture_iff_exists {P : Glue → Prop}
    {Q : List Port → GlueEnd → List GlueEnd → Prop} (hempty : ¬ P empty)
    (hstep : ∀ triggers g e others,
      P (addEnd triggers g e others) ↔ P g ∨ Q triggers e others)
    (s : Store) (a : Architecture) :
    P (ofArchitecture s a) ↔ ∃ c ∈ a.connectors, ∃ e others,
      StandsAmong (endsOf s a c) e others ∧ Q (triggersOf (endsOf s a c)) e others := by
  have hconnector : ∀ (g : Glue) (ends : List GlueEnd), P (g.addConnector ends) ↔
      P g ∨ ∃ x ∈ withOthers [] ends, Q (triggersOf ends) x.1 x.2 :=
    fun g ends => foldl_iff_or_exists (fun g x => hstep (triggersOf ends) g x.1 x.2) _ g
  have hfold := foldl_iff_or_exists (fun g c => hconnector g (endsOf s a c)) a.connectors empty
  simp only [Prod.exists] at hfold
  exact hfold.trans (or_iff_right hempty)

section
variable {s : Store} {a : Architecture} {p q : Port}

/-- The effects are those of the ports of ends. -/
theorem mem_keys_ofArchitecture_iff :
    p ∈ (ofArchitecture s a).effects.keys ↔
      ∃ c ∈ a.connectors, ∃ e ∈ endsOf s a c, e.port = p := by
  rw [ofArchitecture_iff_exists (P := (p ∈ ·.effects.keys)) List.not_mem_nil
    fun triggers g e others => mem_keys_addEnd triggers g e others p]
  constructor
  · rintro ⟨c, hc, e, others, hstands, hp⟩
    exact ⟨c, hc, e, hstands.mem, hp⟩
  · rintro ⟨c, hc, e, he, hp⟩
    obtain ⟨others, hstands⟩ := exists_standsAmong he
    exact ⟨c, hc, e, others, hstands, hp⟩

theorem mem_accepts_ofArchitecture_iff :
    q ∈ (ofArchitecture s a).accepts p ↔ ∃ c ∈ a.connectors, ∃ e others,
      StandsAmong (endsOf s a c) e others ∧ e.port = p ∧ q ∈ accepted e others :=
  ofArchitecture_iff_exists (P := (q ∈ ·.accepts p)) List.not_mem_nil
    (fun triggers g e others => mem_accepts_addEnd triggers g e others p q) s a

theorem mem_requires_ofArchitecture_iff {option : List Port} :
    option ∈ (ofArchitecture s a).requires p ↔ ∃ c ∈ a.connectors, ∃ e others,
      StandsAmong (endsOf s a c) e others ∧ e.port = p ∧
        option ∈ options e (triggersOf (endsOf s a c)) others :=
  ofArchitecture_iff_exists (P := (option ∈ ·.requires p)) List.not_mem_nil
    (fun triggers g e others => mem_requires_addEnd triggers g e others p option) s a

end

end Rendezvous.Glue
