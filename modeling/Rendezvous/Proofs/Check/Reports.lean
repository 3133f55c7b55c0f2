import Rendezvous.Check.Violation

/-!
# Reports only grow

A check hands on the report that it was given, with its own findings at the end (`Extends`).  A
run that ends with the report it began with has therefore added nothing at any step
(`Extends.eq_iff`), and a fold of checks is silent exactly when each of them is (`foldl_eq_iff`).
Most single checks decide a condition and report once where it fails (`Decides`).
-/

namespace Rendezvous.Report

/-- `r` is `r₀` with further findings at its end. -/
structure Extends (r₀ r : Report) : Prop where
  kind_eq : r.kind = r₀.kind
  starts : r₀.violations <+: r.violations

theorem extends_refl (r : Report) : r.Extends r :=
  ⟨rfl, List.prefix_rfl⟩

theorem extends_add (r : Report) (node : Path) (code message : String) :
    r.Extends (r.add node code message) :=
  ⟨rfl, List.prefix_append _ _⟩

/-- A finding can be seen. -/
theorem add_ne (r : Report) (node : Path) (code message : String) :
    r.add node code message ≠ r := by
  intro h
  have hsize := congrArg size h
  rw [size_add] at hsize
  omega

section
variable {r₀ r r₁ : Report}

theorem Extends.trans (h : r₀.Extends r) (h' : r.Extends r₁) : r₀.Extends r₁ :=
  ⟨h'.kind_eq.trans h.kind_eq, h.starts.trans h'.starts⟩

theorem Extends.antisymm (h : r₀.Extends r) (h' : r.Extends r₀) : r = r₀ := by
  have hviolations : r₀.violations = r.violations :=
    h.starts.eq_of_length (Nat.le_antisymm h.starts.length_le h'.starts.length_le)
  cases r
  cases r₀
  simp only [mk.injEq]
  exact ⟨h.kind_eq, hviolations.symm⟩

/-- Nothing is added in the end exactly when nothing is added on the way. -/
theorem Extends.eq_iff (h : r₀.Extends r) (h' : r.Extends r₁) : r₁ = r₀ ↔ r = r₀ ∧ r₁ = r := by
  constructor
  · rintro rfl
    have heq : r = r₁ := h.antisymm h'
    exact ⟨heq, heq.symm⟩
  · rintro ⟨rfl, rfl⟩
    rfl

/-- A finding stays. -/
theorem Extends.ne_of_ne (h : r₀.Extends r) (hne : r ≠ r₀) (h' : r.Extends r₁) : r₁ ≠ r₀ :=
  fun heq => hne ((h.eq_iff h').1 heq).1

end

/-- A report that began empty has no violations exactly when nothing was added. -/
theorem Extends.violations_eq_nil_iff {kind : ViolationKind} {r : Report}
    (h : (empty kind).Extends r) : r.violations = [] ↔ r = empty kind := by
  constructor
  · intro hnil
    have hprefix : r.violations <+: (empty kind).violations := by
      rw [hnil]
      exact List.nil_prefix
    exact h.antisymm ⟨h.kind_eq.symm, hprefix⟩
  · rintro rfl
    rfl

/-! ## Checks of one condition -/

/-- A check from `r` to `r'` that reports once exactly where a condition fails. -/
def Decides (valid : Prop) (r r' : Report) : Prop :=
  (valid ∧ r' = r) ∨ (¬ valid ∧ ∃ node code message, r' = r.add node code message)

section
variable {valid : Prop} {r r' : Report}

theorem Decides.extends_report (h : Decides valid r r') : r.Extends r' := by
  rcases h with ⟨-, rfl⟩ | ⟨-, node, code, message, rfl⟩
  · exact extends_refl r'
  · exact extends_add r node code message

/-- The check is silent exactly when the condition holds. -/
theorem Decides.eq_iff (h : Decides valid r r') : r' = r ↔ valid := by
  rcases h with ⟨hvalid, rfl⟩ | ⟨hnot, node, code, message, rfl⟩
  · exact iff_of_true rfl hvalid
  · exact iff_of_false (add_ne r node code message) hnot

end

/-! ## Folds of checks -/

section
variable {σ α : Type} {step : σ → α → σ} (report : σ → Report)

theorem extends_foldl (hstep : ∀ x a, (report x).Extends (report (step x a))) (xs : List α)
    (x : σ) :
    (report x).Extends (report (xs.foldl step x)) := by
  induction xs generalizing x with
  | nil => exact extends_refl _
  | cons a xs ih => exact (hstep x a).trans (ih (step x a))

/-- A fold is silent exactly when all its steps are.  `Inv` is what the steps keep and what the
silence of a step may depend on. -/
theorem foldl_eq_iff (Inv : σ → Prop) {Valid : α → Prop}
    (hextends : ∀ x a, (report x).Extends (report (step x a)))
    (hinv : ∀ x a, Inv x → Inv (step x a))
    (hstep : ∀ x a, Inv x → (report (step x a) = report x ↔ Valid a)) {xs : List α} {x : σ}
    (hx : Inv x) : report (xs.foldl step x) = report x ↔ ∀ a ∈ xs, Valid a := by
  induction xs generalizing x with
  | nil => simp
  | cons a xs ih =>
    have hrest := extends_foldl report hextends xs (step x a)
    rw [List.foldl_cons, (hextends x a).eq_iff hrest, hstep x a hx, ih (hinv x a hx),
      List.forall_mem_cons]

end

end Rendezvous.Report
