import Mathlib.Data.List.Induction
import Rendezvous.Check.Behavior
import Rendezvous.Proofs.Accumulation

/-!
# The findings that a check adds

A report says which nodes it finds fault with, and under which codes.  A check `Lists` the cases of a
condition when it adds exactly one finding for each case.  Checks one after the other list both of
their conditions, as long as no case falls under both (`Lists.trans`).  A fold lists, with the number
of the step, what each of its steps lists (`lists_foldl`); the numbers can go when a case tells which
step it belongs to (`lists_foldl_of_nodup`, `lists_foldl_mem`).
-/

namespace Rendezvous.Report

/-- The nodes that a report finds fault with, with the codes, in the order of the findings. -/
def findings (r : Report) : List (Path × String) :=
  r.violations.map fun v => (v.node, v.code)

@[simp] theorem findings_empty (kind : ViolationKind) : (empty kind).findings = [] := rfl

@[simp] theorem findings_add (r : Report) (node : Path) (code message : String) :
    (r.add node code message).findings = r.findings ++ [(node, code)] := by
  simp [findings, add]

/-- A check from `r` to `r'` that adds one finding for each case of `P`, as `shown` shows it. -/
def Lists {α : Type} (shown : α → Path × String) (P : α → Prop) (r r' : Report) : Prop :=
  ∃ xs : List α, xs.Nodup ∧ (∀ x, x ∈ xs ↔ P x) ∧ r'.findings = r.findings ++ xs.map shown

section
variable {α : Type} {shown : α → Path × String} {P Q : α → Prop} {r r' r'' : Report}

/-- A check of a condition without cases. -/
theorem lists_of_forall_not (h : ∀ x, ¬ P x) (heq : r'.findings = r.findings) :
    Lists shown P r r' :=
  ⟨[], List.nodup_nil, fun x => iff_of_false List.not_mem_nil (h x), by simp [heq]⟩

/-- A check of a condition with one case. -/
theorem lists_of_iff_eq {x : α} (h : ∀ y, P y ↔ y = x)
    (heq : r'.findings = r.findings ++ [shown x]) : Lists shown P r r' :=
  ⟨[x], List.nodup_singleton x, fun y => List.mem_singleton.trans (h y).symm, heq⟩

variable (shown) in
/-- A check that adds its one finding under a condition. -/
theorem lists_addIf {x : α} {node : Path} {code : String} (hx : shown x = (node, code))
    (condition : Bool) (message : String) (r : Report) :
    Lists shown (fun y => condition = true ∧ y = x) r
      (Behavior.addIf condition node code message r) := by
  unfold Behavior.addIf
  cases condition with
  | false => exact lists_of_forall_not (by simp) rfl
  | true => exact lists_of_iff_eq (x := x) (by simp) (by simp [hx])

theorem Lists.congr (h : Lists shown P r r') (hiff : ∀ x, P x ↔ Q x) : Lists shown Q r r' := by
  obtain ⟨xs, hnodup, hmem, heq⟩ := h
  exact ⟨xs, hnodup, fun x => (hmem x).trans (hiff x), heq⟩

/-- A check that stays silent has found no case. -/
theorem Lists.not_of_silent (h : Lists shown P r r') (hsilent : r'.findings = r.findings) (x : α) :
    ¬ P x := by
  obtain ⟨xs, -, hmem, heq⟩ := h
  rw [hsilent, List.self_eq_append_right, List.map_eq_nil_iff] at heq
  rw [← hmem, heq]
  exact List.not_mem_nil

/-- Two checks list the cases of both conditions. -/
theorem Lists.trans (h : Lists shown P r r') (h' : Lists shown Q r' r'')
    (hdisjoint : ∀ x, P x → ¬ Q x) : Lists shown (fun x => P x ∨ Q x) r r'' := by
  obtain ⟨xs, hnodup, hmem, heq⟩ := h
  obtain ⟨ys, hnodup', hmem', heq'⟩ := h'
  refine ⟨xs ++ ys, hnodup.append hnodup' fun x hx hy => ?_, fun x => ?_, ?_⟩
  · exact hdisjoint x ((hmem x).1 hx) ((hmem' x).1 hy)
  · rw [List.mem_append, hmem, hmem']
  · rw [heq', heq, List.map_append, List.append_assoc]

/-- The cases can be told in other words, each in words of its own. -/
theorem Lists.image {β : Type} (f : α → β) (shown : β → Path × String)
    (h : Lists (fun x => shown (f x)) P r r') (hinj : ∀ x y, P x → P y → f x = f y → x = y) :
    Lists shown (fun y => ∃ x, P x ∧ f x = y) r r' := by
  obtain ⟨xs, hnodup, hmem, heq⟩ := h
  refine ⟨xs.map f, ?_, fun y => ?_, by rw [heq, List.map_map]; rfl⟩
  · refine List.Nodup.map_on (fun x hx y hy => ?_) hnodup
    exact hinj x y ((hmem x).1 hx) ((hmem y).1 hy)
  · rw [List.mem_map]
    exact exists_congr fun x => and_congr_left fun _ => hmem x

end

/-! ## Folds -/

section
variable {σ α β : Type} (report : σ → Report) {step : σ → α → σ} {shown : β → Path × String}
  {Q : List α → α → β → Prop} {x : σ}
  (hstep : ∀ before a, Lists shown (Q before a) (report (before.foldl step x))
    (report (step (before.foldl step x) a)))
include hstep

/-- A fold lists what its steps list.  The cases of a step are told by the number of the steps before
it, since steps may list the same. -/
theorem lists_foldl (xs : List α) : Lists (fun y : ℕ × β => shown y.2)
    (fun y => ∃ before a, before ++ [a] <+: xs ∧ before.length = y.1 ∧ Q before a y.2)
    (report x) (report (xs.foldl step x)) := by
  induction xs using List.reverseRecOn with
  | nil =>
    refine lists_of_forall_not ?_ rfl
    rintro y ⟨before, a, hturn, -⟩
    exact absurd (List.prefix_nil.1 hturn) (by simp)
  | append_singleton xs last ih =>
    rw [List.foldl_append, List.foldl_cons, List.foldl_nil]
    have hlast := (hstep xs last).image (fun b => (xs.length, b)) (fun y : ℕ × β => shown y.2)
      fun b c _ _ h => congrArg Prod.snd h
    refine (ih.trans hlast ?_).congr fun y => ?_
    · -- the turns so far come before that of the last element
      rintro y ⟨before, a, hturn, hlength, -⟩ ⟨b, -, rfl⟩
      have hle := hturn.length_le
      rw [List.length_append, List.length_singleton] at hle
      dsimp only at hlength
      omega
    · rw [exists_turn_concat_iff]
      refine or_congr Iff.rfl ?_
      constructor
      · rintro ⟨b, hb, rfl⟩
        exact ⟨rfl, hb⟩
      · rintro ⟨hlength, hb⟩
        exact ⟨y.2, hb, Prod.ext hlength rfl⟩

/-- When every case tells the step that it belongs to, a fold lists the cases of all its steps. -/
theorem lists_foldl_of_nodup {γ : Type} (place : α → γ) (site : β → γ)
    (hsite : ∀ before a y, Q before a y → site y = place a) {xs : List α}
    (hnodup : (xs.map place).Nodup) :
    Lists shown (fun y => ∃ before a, before ++ [a] <+: xs ∧ Q before a y)
      (report x) (report (xs.foldl step x)) := by
  refine ((lists_foldl report hstep xs).image Prod.snd shown ?_).congr fun y => ?_
  · rintro ⟨i, y⟩ ⟨j, z⟩ ⟨before, a, hturn, rfl, hy⟩ ⟨before', a', hturn', rfl, hz⟩ heq
    dsimp only at heq hy hz
    subst heq
    have hplace : place a = place a' := (hsite before a y hy).symm.trans (hsite before' a' y hz)
    obtain ⟨rfl, -⟩ := turn_unique hnodup hturn hturn' hplace
    rfl
  · constructor
    · rintro ⟨⟨i, z⟩, ⟨before, a, hturn, -, hz⟩, rfl⟩
      exact ⟨before, a, hturn, hz⟩
    · rintro ⟨before, a, hturn, hy⟩
      exact ⟨(before.length, y), ⟨before, a, hturn, rfl, hy⟩, rfl⟩

end

/-- The same for steps whose cases do not depend on the steps before. -/
theorem lists_foldl_mem {σ α β γ : Type} (report : σ → Report) {step : σ → α → σ}
    {shown : β → Path × String} {Q : α → β → Prop}
    (hstep : ∀ x a, Lists shown (Q a) (report x) (report (step x a))) (place : α → γ) (site : β → γ)
    (hsite : ∀ a y, Q a y → site y = place a) {xs : List α} (hnodup : (xs.map place).Nodup) (x : σ) :
    Lists shown (fun y => ∃ a ∈ xs, Q a y) (report x) (report (xs.foldl step x)) := by
  refine (lists_foldl_of_nodup report (fun before a => hstep (before.foldl step x) a) place site
    (fun _ => hsite) hnodup).congr fun y => ?_
  rw [exists_comm]
  refine exists_congr fun a => ?_
  rw [← exists_turn_iff_mem, exists_and_right]

/-! ## Rules on one node -/

/-- How a rule turns out for a node. -/
structure Verdict where
  broken : Bool
  code : String
  message : String

/-- Adds a finding for a broken rule. -/
def judge (node : Path) (r : Report) (v : Verdict) : Report :=
  Behavior.addIf v.broken node v.code v.message r

/-- Rules with codes of their own are listed by the codes of the broken ones. -/
theorem lists_foldl_judge {node : Path} {vs : List Verdict}
    (hnodup : (vs.map Verdict.code).Nodup) (r : Report) :
    Lists (fun code => (node, code)) (fun code => ∃ v ∈ vs, v.broken = true ∧ v.code = code) r
      (vs.foldl (judge node) r) := by
  have hstep : ∀ (r : Report) (v : Verdict), Lists (fun code => (node, code))
      (fun code => v.broken = true ∧ code = v.code) r (judge node r v) :=
    fun r v => lists_addIf _ rfl v.broken v.message r
  have hfold := lists_foldl_mem id hstep Verdict.code id (fun _ _ h => h.2) hnodup r
  exact hfold.congr fun code => by simp only [eq_comm (a := code)]

end Rendezvous.Report
